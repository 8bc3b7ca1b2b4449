import ShapeLint.Files.Path
import ShapeLint.Text.Quoted

/-!
# File trees

A file tree is a file with its bytes or a directory with named entries. Files are found by following
the names of a path from the directory at hand; an upward name leads back to the directory before.
What is in the way decides how finding a file fails.
-/

namespace ShapeLint.Files

/-- A file with its bytes, or a directory with its entries. -/
inductive FileTree where
  | file (bytes : List UInt8)
  | directory (entries : List (String × FileTree))
deriving Inhabited

/-- Why a file could not be read or written: there is nothing under the path, something on the way
is no directory, it is a directory itself, or there is a file where a directory is to be made. -/
inductive FileError where
  | notFound
  | notDirectory
  | isDirectory
  | isFile
deriving DecidableEq, Inhabited

namespace FileError

/-- The number of an error, as systems give it. -/
def number : FileError → Nat
  | notFound => 2
  | notDirectory => 20
  | isDirectory => 21
  | isFile => 17

/-- The words for an error. -/
def words : FileError → String
  | notFound => "No such file or directory"
  | notDirectory => "Not a directory"
  | isDirectory => "Is a directory"
  | isFile => "File exists"

/-- An error at a path, in words. -/
def message (p : Path) (e : FileError) : String :=
  "[Errno " ++ toString e.number ++ "] " ++ e.words ++ ": " ++ Text.quoted p.text

end FileError

namespace FileTree

/-- Follows names from a file or directory, given the directories above it, nearest first. An upward
name leads from a directory to the one before, and from the root to itself. -/
def follow : FileTree → List FileTree → List String → Except FileError FileTree
  | t, _, [] => .ok t
  | file _, _, _ :: _ => .error .notDirectory
  | t@(directory entries), above, name :: names =>
    if name = ".." then
      match above with
      | [] => follow t [] names
      | outer :: above => follow outer above names
    else
      match entries.lookup name with
      | none => .error .notFound
      | some inner => follow inner (t :: above) names

mutual

/-- The directories of a tree, itself included, as names that lead there from a place. -/
def directoriesFrom (place : Path) : FileTree → List Path
  | file _ => []
  | directory entries => place :: directoriesIn place entries

/-- The directories of several entries. -/
def directoriesIn (place : Path) : List (String × FileTree) → List Path
  | [] => []
  | (name, t) :: entries => directoriesFrom (place.child name) t ++ directoriesIn place entries

end

/-- A tree with what is at the end of names changed; directories on the way are made where they are
missing. -/
def change (f : FileTree → FileTree) : List String → FileTree → FileTree
  | [], t => f t
  | _ :: _, file bytes => file bytes
  | name :: names, directory entries =>
    match entries.lookup name with
    | some inner =>
      directory (entries.map fun (other, t) =>
        (other, if other = name then change f names inner else t))
    | none => directory (entries ++ [(name, change f names (directory []))])

/-- A tree with a file put at the end of names. -/
def put (bytes : List UInt8) (names : List String) (t : FileTree) : FileTree :=
  t.change (fun _ => file bytes) names

/-- A tree with a directory put at the end of names; what is there already stays. -/
def makeDirectory (names : List String) (t : FileTree) : FileTree :=
  t.change id names

end FileTree

/-- All files, and the path of the directory at hand, which is absolute. -/
structure FileSystem where
  tree : FileTree
  here : Path
  /-- The home directories that are known, by the names of their users. The user at hand has the
  empty name. -/
  homes : List (String × Path) := []
deriving Inhabited

namespace FileSystem

/-- What a path leads to. -/
def find (fs : FileSystem) (p : Path) : Except FileError FileTree :=
  fs.tree.follow [] (fs.here.append p).names

/-- Whether a path leads to a directory. -/
def isDirectory (fs : FileSystem) (p : Path) : Bool :=
  match fs.find p with
  | .ok (.directory _) => true
  | _ => false

/-- Whether a path leads to a file. -/
def isFile (fs : FileSystem) (p : Path) : Bool :=
  match fs.find p with
  | .ok (.file _) => true
  | _ => false

/-- Whether a path leads anywhere. -/
def exists? (fs : FileSystem) (p : Path) : Bool :=
  match fs.find p with
  | .ok _ => true
  | .error _ => false

/-- The bytes of a file. -/
def read (fs : FileSystem) (p : Path) : Except FileError (List UInt8) :=
  match fs.find p with
  | .ok (.file bytes) => .ok bytes
  | .ok (.directory _) => .error .isDirectory
  | .error e => .error e

/-- The names in a directory. -/
def names (fs : FileSystem) (p : Path) : List String :=
  match fs.find p with
  | .ok (.directory entries) => entries.map (·.1)
  | _ => []

/-- The directories under a path, itself included. -/
def directories (fs : FileSystem) (p : Path) : List Path :=
  match fs.find p with
  | .ok t => t.directoriesFrom p
  | .error _ => []

/-- A path without upward names, from the root on. -/
def resolve (fs : FileSystem) (p : Path) : Path :=
  Path.resolve fs.here p

/-! ## Writing -/

/-- All files with a directory made at a path, in a directory that is there. -/
def makeDirectory (fs : FileSystem) (p : Path) : Except FileError FileSystem :=
  match fs.find p with
  | .ok (.directory _) => .ok fs
  | .ok (.file _) => .error .isFile
  | .error .notFound => .ok { fs with tree := fs.tree.makeDirectory (fs.resolve p).names }
  | .error e => .error e

/-- All files with directories made for several paths, one after another. -/
def makeEach (fs : FileSystem) : List Path → Except FileError FileSystem
  | [] => .ok fs
  | p :: ps =>
    match fs.makeDirectory p with
    | .error e => .error e
    | .ok fs => makeEach fs ps

/-- All files with a directory made at a path, and those on the way to it. Those that are there
already stay as they are. -/
def makeDirectories (fs : FileSystem) (p : Path) : Except FileError FileSystem :=
  fs.makeEach p.ancestors

/-- All files with bytes written to the one at a path, which is made if it is not there. Its
directory must be there. -/
def write (fs : FileSystem) (p : Path) (bytes : List UInt8) : Except FileError FileSystem :=
  match fs.find p.parent, fs.find p with
  | .error e, _ => .error e
  | .ok (.file _), _ => .error .notDirectory
  | .ok (.directory _), .ok (.directory _) => .error .isDirectory
  | .ok (.directory _), _ => .ok { fs with tree := fs.tree.put bytes (fs.resolve p).names }

end FileSystem

end ShapeLint.Files
