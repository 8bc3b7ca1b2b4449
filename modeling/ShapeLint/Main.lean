import ShapeLint.Cli.Sources

/-!
# The program

Fetches the files that a command needs, runs it, prints what it prints and stores what it has
written.
-/

namespace ShapeLint.Program

open ShapeLint.Files (FileSystem FileTree Path)

/-- The bytes of a file; none if it cannot be read. -/
def fetch (p : Path) : IO (List UInt8) := do
  try
    return (← IO.FS.readBinFile p.text).toList
  catch _ => return []

/-- What is under a path, with files left empty. -/
partial def outline (path : String) : IO FileTree := do
  let entries ← (← IO.FS.realPath path).readDir
  let trees ← entries.toList.mapM fun e => do
    let inner ←
      match (← e.path.symlinkMetadata).type with
      | .dir => outline e.path.toString
      | _ => pure (.file [])
    return (e.fileName, inner)
  return .directory trees

/-- Adds what is under a path, if anything is there. -/
def addPlace (fs : FileSystem) (p : Path) : IO FileSystem := do
  let names := (fs.resolve p).names
  try
    let tree ← outline p.text
    return { fs with tree := fs.tree.change (fun _ => tree) names }
  catch _ =>
    try
      let _ ← IO.FS.readBinFile p.text
      return { fs with tree := fs.tree.put [] names }
    catch _ => return fs

/-- Adds the directories on the way to a path and the file there, as far as they exist. -/
def addTarget (fs : FileSystem) (p : Path) : IO FileSystem := do
  let fs ← p.ancestors.foldlM
    (fun fs directory => do
      try
        let _ ← (← IO.FS.realPath directory.text).readDir
        return { fs with tree := fs.tree.makeDirectory (fs.resolve directory).names }
      catch _ => return fs)
    fs
  if fs.exists? p then return fs
  try
    let _ ← IO.FS.readBinFile p.text
    return { fs with tree := fs.tree.put [] (fs.resolve p).names }
  catch _ => return fs

/-- Fetches the files at paths. -/
def fill (fs : FileSystem) (ps : List Path) : IO FileSystem :=
  ps.foldlM
    (fun fs p => do
      if fs.isFile p then return { fs with tree := fs.tree.put (← fetch p) (fs.resolve p).names }
        else return fs)
    fs

/-- The files that a command needs. They are filled in twice: which of them there are depends on the
configuration, and that is known only after the first time. -/
def load (here : Path) (homes : List (String × Path)) (c : Cli.Command) : IO FileSystem := do
  let start : FileSystem :=
    { tree := (FileTree.directory []).makeDirectory here.names, here, homes }
  let fs ← (Cli.places c).foldlM addPlace start
  let fs ← (Cli.targets start c).foldlM addTarget fs
  let fs ← fill fs (Cli.sources fs c)
  fill fs (Cli.sources fs c)

/-- Stores what a run has written. -/
def store (before after : FileSystem) (p : Path) : IO Unit := do
  match before.read p, after.read p with
  | .ok old, .ok new => if old != new then IO.FS.writeBinFile p.text ⟨new.toArray⟩
  | _, .ok new =>
    IO.FS.createDirAll p.parent.text
    IO.FS.writeBinFile p.text ⟨new.toArray⟩
  | _, _ => return

/-- Prints what a run prints, in order. -/
def print (verbosity : Nat) (effects : List Cli.Effect) : IO Unit := do
  let out ← IO.getStdout
  let err ← IO.getStderr
  for e in effects do
    match e with
    | .out text => out.putStr text
    | .err text => err.putStr text
    | .entry entry => if entry.isShown verbosity then err.putStr entry.line
  out.flush
  err.flush

end ShapeLint.Program

open ShapeLint in
/-- Runs the program on the arguments of the command line. -/
def main (arguments : List String) : IO UInt32 := do
  let here := Files.Path.ofString (← IO.currentDir).toString
  let command? := (Cli.parse arguments).toOption.bind (·.command?)
  let home? := (← IO.getEnv "HOME").map Files.Path.ofString
  let fs ← Program.load here (home?.toList.map ("", ·)) (command?.getD .version)
  let (run, verbosity) := Cli.run fs arguments
  Program.print verbosity run.effects
  for p in (command?.map (Cli.targets fs)).getD [] do
    Program.store fs run.files p
  return UInt32.ofNat run.status.code
