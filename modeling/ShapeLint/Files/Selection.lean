import ShapeLint.Files.Glob
import ShapeLint.Script

/-!
# Selecting scripts

Paths that are given select the files to look at: a directory all Java files under it, in order, and
any other path itself. A file that was selected before, by whatever path, is left out, and so is one
that a wildcard excludes, by its name or by its path from the root directory.
-/

namespace ShapeLint.Files

/-- Which scripts are asked for: the paths that are given, the wildcards of what is left out, and
the directory that these see paths from. -/
structure Selection where
  paths : List Path
  exclude : List String := []
  root : Path := .here
deriving Inhabited

namespace Selection

variable (fs : FileSystem)

/-- The wildcard of the files that are selected in a directory. -/
def javaFiles : String := "*.java"

/-- The paths that are looked at; the directory at hand if none is given. -/
def starts (s : Selection) : List Path :=
  if s.paths.isEmpty then [.here] else s.paths

/-- The files that one path stands for. A path that is no directory stands for itself, be there a
file or not: that there is none is reported when it is read. -/
def candidatesAt (p : Path) : List Path :=
  if fs.isDirectory p then
    (Glob.select fs { parts := [.deep, .wild javaFiles], onlyDirectories := false } p).filter
      fs.isFile
  else [p]

/-- The files that all paths stand for. -/
def candidates (s : Selection) : List Path :=
  s.starts.flatMap (candidatesAt fs)

/-- Whether a path is left out. A path outside of the root directory is seen as it is given. -/
def isExcluded (s : Selection) (p : Path) : Bool :=
  let relative := ((fs.resolve p).relativeTo? (fs.resolve s.root)).getD p
  s.exclude.any fun pattern =>
    Wildcard.accepts pattern relative.text || Wildcard.accepts pattern p.name

/-- Those of several paths that lead to no file that was seen or that another leads to before. -/
def unseen : List Path → List Path → List Path
  | _, [] => []
  | seen, p :: ps =>
    if seen.contains (fs.resolve p) then unseen seen ps else p :: unseen (fs.resolve p :: seen) ps

/-- The files that are selected or left out, each once, in order. A file that is left out is not
selected by another path either. -/
def found (s : Selection) : List Path :=
  unseen fs [] (s.candidates fs)

/-- The files that are selected, in order. -/
def files (s : Selection) : List Path :=
  (s.found fs).filter fun p => !s.isExcluded fs p

/-- The fault for a script that cannot be read. -/
def readFault (p : Path) (e : FileError) : Fault :=
  let fault := Fault.of (.script p.text) ("cannot read " ++ p.text ++ ": " ++ e.words)
  { fault with diagnostic := { fault.diagnostic with code := .scriptRead } }

/-- What happens when the script at a path is asked for. -/
def draw (p : Path) : List Draw :=
  match fs.read p with
  | .ok bytes => Script.draws p.text ⟨bytes⟩
  | .error e =>
    let fault := readFault p e
    [.entry ⟨.info, .scripts, "failed to load " ++ p.text ++ ": " ++ fault.message⟩,
      .item (.failed p.text fault)]

/-- What happens when the selected scripts are asked for one after another. -/
def draws (s : Selection) : List Draw :=
  (s.found fs).flatMap fun p =>
    if s.isExcluded fs p then [.entry ⟨.debug, .scripts, "excluded " ++ p.text⟩] else draw fs p

end Selection

end ShapeLint.Files
