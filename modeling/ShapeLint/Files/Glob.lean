import ShapeLint.Files.Tree
import ShapeLint.Files.Wildcard

/-!
# Globs

A glob is a relative path whose names may be wildcards, and in which `**` stands for any number of
directories. It selects the paths under a directory that it fits, in order. A glob that ends in a
slash selects only directories.
-/

namespace ShapeLint.Files

/-- A part of a glob: an entry with exactly this name, one whose name fits a wildcard, or any number
of directories. -/
inductive GlobPart where
  | exact (name : String)
  | wild (pattern : String)
  | deep
deriving DecidableEq, Inhabited

/-- Why a text is no glob: it is empty or has `**` beside other characters in a name, it is no
relative path, or it has no names, though it may ask for a directory. -/
inductive GlobError where
  | unacceptable
  | absolute
  | noNames (onlyDirectories : Bool)
deriving DecidableEq, Inhabited

/-- A glob: its parts, and whether only directories are selected. -/
structure Glob where
  parts : List GlobPart
  onlyDirectories : Bool
deriving Inhabited

namespace Glob

/-- Whether a text holds two stars in a row. -/
def hasDoubleStar : List Char → Bool
  | '*' :: '*' :: _ => true
  | _ :: s => hasDoubleStar s
  | [] => false

/-- The part that a name denotes. -/
def partOf (name : String) : Except GlobError GlobPart :=
  if name = "**" then .ok .deep
  else if hasDoubleStar name.toList then .error .unacceptable
  else if Wildcard.isWildcard name then .ok (.wild name)
  else .ok (.exact name)

/-- The glob that a text denotes. -/
def ofString (s : String) : Except GlobError Glob :=
  if s = "" then .error .unacceptable
  else
    let p := Path.ofString s
    let onlyDirectories := s.toList.getLast? == some '/'
    if p.isAbsolute then .error .absolute
    else if p.names.isEmpty then .error (.noNames onlyDirectories)
    else do
      let parts ← p.names.mapM partOf
      return { parts, onlyDirectories }

variable (fs : FileSystem)

/-- The paths that parts select from a path on; all but the last of them must be directories.
Several ways through directories may lead to one path, which is given once. -/
def selectFrom (onlyDirectories : Bool) : List GlobPart → Path → List Path
  | [], p => [p]
  | part :: parts, p =>
    let fit (q : Path) : Bool :=
      if parts.isEmpty && !onlyDirectories then fs.exists? q else fs.isDirectory q
    match part with
    | .exact name =>
      if fit (p.child name) then selectFrom onlyDirectories parts (p.child name) else []
    | .wild pattern =>
      (fs.names p).flatMap fun name =>
        if Wildcard.accepts pattern name && fit (p.child name)
          then selectFrom onlyDirectories parts (p.child name) else []
    | .deep => ((fs.directories p).flatMap (selectFrom onlyDirectories parts)).eraseDups

/-- The paths that a glob selects under a directory, in order; none if that is no directory. -/
def select (g : Glob) (base : Path) : List Path :=
  if fs.isDirectory base then Path.sort (selectFrom fs g.onlyDirectories g.parts base) else []

end Glob

end ShapeLint.Files
