import ShapeLint.Fault
import ShapeLint.Java.Parse
import ShapeLint.Log

/-!
# Scripts

A script is a file with its tree and its text. A file that cannot be read or parsed takes part in an
analysis too: as an error that is reported in its place.
-/

namespace ShapeLint

/-- A file that was parsed: its path, its tree and its text. A script without a tree cannot be
analysed. -/
structure Script where
  path : String
  root? : Option Node
  text : List Char := []
deriving Inhabited

/-- The text of the line with a number counted from one, empty where there is none. -/
def Script.line (s : Script) (number : Nat) : List Char :=
  Text.lineAt s.text number

/-- What takes part in an analysis: a script, or the error in its place. -/
inductive Item where
  | script (s : Script)
  | failed (path : String) (fault : Fault)
deriving Inhabited

/-- What happens when the next item is asked for: entries are written to the log, an item is found,
or loading breaks off because a number cannot be represented. -/
inductive Draw where
  | entry (e : LogEntry)
  | item (i : Item)
  | broken (failure : Java.ParseFailure)
deriving Inhabited

namespace Script

/-- The entry for a tree that was built. -/
def convertedEntry (root : Node) : LogEntry :=
  ⟨.debug, .parser, "converted " ++ root.display⟩

/-- What comes of parsing a source that was found at a path. -/
def parse (path : String) (source : Java.Source) : Except Java.ParseFailure Item :=
  match Java.parse path source with
  | .ok root => .ok (.script { path, root? := some root, text := source.text })
  | .error (.rejected fault) => .ok (.failed path fault)
  | .error failure => .error failure

/-- What happens when a source that was found at a path is asked for. -/
def draws (path : String) (source : Java.Source) : List Draw :=
  match parse path source with
  | .ok (.script s) =>
    (s.root?.map convertedEntry).toList.map .entry ++ [.entry ⟨.debug, .scripts, "loaded " ++ path⟩,
      .item (.script s)]
  | .ok (.failed path fault) =>
    [.entry ⟨.info, .scripts, "failed to load " ++ path ++ ": " ++ fault.message⟩,
      .item (.failed path fault)]
  | .error failure => [.broken failure]

end Script

end ShapeLint
