/-!
# Paths

A path is a root, empty for a relative path, and the names that lead from there. Names that are
empty or a single point are left away when a path is read; those that lead upwards stay. Paths are
ordered by their names, one after another.
-/

namespace ShapeLint.Files

/-- A path: a root, and the names from there on. -/
structure Path where
  /-- The root: empty for a relative path, and one or two slashes otherwise. -/
  root : String := ""
  names : List String := []
deriving DecidableEq, Inhabited

namespace Path

/-- The pieces between the slashes of a text. -/
def split : List Char → List (List Char)
  | [] => [[]]
  | '/' :: s => [] :: split s
  | c :: s =>
    match split s with
    | [] => [[c]]
    | piece :: pieces => (c :: piece) :: pieces

/-- The root that a text starts with. Exactly two slashes are a root of their own. -/
def rootOf : List Char → String
  | '/' :: '/' :: '/' :: _ => "/"
  | '/' :: '/' :: _ => "//"
  | '/' :: _ => "/"
  | _ => ""

/-- The names between the slashes of a text that count. An empty one and a single point lead
nowhere; two points are kept, since where they lead depends on the files. -/
def namesOf (s : String) : List String :=
  ((split s.toList).map String.ofList).filter fun name => name != "" && name != "."

/-- The path that a text denotes. -/
def ofString (s : String) : Path :=
  { root := rootOf s.toList, names := namesOf s }

/-- The path of the directory at hand. -/
def here : Path := {}

/-- Whether a path does not depend on the directory at hand. -/
def isAbsolute (p : Path) : Bool :=
  p.root != ""

/-- A path as text. -/
def text (p : Path) : String :=
  if p.root = "" ∧ p.names = [] then "." else p.root ++ "/".intercalate p.names

/-- The last name, empty where there is none. -/
def name (p : Path) : String :=
  p.names.getLast?.getD ""

/-- The path of the directory that a path lies in. A path without names is its own parent. -/
def parent (p : Path) : Path :=
  { p with names := p.names.dropLast }

/-- The lists that a list starts with, the shortest first. -/
def leads : List String → List (List String)
  | [] => [[]]
  | name :: names => [] :: (leads names).map (name :: ·)

/-- The directories on the way to a path, and itself. -/
def ancestors (p : Path) : List Path :=
  (leads p.names).map fun names => { p with names }

/-- A path one name further. -/
def child (p : Path) (name : String) : Path :=
  { p with names := p.names ++ [name] }

/-- A path seen from another. An absolute path is seen from nowhere. -/
def append (p q : Path) : Path :=
  if q.isAbsolute then q else { p with names := p.names ++ q.names }

/-- A path with the home directory of a user put for a tilde in front and the name of the user
behind it; none if that directory is not known. The user at hand has the empty name. -/
def expandHome? (homes : List (String × Path)) (p : Path) : Option Path :=
  match p.root, p.names.map String.toList with
  | "", ('~' :: user) :: _ =>
    (homes.lookup (String.ofList user)).map fun home =>
      { home with names := home.names ++ p.names.tail }
  | _, _ => some p

/-- Names in which the upward ones have taken away what is before them; `above` holds what is left
so far, last first. -/
def flatten : List String → List String → List String
  | above, [] => above.reverse
  | above, ".." :: names => flatten above.tail names
  | above, name :: names => flatten (name :: above) names

/-- A path without upward names, seen from a directory. -/
def resolve (directory p : Path) : Path :=
  let full := directory.append p
  { full with names := flatten [] full.names }

/-- What is left of a path behind another that it starts with; none if it does not. -/
def relativeTo? (p base : Path) : Option Path :=
  if p.root = base.root ∧ base.names.isPrefixOf p.names
    then some { names := p.names.drop base.names.length } else none

/-- Whether names come before others, or are the same: compared one by one, and a shorter list
before a longer. -/
def namesLe : List String → List String → Bool
  | [], _ => true
  | _ :: _, [] => false
  | a :: as, b :: bs => if a = b then namesLe as bs else a < b

/-- The names by which a path is ordered. A root counts as a name in front. -/
def orderNames (p : Path) : List String :=
  if p.isAbsolute then p.root :: p.names else p.names

/-- Whether a path comes before another, or is the same. -/
def le (p q : Path) : Bool :=
  namesLe p.orderNames q.orderNames

/-- Paths in order. -/
def sort (ps : List Path) : List Path :=
  ps.mergeSort le

end Path

end ShapeLint.Files
