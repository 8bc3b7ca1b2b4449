/-!
# Wildcards

A wildcard is a text in which `*` stands for any characters, `?` for any one character, and brackets
for one character out of a set, or outside of it after `!`. A bracket that is not closed stands for
itself. In a set, a hyphen between two characters stands for all from the one to the other; if they
are in the wrong order, both and the hyphen count for nothing. A closing bracket right at the start
of a set belongs to it.
-/

namespace ShapeLint.Files.Wildcard

/-- A piece of a wildcard: any characters, any one character, this character, or one in some of the
ranges. A negated set takes the characters in none of them. -/
inductive Piece where
  | star
  | any
  | char (c : Char)
  | set (negated : Bool) (ranges : List (Char × Char))
deriving DecidableEq, Inhabited

/-! ## Sets -/

/-- The pieces of a set between the hyphens that make ranges. A hyphen makes a range if a character
stands before it and one behind it; right behind the character that ends a range, which is where
`fresh` does not hold, it does not. -/
def chunks (fresh : Bool) : List Char → List (List Char)
  | [] => []
  | [c] => [[c]]
  | c :: d :: rest =>
    if fresh && d == '-' then
      if rest.isEmpty then [[c, '-']] else [c] :: chunks false rest
    else
      match chunks true (d :: rest) with
      | [] => [[c]]
      | chunk :: others => (c :: chunk) :: others

/-- Pieces in which, from the last on, two are joined where the range between them would be in the
wrong order. -/
def joinEmpty : List (List Char) → List (List Char)
  | [] => []
  | [chunk] => [chunk]
  | first :: others =>
    match joinEmpty others with
    | [] => [first]
    | second :: rest =>
      match first.getLast?, second.head? with
      | some a, some b =>
        if b < a then (first.dropLast ++ second.tail) :: rest else first :: second :: rest
      | _, _ => first :: second :: rest

/-- The ranges of pieces: between two of them from the last character of the one to the first of the
other, and all other characters on their own. -/
def rangesOf : List (List Char) → List (Char × Char)
  | [] => []
  | [chunk] => chunk.map fun c => (c, c)
  | chunk :: next :: rest =>
    match chunk.getLast?, next with
    | some a, b :: next => (chunk.dropLast.map fun c => (c, c)) ++ (a, b) :: rangesOf (next :: rest)
    | _, _ => (chunk.map fun c => (c, c)) ++ rangesOf (next :: rest)
termination_by chunks => chunks.length

/-- The set that stands between brackets. A negated set that is empty takes any character. -/
def setOf (inside : List Char) : Piece :=
  match inside with
  | '!' :: rest => if rest.isEmpty then .any else
    match rangesOf (joinEmpty (chunks true rest)) with
    | [] => .any
    | ranges => .set true ranges
  | _ => .set false (rangesOf (joinEmpty (chunks true inside)))

/-- What stands between an opening bracket, which is read, and its closing one, and the rest.
Neither the mark of negation nor a bracket right behind it closes the set. -/
def closing? (s : List Char) : Option (List Char × List Char) :=
  let (lead, s) :=
    match s with
    | '!' :: s => (['!'], s)
    | s => ([], s)
  let (lead, s) :=
    match s with
    | ']' :: s => (lead ++ [']'], s)
    | s => (lead, s)
  match s.dropWhile (· != ']') with
  | [] => none
  | _ :: rest => some (lead ++ s.takeWhile (· != ']'), rest)

/-! ## Wildcards -/

/-- The pieces of a wildcard; `limit` is at least its length. -/
def piecesFrom : Nat → List Char → List Piece
  | 0, _ => []
  | _, [] => []
  | limit + 1, c :: s =>
    match c with
    | '*' => .star :: piecesFrom limit s
    | '?' => .any :: piecesFrom limit s
    | '[' =>
      match closing? s with
      | some (inside, rest) => setOf inside :: piecesFrom limit rest
      | none => .char '[' :: piecesFrom limit s
    | c => .char c :: piecesFrom limit s

/-- The pieces of a wildcard. -/
def pieces (pattern : String) : List Piece :=
  piecesFrom pattern.toList.length pattern.toList

/-- Whether a character fits a piece. -/
def Piece.accepts (c : Char) : Piece → Bool
  | star => false
  | any => true
  | char d => c == d
  | set negated ranges => (ranges.any fun (a, b) => a ≤ c && c ≤ b) != negated

/-- What is left of a text after any number of characters. -/
def suffixes : List Char → List (List Char)
  | [] => [[]]
  | c :: s => (c :: s) :: suffixes s

/-- Whether a text fits pieces as a whole. A star is tried with every number of characters. -/
def fits : List Piece → List Char → Bool
  | [], s => s.isEmpty
  | .star :: ps, s => (suffixes s).any (fits ps)
  | _ :: _, [] => false
  | p :: ps, c :: s => p.accepts c && fits ps s

/-- Whether a text fits a wildcard as a whole. -/
def accepts (pattern text : String) : Bool :=
  fits (pieces pattern) text.toList

/-- Whether a text has a character that is special in wildcards. -/
def isWildcard (pattern : String) : Bool :=
  pattern.toList.any fun c => c == '*' || c == '?' || c == '['

end ShapeLint.Files.Wildcard
