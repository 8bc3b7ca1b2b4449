import ShapeLint.Text.Position

/-!
# Reading YAML text

A cursor is what is left of a text and the place where that starts. A scanner reads from a cursor
and may find a problem.
-/

namespace ShapeLint.Yaml

/-- What is wrong with a text, and where, with lines and columns counted from zero. -/
structure Problem where
  message : String
  line : Nat
  column : Nat
deriving DecidableEq, Inhabited

/-- A place in a text: what is left from there on, how many characters are behind, and the line and
the column, counted from zero. -/
structure Cursor where
  rest : List Char
  index : Nat := 0
  line : Nat := 0
  column : Nat := 0
deriving Inhabited

/-- Reads from a cursor. -/
abbrev Scanner := StateT Cursor (Except Problem)

/-! ## Characters -/

/-- Whether a character ends a line. -/
def isBreak (c : Char) : Bool :=
  c == '\n' || c == '\r' || c.toNat == 0x85 || c.toNat == 0x2028 || c.toNat == 0x2029

/-- Whether there is a line end. -/
def atBreak : Option Char → Bool
  | some c => isBreak c
  | none => false

/-- Whether there is a line end or the end of the text. -/
def atLineEnd : Option Char → Bool
  | some c => isBreak c
  | none => true

/-- Whether there is a space, a line end or the end of the text. -/
def atSpaceEnd (c? : Option Char) : Bool :=
  c? == some ' ' || atLineEnd c?

/-- Whether there is a space, a tab, a line end or the end of the text. -/
def atBlankEnd (c? : Option Char) : Bool :=
  c? == some '\t' || atSpaceEnd c?

/-! ## Reading -/

namespace Cursor

/-- The place after one character; a carriage return and a line feed end a line together. -/
def next (c : Cursor) : Cursor :=
  match c.rest with
  | [] => c
  | ch :: rest =>
    if isBreak ch && !(ch == '\r' && rest.head? == some '\n') then
      { rest, index := c.index + 1, line := c.line + 1, column := 0 }
    else { rest, index := c.index + 1, line := c.line, column := if ch == '\ufeff' then c.column
      else c.column + 1 }

/-- The place after several characters. -/
def forward : Nat → Cursor → Cursor
  | 0, c => c
  | n + 1, c => forward n c.next

end Cursor

/-- The character at a distance. -/
def peek (distance : Nat) : Scanner (Option Char) := do
  return (← get).rest[distance]?

/-- Passes characters. -/
def pass (n : Nat) : Scanner Unit :=
  modify (Cursor.forward n)

/-- Finds a problem at the place at hand. -/
def problem {α : Type} (message : String) : Scanner α := do
  let c ← get
  throw ⟨message, c.line, c.column⟩

/-- Reads characters as long as they pass a test. -/
def readWhile (p : Char → Bool) : Scanner (List Char) := do
  let found := (← get).rest.takeWhile p
  pass found.length
  return found

/-- Reads up to the end of the line. -/
def readLine : Scanner (List Char) :=
  readWhile fun c => !isBreak c

/-- Reads the end of a line, if there is one: as a line feed, unless it is one of the separators
beyond ASCII. -/
def readBreak : Scanner (List Char) := do
  match (← get).rest with
  | '\r' :: '\n' :: _ => pass 2; return ['\n']
  | c :: _ =>
    if c.toNat == 0x2028 || c.toNat == 0x2029 then pass 1; return [c]
    else if isBreak c then pass 1; return ['\n']
    else return []
  | [] => return []

/-- Repeats a step until it says that it is done, and at most so many times. -/
def repeatUpTo {α : Type} (step : α → Scanner (α × Bool)) : Nat → α → Scanner α
  | 0, a => return a
  | limit + 1, a => do
    let (b, done) ← step a
    if done then return b else repeatUpTo step limit b

/-- Repeats a step until it says that it is done. A step that is not done has read something, so
there are no more of them than characters. -/
def repeating {α : Type} (start : α) (step : α → Scanner (α × Bool)) : Scanner α := do
  repeatUpTo step ((← get).rest.length + 1) start

/-- Whether a mark for the start or the end of a document is at hand. -/
def atDocumentMark : Scanner Bool := do
  match (← get).rest with
  | '-' :: '-' :: '-' :: rest => return atBlankEnd rest.head?
  | '.' :: '.' :: '.' :: rest => return atBlankEnd rest.head?
  | _ => return false

end ShapeLint.Yaml
