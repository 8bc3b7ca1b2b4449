import ShapeLint.Room

/-!
# Readers with ordered choice

A reader takes what is left of a text and either reads something from its front or fails. Choice is
ordered: the second alternative is tried only where the first fails, and what a repetition or an
option has read is never given back.

The error of a text that cannot be read is reported at the furthest place where a rule of the
grammar failed. So a reader also carries a mark: the least number of characters that were left where
a rule failed so far. Only rules wrapped in `Reader.rule` move the mark; the symbols and words
inside them do not.

A text can also be nested too deeply: a reader that goes down needs room for it, and where there is
none that ends reading at once, whatever alternatives there are.
-/

namespace ShapeLint.Grammar

/-- What becomes of reading: something was read and so much of the text is left, nothing was read,
or the text is nested too deeply. In the first two cases the mark stands there. -/
inductive Reply (α : Type) where
  | ok (value : α) (rest : List Char) (mark : Nat)
  | fail (mark : Nat)
  | deep

/-- A reader: given the mark and what is left of the text, what becomes of reading. -/
def Reader (α : Type) := Nat → List Char → Reply α

namespace Reader

variable {α β : Type}

/-- Goes on after a reader with what it has read. If the second fails, all of it fails, and nothing
of what the first has read is kept but the mark. -/
def andThen (p : Reader α) (f : α → Reader β) : Reader β := fun mark s =>
  match p mark s with
  | .ok a rest mark => f a mark rest
  | .fail mark => .fail mark
  | .deep => .deep

instance : Monad Reader where
  pure a := fun mark s => .ok a s mark
  bind := andThen

/-- The second reader where the first fails. That the text is too deep is no failure that another
alternative could make good. -/
def orElse (p q : Reader α) : Reader α := fun mark s =>
  match p mark s with
  | .fail mark => q mark s
  | reply => reply

/-- Reads something or nothing. -/
def optional (p : Reader α) : Reader (Option α) := fun mark s =>
  match p mark s with
  | .ok a rest mark => .ok (some a) rest mark
  | .fail mark => .ok none s mark
  | .deep => .deep

/-- Reads as many items as there are. An item that reads nothing ends the repetition, which
otherwise would not come to an end. -/
def many (p : Reader α) (mark : Nat) (s : List Char) : Reply (List α) :=
  match p mark s with
  | .deep => .deep
  | .fail mark => .ok [] s mark
  | .ok a rest mark =>
    if rest.length < s.length then
      match many p mark rest with
      | .ok as rest mark => .ok (a :: as) rest mark
      | reply => reply
    else .ok [a] rest mark
termination_by s.length

/-- Reads nothing, and only where another reader fails. The mark moves as that reader moves it,
although nothing is read. -/
def butNot (p : Reader α) : Reader Unit := fun mark s =>
  match p mark s with
  | .ok _ _ mark => .fail mark
  | .fail mark => .ok () s mark
  | .deep => .deep

/-- Reads where there is room for it. -/
def within {Step : Type} (room : Room Step) (p : Reader α) : Reader α :=
  match room with
  | .none => fun _ _ => .deep
  | .more _ => p

/-- A rule of the grammar: where it fails, the mark moves to its start if that is further on. -/
def rule (p : Reader α) : Reader α := fun mark s =>
  match p mark s with
  | .fail mark => .fail (min mark s.length)
  | reply => reply

/-- Reads by a function that gives what is read and what is left. -/
def lexeme (f : List Char → Option (α × List Char)) : Reader α := fun mark s =>
  match f s with
  | some (a, rest) => .ok a rest mark
  | none => .fail mark

/-- The number of characters that are left, which is how readers tell where they are. -/
def left : Reader Nat := fun mark s =>
  .ok s.length s mark

/-- What is left after a word at the front of a text. -/
def afterWord? : List Char → List Char → Option (List Char)
  | [], s => some s
  | _ :: _, [] => none
  | c :: word, d :: s => if c = d then afterWord? word s else none

/-- Reads a word. -/
def word (w : String) : Reader Unit :=
  lexeme fun s => (afterWord? w.toList s).map ((), ·)

/-- Reads the first of several alternatives that is there. -/
def firstOf : List (Reader α) → Reader α
  | [] => fun mark _ => .fail mark
  | p :: ps => orElse p (firstOf ps)

end Reader

end ShapeLint.Grammar
