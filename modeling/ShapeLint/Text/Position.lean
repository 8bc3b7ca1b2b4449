/-!
# Positions in a text

A position is a line and a column, both counted from one. Only a line feed ends a line here. The
column counts characters from the start of the line; an offset beyond the end of the text counts on
along the last line.
-/

namespace ShapeLint.Text

/-- A line and a column, counted from one. -/
structure Position where
  line : Nat
  column : Nat
deriving DecidableEq, Inhabited

/-- The part of a text after its last line feed. -/
def lastLine (s : List Char) : List Char :=
  (s.reverse.takeWhile (· != '\n')).reverse

/-- The position of an offset in a text. -/
def position (s : List Char) (offset : Nat) : Position :=
  let before := s.take offset
  { line := before.count '\n' + 1
    column := offset - before.length + (lastLine before).length + 1 }

end ShapeLint.Text
