import ShapeLint.Text.Blank

/-!
# Simple type names

A pattern names a type by its simple name. The simple name of a written type is what stands after
its last dot, with generic arguments and anything in parentheses left away.
-/

namespace ShapeLint.Literal

open ShapeLint.Text (trim)

/-- The part of a text after its last dot, or all of it. -/
def afterLastDot (s : List Char) : List Char :=
  (s.reverse.takeWhile (· != '.')).reverse

/-- The simple name of a written type. It is cut before generic arguments first, so a dot inside of
these does not count. -/
def simpleTypeName (s : List Char) : List Char :=
  trim (afterLastDot ((s.takeWhile (· != '<')).takeWhile (· != '(')))

end ShapeLint.Literal
