import ShapeLint.Span
import ShapeLint.Text.Utf8

/-!
# Java sources

A source is a sequence of bytes. Lines end at line feeds, and columns count bytes, both from one.
-/

namespace ShapeLint.Java

/-- The bytes of a source. They need not be text. -/
structure Source where
  bytes : List UInt8
deriving Inhabited

namespace Source

/-- The source with a text. -/
def ofString (s : String) : Source :=
  ⟨s.toUTF8.toList⟩

/-- The byte that ends a line. -/
def feed : UInt8 := 10

/-- The bytes between two offsets. -/
def slice (s : Source) (start stop : Nat) : List UInt8 :=
  (s.bytes.drop start).take (stop - start)

/-- The text between two offsets; bytes that are no text are replaced. -/
def textBetween (s : Source) (start stop : Nat) : List Char :=
  Text.decodeLossy (s.slice start stop)

/-- The whole text. -/
def text (s : Source) : List Char :=
  Text.decodeLossy s.bytes

/-- The line and the column, counted from zero, that follow after bytes. Beyond the end, columns are
counted on. -/
def advance : List UInt8 → Nat → Nat → Nat → Nat × Nat
  | _, 0, row, column => (row, column)
  | [], n + 1, row, column => (row, column + n + 1)
  | b :: bytes, n + 1, row, column =>
    if b = feed then advance bytes n (row + 1) 0 else advance bytes n row (column + 1)

/-- The position of an offset. -/
def point (s : Source) (offset : Nat) : Text.Position :=
  let (row, column) := advance s.bytes offset 0 0
  ⟨row + 1, column + 1⟩

/-- The span between two offsets. -/
def span (s : Source) (start stop : Nat) : Span :=
  Span.between (s.point start) (s.point stop)

end Source

end ShapeLint.Java
