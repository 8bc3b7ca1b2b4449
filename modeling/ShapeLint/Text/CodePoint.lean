/-!
# Code points

The value of a Java string literal is a sequence of code points. An escape can name half of a
surrogate pair on its own, which no character can hold, so decoded literals are kept as code points;
everything else in the linter is ordinary text.
-/

namespace ShapeLint.Text

/-- A Unicode code point, surrogates included. -/
abbrev CodePoint := Fin 0x110000

/-- The code point of a character. No character is a surrogate, so not every code point is one of
these. -/
def CodePoint.ofChar (c : Char) : CodePoint :=
  ⟨c.toNat, by
    have h := c.valid
    simp only [UInt32.isValidChar, Nat.isValidChar] at h
    change c.val.toNat < 0x110000
    omega⟩

/-- Whether a code point is one half of a surrogate pair, and so no character. -/
def CodePoint.isSurrogate (c : CodePoint) : Bool :=
  0xD800 ≤ c.val && c.val ≤ 0xDFFF

/-- The code points of a text. -/
def codePoints (s : List Char) : List CodePoint :=
  s.map CodePoint.ofChar

/-- The text of a sequence of code points, if none of them is a surrogate. -/
def ofCodePoints? (s : List CodePoint) : Option (List Char) :=
  if s.any CodePoint.isSurrogate then none else some (s.map fun c => Char.ofNat c.val)

end ShapeLint.Text
