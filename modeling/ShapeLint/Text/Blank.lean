/-!
# Blank characters

Two sets of white space are in use. `isBlank` is the set that separates the tokens of a pattern and
of Java text. `isSpace` is the wider set that is trimmed from the ends of a text and that ends a
token in a message: it also holds the four information separators.
-/

namespace ShapeLint.Text

/-- Unicode white space, which separates tokens. -/
def isBlank (c : Char) : Bool :=
  let n := c.toNat
  (0x9 ≤ n && n ≤ 0xD) || n == 0x20 || n == 0x85 || n == 0xA0 || n == 0x1680 ||
    (0x2000 ≤ n && n ≤ 0x200A)
    || n == 0x2028 || n == 0x2029 || n == 0x202F || n == 0x205F || n == 0x3000

/-- White space or an information separator, which is trimmed from the ends of a text. -/
def isSpace (c : Char) : Bool :=
  isBlank c || (0x1C ≤ c.toNat && c.toNat ≤ 0x1F)

/-- A space or a tab, of which indentation is made. -/
def isIndent (c : Char) : Bool :=
  c == ' ' || c == '\t'

/-- A text without the characters of a class at its end. -/
def trimEnd (p : Char → Bool) (s : List Char) : List Char :=
  (s.reverse.dropWhile p).reverse

/-- A text without the spaces at its two ends. -/
def trim (s : List Char) : List Char :=
  trimEnd isSpace (s.dropWhile isSpace)

end ShapeLint.Text
