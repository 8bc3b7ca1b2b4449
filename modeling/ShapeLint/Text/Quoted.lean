import ShapeLint.Text.Printable

/-!
# Quoted text in messages

A message quotes a text so that it can be told from the words around it: between single quotes, or
between double ones if the text holds a single quote and no double one. The backslash and the quote
in use are escaped, and so is every character that does not print.
-/

namespace ShapeLint.Text

/-- The hexadecimal digits of a number in lower case, filled with zeros to a width. -/
def hexDigits (width n : Nat) : List Char :=
  let digits := Nat.toDigits 16 n
  List.replicate (width - digits.length) '0' ++ digits

/-- How one code point stands between the given quotes. -/
def quotedPoint (quote : Char) (c : CodePoint) : List Char :=
  if c.val = quote.toNat ∨ c.val = 0x5C then ['\\', Char.ofNat c.val]
  else if c.val = 0xA then ['\\', 'n']
  else if c.val = 0xD then ['\\', 'r']
  else if c.val = 0x9 then ['\\', 't']
  else if c.isPrintable then [Char.ofNat c.val]
  else if c.val < 0x100 then '\\' :: 'x' :: hexDigits 2 c.val
  else if c.val < 0x10000 then '\\' :: 'u' :: hexDigits 4 c.val
  else '\\' :: 'U' :: hexDigits 8 c.val

/-- The quote that is put around a text. -/
def quoteFor (s : List CodePoint) : Char :=
  if s.any (·.val == '\''.toNat) && !s.any (·.val == '"'.toNat) then '"' else '\''

/-- A sequence of code points between quotes. -/
def quotedPoints (s : List CodePoint) : List Char :=
  let quote := quoteFor s
  quote :: s.flatMap (quotedPoint quote) ++ [quote]

/-- A text between quotes. -/
def quoted (s : String) : String :=
  String.ofList (quotedPoints (codePoints s.toList))

end ShapeLint.Text
