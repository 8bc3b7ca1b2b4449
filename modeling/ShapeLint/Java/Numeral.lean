/-!
# The extent of Java numerals

How far a numeral reaches at the start of a text, and of which type it is. Of all the forms that
fit, the one that reaches furthest counts. Digits may be grouped by single underscores, and the
later groups of a decimal integer by any number of them. A numeral in octal starts with a zero, and
a decimal integer otherwise does not, so that `08` is two numerals.
-/

namespace ShapeLint.Java.Numeral

/-- Whether a character is a decimal digit. -/
def isDecimal (c : Char) : Bool := c.isDigit

/-- Whether a character is a digit in hexadecimal. -/
def isHex (c : Char) : Bool :=
  c.isDigit || ('a' ≤ c && c ≤ 'f') || ('A' ≤ c && c ≤ 'F')

/-- Whether a character is a digit in octal. -/
def isOctal (c : Char) : Bool := '0' ≤ c && c ≤ '7'

/-- Whether a character is a digit in binary. -/
def isBinary (c : Char) : Bool := c == '0' || c == '1'

/-- A form: how many characters of a text it takes, if it fits. It always takes the same number from
the same text, and there is no going back. -/
abbrev Form := List Char → Option Nat

namespace Form

/-- One character of a set. -/
def one (p : Char → Bool) : Form
  | c :: _ => if p c then some 1 else none
  | [] => none

/-- One form after another. -/
def andThen (f g : Form) : Form := fun s => do
  let n ← f s
  let m ← g (s.drop n)
  return n + m

/-- A form that may be left out. -/
def optional (f : Form) : Form := fun s => some ((f s).getD 0)

/-- Whichever of two forms reaches further. -/
def longest (f g : Form) : Form := fun s =>
  match f s, g s with
  | some n, some m => some (max n m)
  | some n, none => some n
  | none, m => m

/-- Several forms one after another. -/
def all : List Form → Form
  | [] => fun _ => some 0
  | f :: fs => f.andThen (all fs)

end Form

open Form

/-- How many characters a run of digits takes whose groups are divided by single underscores. An
underscore with no digit behind it is not taken. -/
def groupedLength (p : Char → Bool) : List Char → Nat
  | '_' :: _ => 0
  | c :: '_' :: d :: s => if p c then if p d then 2 + groupedLength p (d :: s) else 1 else 0
  | c :: s => if p c then 1 + groupedLength p s else 0
  | [] => 0

/-- A form that takes at least one character. -/
def positive (length : List Char → Nat) : Form := fun s =>
  match length s with
  | 0 => none
  | n => some n

/-- Digits in groups. -/
def grouped (p : Char → Bool) : Form := positive (groupedLength p)

/-- How many characters a run of decimal digits takes whose groups are divided by any number of
underscores. -/
def looseLength (s : List Char) : Nat :=
  let run := s.takeWhile fun c => isDecimal c || c == '_'
  match s with
  | c :: _ => if isDecimal c then (run.reverse.dropWhile (· == '_')).length else 0
  | [] => 0

/-- A decimal integer without its suffix: a zero, or digits that start with none. Behind a zero no
further digit is taken. -/
def decimal : Form
  | '0' :: _ => some 1
  | s => all [one isDecimal, optional (all [optional (one (· == '_')), positive looseLength])] s

/-- The suffix of a long integer. -/
def longSuffix : Form := optional (one fun c => c == 'l' || c == 'L')

/-- The suffix of a floating point number. -/
def floatSuffix : Form := one fun c => c == 'f' || c == 'F' || c == 'd' || c == 'D'

/-- An exponent after one of two marks. -/
def exponent (lower upper : Char) : Form :=
  all [one fun c => c == lower || c == upper, optional (one fun c => c == '+' || c == '-'),
    grouped isDecimal]

/-- A zero and one of two letters. -/
def radix (lower upper : Char) : Form :=
  all [one (· == '0'), one fun c => c == lower || c == upper]

/-- A point. -/
def point : Form := one (· == '.')

/-- A decimal floating point number: it has a point, an exponent or a suffix. -/
def decimalFloat : Form :=
  let tail := all [optional (exponent 'e' 'E'), optional floatSuffix]
  longest (all [grouped isDecimal, point, optional (grouped isDecimal), tail])
    (longest (all [point, grouped isDecimal, tail])
      (longest (all [decimal, exponent 'e' 'E', optional floatSuffix])
        (all [decimal, optional (exponent 'e' 'E'), floatSuffix])))

/-- A hexadecimal floating point number: it has a binary exponent. -/
def hexFloat : Form :=
  all [radix 'x' 'X',
    longest (all [grouped isHex, optional point])
      (all [optional (grouped isHex), point, grouped isHex]),
    exponent 'p' 'P', optional floatSuffix]

/-- The types of numerals with their forms. -/
def forms : List (String × Form) :=
  [("decimal_integer_literal", all [decimal, longSuffix]),
    ("hex_integer_literal", all [radix 'x' 'X', grouped isHex, longSuffix]),
    ("octal_integer_literal",
      longest (all [one (· == '0'), grouped isOctal, longSuffix])
        (all [radix 'o' 'O', grouped isOctal, longSuffix])),
    ("binary_integer_literal", all [radix 'b' 'B', grouped isBinary, longSuffix]),
    ("decimal_floating_point_literal", decimalFloat),
    ("hex_floating_point_literal", hexFloat)]

/-- The type and the length of the numeral at the start of a text. Of two forms that reach equally
far, the first one in the list counts. -/
def read? (s : List Char) : Option (String × Nat) :=
  forms.foldl
    (fun best (type, form) =>
      match best, form s with
      | best, none => best
      | none, some n => some (type, n)
      | some (t, m), some n => if m < n then some (type, n) else some (t, m))
    none

end ShapeLint.Java.Numeral
