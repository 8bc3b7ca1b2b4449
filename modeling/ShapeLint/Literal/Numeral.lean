import ShapeLint.Double.Basic
import ShapeLint.Text.Blank
import ShapeLint.Text.Digit

/-!
# Numerals

The value of an integer or floating point literal. Underscores between digits mean nothing. Digits
may be those of any script. An integer is hexadecimal after `0x`, binary after `0b`, octal after
another leading zero and decimal otherwise; a final `l` or `L` only says that it is long. A floating
point literal is hexadecimal after `0x` and decimal otherwise, with a final `f` or `d` of no effect.
-/

namespace ShapeLint.Literal

open ShapeLint.Text (digitValue? isBlank trimEnd)

/-- Why a text is not a numeral: it is not written as one, or the number is too large for a
double. -/
inductive NumeralError where
  | malformed
  | overflow
deriving DecidableEq, Inhabited

/-- The most digits that a decimal integer may have. There is no such limit in other radices. -/
def maxDecimalDigits : Nat := 4300

/-- A text without its underscores. -/
def withoutUnderscores (s : List Char) : List Char :=
  s.filter (· != '_')

/-- The value of a digit in a radix up to sixteen: decimal digits of any script and letters of
either case. -/
def radixDigit? (radix : Nat) (c : Char) : Option Nat :=
  let value? :=
    match digitValue? c with
    | some d => some d
    | none =>
      if 'a' ≤ c ∧ c ≤ 'f' then some (c.toNat - 'a'.toNat + 10)
      else if 'A' ≤ c ∧ c ≤ 'F' then some (c.toNat - 'A'.toNat + 10)
      else none
  value?.filter (· < radix)

/-- The number written by digits in a radix, after a number read so far. -/
def readDigits (radix : Nat) (acc : Nat) : List Char → Option Nat
  | [] => some acc
  | c :: rest =>
    match radixDigit? radix c with
    | some d => readDigits radix (acc * radix + d) rest
    | none => none

/-- The number written by one or more digits in a radix. -/
def digitsValue? (radix : Nat) (s : List Char) : Option Nat :=
  if s.isEmpty then none else readDigits radix 0 s

/-- White space around a numeral: what separates tokens. -/
def trimBlank (s : List Char) : List Char :=
  trimEnd isBlank (s.dropWhile isBlank)

/-- A sign in front of a numeral, and the rest. -/
def splitSign : List Char → Bool × List Char
  | '-' :: rest => (true, rest)
  | '+' :: rest => (false, rest)
  | s => (false, s)

/-- A radix mark (such as `0x`) in front of digits taken away. -/
def dropMark (radix : Nat) : List Char → List Char
  | '0' :: c :: rest =>
    let marked := (radix == 16 && (c == 'x' || c == 'X')) || (radix == 8 && (c == 'o' || c == 'O'))
      || (radix == 2 && (c == 'b' || c == 'B'))
    if marked then rest else '0' :: c :: rest
  | s => s

/-- A signed integer in a radix, with white space around it and, unless it is decimal, a radix mark.
One with too many decimal digits has no value. -/
def readInteger? (radix : Nat) (s : List Char) : Option Int :=
  let (negative, body) := splitSign (trimBlank s)
  let digits := dropMark radix body
  if radix = 10 ∧ maxDecimalDigits < digits.length then none
  else (digitsValue? radix digits).map fun n => if negative then -(n : Int) else n

/-- Whether an integer literal is a long one. -/
def isLong (s : List Char) : Bool :=
  match s.getLast? with
  | some c => c == 'l' || c == 'L'
  | none => false

/-- The value of an integer literal. A zero in front of other digits makes it octal, and so a letter
that marks an octal one is not read here. -/
def integer? (s : List Char) : Option Int :=
  let digits := trimEnd (fun c => c == 'l' || c == 'L') (withoutUnderscores s)
  match digits with
  | '0' :: c :: rest =>
    if c == 'x' || c == 'X' then readInteger? 16 rest
    else if c == 'b' || c == 'B' then readInteger? 2 rest
    else readInteger? 8 (c :: rest)
  | _ => readInteger? 10 digits

/-! ## Floating point -/

/-- A text in lower case, as far as ASCII letters go. -/
def lower (s : List Char) : List Char :=
  s.map Char.toLower

/-- A decimal exponent: nothing, or `e`, a sign and digits. -/
def exponent? : List Char → Option Int
  | [] => some 0
  | c :: rest =>
    if c == 'e' || c == 'E' then
      let (negative, digits) := splitSign rest
      (digitsValue? 10 digits).map fun n => if negative then -(n : Int) else n
    else none

/-- Digits at the front of a text, and the rest. -/
def spanDigits (radix : Nat) (s : List Char) : List Char × List Char :=
  s.span fun c => (radixDigit? radix c).isSome

/-- The part of a numeral before its exponent: the digits before and after the point, and the rest.
-/
def splitPoint (radix : Nat) (s : List Char) : List Char × List Char × List Char :=
  let (whole, rest) := spanDigits radix s
  match rest with
  | '.' :: rest =>
    let (fraction, rest) := spanDigits radix rest
    (whole, fraction, rest)
  | rest => (whole, [], rest)

/-- An unsigned decimal number with at least one digit, an optional point and an optional exponent.
The digits on both sides of the point are read as one number. -/
def unsignedDecimal? (s : List Char) : Option Double :=
  let (whole, fraction, rest) := splitPoint 10 s
  if whole.isEmpty && fraction.isEmpty then none
  else
    match readDigits 10 0 (whole ++ fraction), exponent? rest with
    | some n, some e => some (Double.ofDecimal n (e - fraction.length))
    | _, _ => none

/-- A decimal number, an infinity or the word for no number, with a sign and white space around it.
-/
def decimal? (s : List Char) : Option Double :=
  let (negative, body) := splitSign (trimBlank s)
  let word := lower body
  let value? :=
    if word = "inf".toList ∨ word = "infinity".toList then some (.infinite false)
    else if word = "nan".toList then some .nan
    else unsignedDecimal? body
  value?.map fun d => if negative then d.withSign true else d

/-- The ASCII hexadecimal digits at the front of a text, and the rest. -/
def spanHex (s : List Char) : List Char × List Char :=
  s.span fun c => c.toNat < 0x80 && (radixDigit? 16 c).isSome

/-- A binary exponent: nothing, or `p`, a sign and decimal digits. -/
def binaryExponent? : List Char → Option Int
  | [] => some 0
  | c :: rest =>
    if c == 'p' || c == 'P' then
      let (negative, digits) := splitSign rest
      if digits.all fun d => '0' ≤ d && d ≤ '9' then
        (digitsValue? 10 digits).map fun n => if negative then -(n : Int) else n
      else none
    else none

/-- A hexadecimal number after its `0x`: digits, an optional point and an optional binary exponent.
Unlike a decimal one it may be too large. -/
def hexadecimal? (s : List Char) : Except NumeralError Double :=
  let (whole, rest) := spanHex (trimEnd (fun c => c.toNat < 0x80 && isBlank c) s)
  let (fraction, rest) :=
    match rest with
    | '.' :: rest => spanHex rest
    | rest => ([], rest)
  if whole.isEmpty && fraction.isEmpty then .error .malformed
  else
    match readDigits 16 0 (whole ++ fraction), binaryExponent? rest with
    | some n, some e =>
      match Double.ofBinary? n (e - 4 * fraction.length) with
      | some d => .ok d
      | none => .error .overflow
    | _, _ => .error .malformed

/-- Whether a character is a floating point suffix. -/
def isFloatSuffix (c : Char) : Bool :=
  c == 'f' || c == 'F' || c == 'd' || c == 'D'

/-- The value of a floating point literal. A hexadecimal one loses one suffix, a decimal one all at
its end. -/
def floating (s : List Char) : Except NumeralError Double :=
  match withoutUnderscores s with
  | '0' :: c :: rest =>
    if c == 'x' || c == 'X' then
      let body := c :: rest
      let body := if (body.getLast?.map isFloatSuffix).getD false then body.dropLast else body
      hexadecimal? (body.drop 1)
    else
      match decimal? (trimEnd isFloatSuffix ('0' :: c :: rest)) with
      | some d => .ok d
      | none => .error .malformed
  | digits =>
    match decimal? (trimEnd isFloatSuffix digits) with
    | some d => .ok d
    | none => .error .malformed

end ShapeLint.Literal
