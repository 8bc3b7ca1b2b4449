/-!
# Double precision numbers

A floating point literal denotes a double: an integer of at most 53 bits times a power of two, an
infinity, or no number at all. The type keeps the integer and the power apart, so that every
operation on it is exact arithmetic on naturals and can be reasoned about.

`Double.ofRatio` rounds a ratio of naturals to the nearest double, a tie to the one with the even
integer, and `Double.toBits` and `Double.ofBits` give the interchange format.
-/

namespace ShapeLint

/-- A double precision number: no number, an infinity, or a number with a sign. -/
inductive Double where
  | nan
  | infinite (negative : Bool)
  /-- The number `mantissa * 2 ^ exponent`, with a sign. -/
  | finite (negative : Bool) (mantissa : Nat) (exponent : Int)
deriving DecidableEq, Inhabited

namespace Double

/-- The least exponent of a double. -/
def minExponent : Int := -1074

/-- The greatest exponent of a double. -/
def maxExponent : Int := 971

/-- The positive zero. -/
def zero : Double := .finite false 0 minExponent

/-- A number with its sign changed on demand. -/
def withSign (negative : Bool) : Double → Double
  | .nan => .nan
  | .infinite _ => .infinite negative
  | .finite _ m e => .finite negative m e

/-- A power of two. -/
abbrev twoPow (n : Nat) : Nat := Nat.pow 2 n

/-- A power of ten. -/
abbrev tenPow (n : Nat) : Nat := Nat.pow 10 n

/-- The quotient of two naturals to the nearest natural, a tie to the even one. -/
def roundDiv (num den : Nat) : Nat :=
  let q := num / den
  let r := num % den
  if 2 * r < den then q
  else if den < 2 * r then q + 1
  else if q % 2 = 0 then q else q + 1

/-- A ratio of naturals times `2 ^ -exponent`, rounded to a natural. -/
def roundAt (num den : Nat) (exponent : Int) : Nat :=
  if 0 ≤ exponent then roundDiv num (den * twoPow exponent.toNat)
  else roundDiv (num * twoPow (-exponent).toNat) den

/-- The exponent with which a positive ratio has an integer part of 53 bits, but never below the
least one. It is guessed from the lengths of both numbers, and the guess is too large by one at
most. -/
def exponentFor (num den : Nat) : Int :=
  let guess : Int := (Nat.log2 num : Int) - (Nat.log2 den : Int) - 52
  let below : Bool :=
    if 0 ≤ guess then num < den * twoPow (52 + guess.toNat)
    else num * twoPow (-guess).toNat < den * twoPow 52
  max minExponent (if below then guess - 1 else guess)

/-- The double with a mantissa of at most 53 bits, or `2 ^ 53`, and an exponent that fits it.
Rounding up may lead to the latter, and then the exponent is one more. -/
def pack (mantissa : Nat) (exponent : Int) : Double :=
  let (m, e) := if mantissa = twoPow 53 then (twoPow 52, exponent + 1) else (mantissa, exponent)
  if maxExponent < e then .infinite false else .finite false m e

/-- The double nearest to the ratio of two naturals, which is an infinity where it is too large. -/
def ofRatio (num den : Nat) : Double :=
  if num = 0 ∨ den = 0 then zero
  else
    let e := exponentFor num den
    pack (roundAt num den e) e

/-- The double nearest to `digits * 10 ^ exponent`. A number far outside the range is settled by its
count of digits, so that no huge power is formed. -/
def ofDecimal (digits : Nat) (exponent : Int) : Double :=
  let size : Int := (Nat.toDigits 10 digits).length + exponent
  if digits = 0 then zero
  else if 400 < size then .infinite false
  else if size < -400 then zero
  else if 0 ≤ exponent then ofRatio (digits * tenPow exponent.toNat) 1
  else ofRatio digits (tenPow (-exponent).toNat)

/-- The double nearest to `digits * 2 ^ exponent`, or nothing if it would be infinite. -/
def ofBinary? (digits : Nat) (exponent : Int) : Option Double :=
  let size : Int := Nat.log2 digits + exponent
  if digits = 0 then some zero
  else if 1100 < size then none
  else if size < -1200 then some zero
  else
    let d := if 0 ≤ exponent then ofRatio (digits * twoPow exponent.toNat) 1
      else ofRatio digits (twoPow (-exponent).toNat)
    match d with
    | .infinite _ => none
    | d => some d

/-- The interchange format: sign, eleven bits of exponent, 52 bits of fraction. -/
def toBits : Double → Nat
  | .nan => 0x7FF8000000000000
  | .infinite negative => (if negative then twoPow 63 else 0) + 0x7FF0000000000000
  | .finite negative m e =>
    (if negative then twoPow 63 else 0) + (if m < twoPow 52 then m
      else (e + 1075).toNat * twoPow 52 + (m - twoPow 52))

/-- The double with an interchange format. -/
def ofBits (bits : Nat) : Double :=
  let negative : Bool := bits / twoPow 63 % 2 == 1
  let field : Nat := bits / twoPow 52 % twoPow 11
  let fraction : Nat := bits % twoPow 52
  if field = 0 then .finite negative fraction minExponent
  else if field = 2047 then if fraction = 0 then .infinite negative else .nan
  else .finite negative (twoPow 52 + fraction) ((field : Int) - 1075)

/-- The signed mantissa. -/
def signed (negative : Bool) (m : Nat) : Int :=
  if negative then -(m : Int) else m

/-- Whether `a * 2 ^ e` and `b * 2 ^ f` are the same number. Both are brought to the lower of the
two exponents. -/
def sameScaled (a : Int) (e : Int) (b : Int) (f : Int) : Bool :=
  let low := min e f
  a * twoPow (e - low).toNat == b * twoPow (f - low).toNat

/-- Numeric equality: the two zeros are equal, and what is no number equals nothing. -/
def same : Double → Double → Bool
  | .finite n m e, .finite n' m' e' => sameScaled (signed n m) e (signed n' m') e'
  | .infinite n, .infinite n' => n == n'
  | _, _ => false

/-- Whether a double is the given integer. -/
def sameInt : Double → Int → Bool
  | .finite n m e, i => sameScaled (signed n m) e i 0
  | _, _ => false

end Double

end ShapeLint
