import ShapeLint.Double.Basic

/-!
# Shortest decimal text of a double

A double is shown with the fewest decimal digits that read back as the same double, and of those
texts with the one nearest to it. `Double.shortest` finds the digits: for one digit, two digits and
so on it looks at the two neighbours of the number on that decimal grid and takes the first that
lies in the interval of reals that round to the double. `Double.text` lays the digits out:
positionally from `0.0001` up to below `10 ^ 16`, and with an exponent of at least two digits
elsewhere.
-/

namespace ShapeLint.Double

/-- The interval of numbers that round to a positive double, scaled so that all three are naturals:
the double is `value / scale`, and its neighbours' midpoints are `low / scale` and `high / scale`.
-/
structure Rounding where
  value : Nat
  low : Nat
  high : Nat
  scale : Nat
  /-- Whether the midpoints themselves round to the double, which they do if its mantissa is
  even. -/
  closed : Bool

/-- The interval that rounds to `m * 2 ^ e`. Below a power of two the gap is half as wide. -/
def rounding (m : Nat) (e : Int) : Rounding :=
  let up := if 0 ≤ e then twoPow e.toNat else 1
  let scale := if 0 ≤ e then 4 else 4 * twoPow (-e).toNat
  let narrow := m = twoPow 52 ∧ minExponent < e
  { value := 4 * m * up
    low := (4 * m - if narrow then 1 else 2) * up
    high := (4 * m + 2) * up
    scale
    closed := m % 2 = 0 }

/-- Whether `n * 10 ^ k` lies in the interval. -/
def Rounding.contains (r : Rounding) (n : Nat) (k : Int) : Bool :=
  let x := if 0 ≤ k then n * tenPow k.toNat * r.scale else n * r.scale
  let p := if 0 ≤ k then 1 else tenPow (-k).toNat
  if r.closed then r.low * p ≤ x && x ≤ r.high * p else r.low * p < x && x < r.high * p

/-- The number at the grid `10 ^ k`, rounded down, and whether the next one up is nearer; a tie goes
to the even one. -/
def Rounding.onGrid (r : Rounding) (k : Int) : Nat × Bool :=
  let num := if 0 ≤ k then r.value else r.value * tenPow (-k).toNat
  let den := if 0 ≤ k then r.scale * tenPow k.toNat else r.scale
  let q := num / den
  let rest := num % den
  (q, den < 2 * rest || (den == 2 * rest && q % 2 == 1))

/-- The number of decimal places before the point: the least `p` with the value below `10 ^ p`. The
search starts at an estimate that is never too high by more than one step. -/
def Rounding.magnitude (r : Rounding) (guess : Int) : Nat → Int
  | 0 => guess
  | fuel + 1 =>
    let below :=
      if 0 ≤ guess then r.value < r.scale * tenPow guess.toNat
      else r.value * tenPow (-guess).toNat < r.scale
    if below then guess else r.magnitude (guess + 1) fuel

/-- The first grid with a hit, from the coarsest on: the digits and the power of ten. -/
def Rounding.search (r : Rounding) (places : Int) (size : Nat) : Nat → Nat × Int
  | 0 => ((r.onGrid (places - size)).1, places - size)
  | fuel + 1 =>
    let k := places - size
    let (q, up) := r.onGrid k
    let near := if up then q + 1 else q
    let far := if up then q else q + 1
    if r.contains near k then (near, k)
    else if r.contains far k then (far, k)
    else r.search places (size + 1) fuel

/-- The fewest digits that read back as `m * 2 ^ e`, and the power of ten they are counted in. -/
def shortest (m : Nat) (e : Int) : Nat × Int :=
  let r := rounding m e
  let guess : Int := ((Nat.log2 m : Int) + e) * 30103 / 100000 - 1
  r.search (r.magnitude guess 8) 1 17

/-- Digits without the zeros at their end, and the power of ten that goes with them. -/
def trimZeros : Nat → Nat → Int → Nat × Int
  | 0, n, k => (n, k)
  | fuel + 1, n, k => if n ≠ 0 ∧ n % 10 = 0 then trimZeros fuel (n / 10) (k + 1) else (n, k)

/-- The digits of `n * 10 ^ k` with a point among them, or with an exponent where the point would
stand more than four places left or more than sixteen places right of the first digit. -/
def layout (n : Nat) (k : Int) : List Char :=
  let digits := Nat.toDigits 10 n
  let point : Int := digits.length + k
  if -4 < point ∧ point ≤ 16 then
    if point ≤ 0 then '0' :: '.' :: List.replicate (-point).toNat '0' ++ digits
    else if digits.length ≤ point.toNat then
      digits ++ List.replicate (point.toNat - digits.length) '0' ++ ['.', '0']
    else digits.take point.toNat ++ '.' :: digits.drop point.toNat
  else
    let power := point - 1
    let size := Nat.toDigits 10 power.natAbs
    let fraction := if digits.length = 1 then [] else '.' :: digits.drop 1
    digits.take 1 ++ fraction ++ 'e' :: (if power < 0 then '-' else '+')
      :: (List.replicate (2 - size.length) '0' ++ size)

/-- The text of a double. -/
def text : Double → String
  | .nan => "nan"
  | .infinite negative => if negative then "-inf" else "inf"
  | .finite negative m e =>
    let body :=
      if m = 0 then ['0', '.', '0']
      else
        let (n, k) := shortest m e
        let (n, k) := trimZeros 20 n k
        layout n k
    String.ofList (if negative then '-' :: body else body)

end ShapeLint.Double
