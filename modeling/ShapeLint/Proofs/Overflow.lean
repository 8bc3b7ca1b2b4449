import Mathlib.Algebra.Group.Nat.Defs
import ShapeLint.Double.Basic

/-!
# Numbers that are too large for a double

The largest double is `(2 ^ 53 - 1) * 2 ^ 971`, and a number from half a step above it on is rounded
to an infinity. So a binary numeral has no value exactly if it is at least `(2 ^ 54 - 1) * 2 ^ 970`.
The exponent of a ratio is found by comparing it with powers of two; all that is needed of it is
between which two of them the ratio lies.
-/

namespace ShapeLint.Double

/-- The exponent of half of the step between the largest doubles. It is not unfolded, as powers of
two with a given exponent would be computed. -/
@[irreducible] def halfExponent : Nat := 970

lemma halfExponent_eq : halfExponent = 970 := by
  rw [halfExponent]

/-- Half of the step between the largest doubles. -/
def halfStep : Nat := 2 ^ halfExponent

/-- Whether `n * 2 ^ e` is rounded to an infinity: it lies at least half a step above the largest
double. Both sides are multiplied by a power of two where the exponent is negative. -/
def TooLarge (n : Nat) (e : Int) : Prop :=
  2 ^ (-e).toNat * halfStep * (2 ^ 54 - 1) ≤ n * 2 ^ e.toNat

instance (n : Nat) (e : Int) : Decidable (TooLarge n e) :=
  inferInstanceAs (Decidable (_ ≤ _))

/-! ## Exponents -/

section

variable {num den : Nat}

/-- A ratio is at least the power of two that the lengths of its two numbers differ by, but for
one. -/
lemma mul_two_pow_le (hnum : num ≠ 0) {k : Nat} (h : den.log2 + 1 + k ≤ num.log2) :
    den * 2 ^ k ≤ num :=
  calc den * 2 ^ k
    _ ≤ 2 ^ (den.log2 + 1) * 2 ^ k := Nat.mul_le_mul_right _ (Nat.le_of_lt Nat.lt_log2_self)
    _ = 2 ^ (den.log2 + 1 + k) := (Nat.pow_add ..).symm
    _ ≤ 2 ^ num.log2 := Nat.pow_le_pow_right (by omega) h
    _ ≤ num := Nat.log2_self_le hnum

/-- A ratio is less than the power of two that the lengths of its two numbers differ by and one
more. -/
lemma lt_mul_two_pow (hden : den ≠ 0) {k : Nat} (h : num.log2 + 1 ≤ den.log2 + k) :
    num < den * 2 ^ k :=
  calc num
    _ < 2 ^ (num.log2 + 1) := Nat.lt_log2_self
    _ ≤ 2 ^ (den.log2 + k) := Nat.pow_le_pow_right (by omega) h
    _ = 2 ^ den.log2 * 2 ^ k := Nat.pow_add ..
    _ ≤ den * 2 ^ k := Nat.mul_le_mul_right _ (Nat.log2_self_le hden)

/-- A ratio with an exponent that is not negative lies between two powers of two, which are 52 and
53 more than the exponent. -/
lemma bounds_of_exponentFor (hnum : num ≠ 0) (hden : den ≠ 0) {e : Nat}
    (h : exponentFor num den = e) :
    den * 2 ^ (52 + e) ≤ num ∧ num < den * 2 ^ (53 + e) := by
  unfold exponentFor minExponent twoPow at h
  dsimp only at h
  by_cases hguess : (0 : Int) ≤ num.log2 - den.log2 - 52
  · obtain ⟨k, hk⟩ := Int.eq_ofNat_of_zero_le hguess
    rw [hk, if_pos (Int.natCast_nonneg k), Int.toNat_natCast] at h
    -- The exponent is guessed from the lengths of the two numbers, and is one less if the guess is
    -- too large.
    by_cases hbelow : num < den * Nat.pow 2 (52 + k)
    · rw [if_pos (decide_eq_true hbelow)] at h
      have he : 52 + k = 53 + e := by omega
      exact ⟨mul_two_pow_le hnum (by omega), he ▸ hbelow⟩
    · rw [if_neg (by simpa using hbelow)] at h
      have he : k = e := by omega
      exact ⟨he ▸ Nat.le_of_not_lt hbelow, lt_mul_two_pow hden (by omega)⟩
  · exfalso
    split at h <;> omega

/-- A ratio with a negative exponent is small, far below the largest double. -/
lemma lt_of_exponentFor_neg (hden : den ≠ 0) (h : exponentFor num den < 0) :
    num < den * 2 ^ 53 := by
  unfold exponentFor minExponent twoPow at h
  dsimp only at h
  by_cases hguess : (0 : Int) ≤ num.log2 - den.log2 - 52
  · obtain ⟨k, hk⟩ := Int.eq_ofNat_of_zero_le hguess
    rw [hk, if_pos (Int.natCast_nonneg k), Int.toNat_natCast] at h
    split at h
    · exact lt_mul_two_pow hden (by omega)
    · omega
  · exact lt_mul_two_pow hden (by omega)

/-! ## Rounding -/

/-- A quotient below a successor is rounded to it exactly from half a step on, if a tie goes there.
It does if the number below is odd. -/
lemma roundDiv_eq_succ_iff {k : Nat} (hden : 0 < den) (hodd : k % 2 = 1)
    (hlt : num < den * (k + 1)) :
    roundDiv num den = k + 1 ↔ den * (2 * k + 1) ≤ 2 * num := by
  have hr := Nat.mod_lt num hden
  have hsplit := Nat.div_add_mod num den
  have hhalf : den * (2 * k + 1) = 2 * (den * k) + den := by
    rw [Nat.mul_add, Nat.mul_one, Nat.mul_left_comm]
  unfold roundDiv
  dsimp only
  -- Below the last step nothing is rounded up so far; in it, the remainder decides.
  obtain hq | hq := Nat.lt_or_eq_of_le (Nat.le_of_lt_succ (Nat.div_lt_of_lt_mul hlt))
  · have hstep : den * (num / den) + den ≤ den * k := by
      rw [← Nat.mul_succ]
      exact Nat.mul_le_mul_left den hq
    refine iff_of_false ?_ (by omega)
    repeat' split
    all_goals omega
  · rw [hq] at hsplit ⊢
    repeat' split
    all_goals omega

/-- A number is packed as an infinity if its exponent, after a carry, is too large. -/
lemma isInfinite_pack_iff (m : Nat) (e : Int) :
    (∃ negative, pack m e = .infinite negative) ↔ if m = 2 ^ 53 then 971 ≤ e else 972 ≤ e := by
  have hpack (m : Nat) (e : Int) :
      (∃ negative, (if maxExponent < e then .infinite false else .finite false m e) =
        Double.infinite negative) ↔ 972 ≤ e := by
    unfold maxExponent
    split
    · exact iff_of_true ⟨false, rfl⟩ (by omega)
    · exact iff_of_false (fun ⟨_, h⟩ => nomatch h) (by omega)
  have hend : twoPow 53 = 2 ^ 53 := rfl
  unfold pack
  rw [hend]
  -- Rounding up to the next power of two makes the exponent one more.
  by_cases hcarry : m = 2 ^ 53
  · rw [if_pos hcarry, if_pos hcarry]
    refine (hpack (twoPow 52) (e + 1)).trans ?_
    omega
  · rw [if_neg hcarry, if_neg hcarry]
    exact hpack m e

lemma halfStep_mul_two_pow {j k : Nat} (h : j = halfExponent + k) : halfStep * 2 ^ k = 2 ^ j := by
  rw [halfStep, ← Nat.pow_add, h]

lemma mul_two_pow_le_halfStep (n : Nat) {j k : Nat} (h : j ≤ halfExponent + k) :
    n * 2 ^ j ≤ n * halfStep * 2 ^ k := by
  rw [Nat.mul_assoc, halfStep_mul_two_pow rfl]
  exact Nat.mul_le_mul_left n (Nat.pow_le_pow_right Nat.two_pos h)

lemma mul_halfStep_le_two_pow (n : Nat) {j k : Nat} (h : halfExponent + k ≤ j) :
    n * halfStep * 2 ^ k ≤ n * 2 ^ j := by
  rw [Nat.mul_assoc, halfStep_mul_two_pow rfl]
  exact Nat.mul_le_mul_left n (Nat.pow_le_pow_right Nat.two_pos h)

/-- In the last binade, what is rounded up to its end. From there a carry leads to an exponent that
is too large. -/
lemma roundDiv_eq_end_iff {half : Nat} (hhalf : 0 < half) (hlt : num < half * 2 ^ 54) :
    roundDiv num (half * 2) = 2 ^ 53 ↔ half * (2 ^ 54 - 1) ≤ num := by
  obtain ⟨k, hk⟩ : ∃ k, 2 ^ 53 = k + 1 :=
    ⟨2 ^ 53 - 1, (Nat.sub_add_cancel (Nat.two_pow_pos 53)).symm⟩
  have hend : 2 ^ 54 - 1 = 2 * k + 1 := by omega
  have hlt' : num < half * 2 * (k + 1) := by
    rwa [← hk, Nat.mul_assoc]
  rw [hk, hend, roundDiv_eq_succ_iff (by omega) (by omega) hlt', Nat.mul_right_comm, Nat.mul_comm]
  omega

/-- A ratio is rounded to an infinity from half a step above the largest double on. Only in the last
binade does rounding decide; below it no ratio is so large, and above it every one is. -/
lemma isInfinite_ofRatio_iff (hnum : num ≠ 0) (hden : den ≠ 0) :
    (∃ negative, ofRatio num den = .infinite negative) ↔ den * halfStep * (2 ^ 54 - 1) ≤ num := by
  have hratio :
      ofRatio num den = pack (roundAt num den (exponentFor num den)) (exponentFor num den) :=
    if_neg (by simp [hnum, hden])
  have hpos : 0 < den * halfStep :=
    Nat.mul_pos (Nat.pos_of_ne_zero hden) (Nat.two_pow_pos halfExponent)
  have hexponent := halfExponent_eq
  rw [hratio, isInfinite_pack_iff]
  obtain hneg | hnonneg := Int.lt_or_le (exponentFor num den) 0
  · have hlt := lt_of_exponentFor_neg hden hneg
    have hle := @mul_two_pow_le_halfStep den 53 53 (by omega)
    refine iff_of_false ?_ (by omega)
    split <;> omega
  obtain ⟨e, he⟩ := Int.eq_ofNat_of_zero_le hnonneg
  obtain ⟨hlow, hhigh⟩ := bounds_of_exponentFor hnum hden he
  rw [he]
  -- Below the last binade, in it, and above it.
  obtain hsmall | htop | hlarge := Nat.lt_trichotomy e 971
  · have hle := @mul_two_pow_le_halfStep den (53 + e) 53 (by omega)
    refine iff_of_false ?_ (by omega)
    split <;> omega
  · have hle := @mul_two_pow_le_halfStep den (53 + e) 54 (by omega)
    have hunit : den * twoPow e = den * halfStep * 2 := by
      rw [Nat.mul_assoc]
      exact congrArg (den * ·) (@halfStep_mul_two_pow e 1 (by omega)).symm
    have hround : roundAt num den e = roundDiv num (den * twoPow e) := if_pos (Int.natCast_nonneg e)
    rw [hround, hunit, ← roundDiv_eq_end_iff hpos (Nat.lt_of_lt_of_le hhigh hle)]
    split <;> omega
  · have hle := @mul_halfStep_le_two_pow den (52 + e) 54 (by omega)
    have hend : den * halfStep * (2 ^ 54 - 1) ≤ den * halfStep * 2 ^ 54 :=
      Nat.mul_le_mul_left _ (Nat.sub_le ..)
    refine iff_of_true ?_ (Nat.le_trans hend (Nat.le_trans hle hlow))
    split <;> omega

end

/-! ## Binary numerals -/

/-- A number with a large sum of its length and its exponent is too large, which is seen without
computing it. -/
lemma tooLarge_of_size {n : Nat} {e : Int} (hn : n ≠ 0) (h : 1100 < (n.log2 : Int) + e) :
    TooLarge n e := by
  have hexponent := halfExponent_eq
  calc 2 ^ (-e).toNat * halfStep * (2 ^ 54 - 1)
    _ ≤ 2 ^ (-e).toNat * halfStep * 2 ^ 54 := Nat.mul_le_mul_left _ (Nat.sub_le ..)
    _ = 2 ^ ((-e).toNat + (halfExponent + 54)) := by
      rw [Nat.mul_assoc, halfStep_mul_two_pow rfl, ← Nat.pow_add]
    _ ≤ 2 ^ (n.log2 + e.toNat) := Nat.pow_le_pow_right Nat.two_pos (by omega)
    _ = 2 ^ n.log2 * 2 ^ e.toNat := Nat.pow_add ..
    _ ≤ n * 2 ^ e.toNat := Nat.mul_le_mul_right _ (Nat.log2_self_le hn)

/-- A number with a small sum of its length and its exponent is not too large. -/
lemma not_tooLarge_of_size {n : Nat} {e : Int} (h : (n.log2 : Int) + e < -1200) :
    ¬TooLarge n e := by
  refine Nat.not_le_of_lt ?_
  calc n * 2 ^ e.toNat
    _ < 2 ^ (n.log2 + 1) * 2 ^ e.toNat :=
      Nat.mul_lt_mul_of_pos_right Nat.lt_log2_self (Nat.two_pow_pos _)
    _ = 2 ^ (n.log2 + 1 + e.toNat) := (Nat.pow_add ..).symm
    _ ≤ 2 ^ (-e).toNat := Nat.pow_le_pow_right Nat.two_pos (by omega)
    _ ≤ 2 ^ (-e).toNat * halfStep := Nat.le_mul_of_pos_right _ (Nat.two_pow_pos halfExponent)
    _ ≤ 2 ^ (-e).toNat * halfStep * (2 ^ 54 - 1) := Nat.le_mul_of_pos_right _ (by decide)

/-- A number with a binary exponent is a ratio, with the power of two above or below. -/
lemma isInfinite_ratio_iff {n : Nat} {e : Int} (hn : n ≠ 0) :
    (∃ negative,
      (if 0 ≤ e then ofRatio (n * twoPow e.toNat) 1 else ofRatio n (twoPow (-e).toNat)) =
        .infinite negative) ↔ TooLarge n e := by
  by_cases he : 0 ≤ e
  · have hzero : (-e).toNat = 0 := by omega
    have hnum : n * 2 ^ e.toNat ≠ 0 := Nat.mul_ne_zero hn (Nat.ne_of_gt (Nat.two_pow_pos _))
    have hratio := isInfinite_ofRatio_iff hnum Nat.one_ne_zero
    rwa [if_pos he, TooLarge, hzero, Nat.pow_zero]
  · have hzero : e.toNat = 0 := by omega
    have hratio := isInfinite_ofRatio_iff hn (Nat.ne_of_gt (Nat.two_pow_pos (-e).toNat))
    rwa [if_neg he, TooLarge, hzero, Nat.pow_zero, Nat.mul_one]

/-- A binary numeral has no value exactly if it is too large. Zero always has one. -/
lemma ofBinary?_eq_none_iff (n : Nat) (e : Int) : ofBinary? n e = none ↔ TooLarge n e := by
  unfold ofBinary?
  dsimp only
  split
  case isTrue hzero =>
    subst hzero
    refine iff_of_false nofun (Nat.not_le_of_lt ?_)
    rw [Nat.zero_mul]
    exact Nat.mul_pos (Nat.mul_pos (Nat.two_pow_pos _) (Nat.two_pow_pos _)) (by decide)
  case isFalse hn =>
    split
    -- Numbers far outside of the range are settled without computing them.
    case isTrue hsize => exact iff_of_true rfl (tooLarge_of_size hn hsize)
    case isFalse =>
      split
      case isTrue hsize => exact iff_of_false nofun (not_tooLarge_of_size hsize)
      case isFalse =>
        rw [← isInfinite_ratio_iff hn]
        split
        case h_1 negative hinfinite => exact iff_of_true rfl ⟨negative, hinfinite⟩
        case h_2 hfinite =>
          exact iff_of_false nofun fun ⟨negative, hinfinite⟩ => hfinite negative hinfinite

end ShapeLint.Double
