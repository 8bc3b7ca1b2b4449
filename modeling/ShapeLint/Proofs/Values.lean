import Mathlib.Algebra.Order.Field.Rat
import Mathlib.Tactic.NormNum
import ShapeLint.Pattern.Basic

/-!
# When two values are the same

Sameness of values goes across the ways in which numbers are kept: a truth value, an integer and a
double can all be the number one. `Value.key?` gives the number, as a rational, and two values are
the same exactly if they have one key. So sameness is symmetric and transitive, and everything is
the same as itself but what is no number.
-/

namespace ShapeLint

/-- Two scaled integers are the same number if they are so as rationals. They are compared by
scaling the one with the larger exponent down to the other, and that is exact. -/
lemma Double.sameScaled_iff (a e b f : Int) :
    Double.sameScaled a e b f = true ↔ (a : ℚ) * 2 ^ e = (b : ℚ) * 2 ^ f := by
  have hshift : ∀ {g low : Int}, low ≤ g → (2 : ℚ) ^ g = 2 ^ (g - low).toNat * 2 ^ low := by
    intro g low hle
    rw [← zpow_natCast, ← zpow_add₀ (by norm_num : (2 : ℚ) ≠ 0), Int.toNat_of_nonneg (by omega)]
    congr 1
    omega
  have hlow : (2 : ℚ) ^ min e f ≠ 0 := zpow_ne_zero _ (by norm_num)
  rw [hshift (min_le_left e f), hshift (min_le_right e f), ← mul_assoc, ← mul_assoc,
    mul_left_inj' hlow]
  simp only [Double.sameScaled, beq_iff_eq]
  exact_mod_cast Iff.rfl

namespace Value

/-- What decides whether a value is the same as others: a number, an infinity, a text or nothing. -/
inductive Key where
  | none
  | infinite (negative : Bool)
  | number (q : ℚ)
  | text (points : List Text.CodePoint)

/-- The key of a value; what is no number has none, and so is not even the same as itself. -/
def key? : Value → Option Key
  | .none => some .none
  | .bool b => some (.number (if b then (1 : Int) else 0 : Int))
  | .int i => some (.number i)
  | .double .nan => Option.none
  | .double (.infinite negative) => some (.infinite negative)
  | .double (.finite negative m e) => some (.number (Double.signed negative m * 2 ^ e))
  | .text points => some (.text points)

/-- Two values are the same exactly if they have one key. -/
lemma same_iff (a b : Value) : a.same b = true ↔ a.key? = b.key? ∧ a.key? ≠ Option.none := by
  rcases a with _ | c | i | (_ | s | ⟨s, m, e⟩) | t <;>
    rcases b with _ | c' | j | (_ | s' | ⟨s', m', e'⟩) | t' <;>
    simp only [same, key?, int?, Double.same, Double.sameInt, Double.sameScaled_iff,
      Option.map_some, Option.getD_some, Option.map_none, Option.getD_none, beq_iff_eq,
      Bool.false_eq_true, Option.some.injEq, Key.number.injEq, Key.infinite.injEq, Key.text.injEq,
      zpow_zero, mul_one, Int.cast_inj, ne_eq, reduceCtorEq, not_false_eq_true, and_true, and_false,
      not_true_eq_false]
  -- What is left are an integer and a double, which are compared the other way round.
  all_goals exact eq_comm

lemma same_symm {a b : Value} (h : a.same b = true) : b.same a = true := by
  rw [same_iff] at h ⊢
  exact ⟨h.1.symm, h.1 ▸ h.2⟩

lemma same_trans {a b c : Value} (h : a.same b = true) (h' : b.same c = true) :
    a.same c = true := by
  rw [same_iff] at h h' ⊢
  exact ⟨h.1.trans h'.1, h.2⟩

/-- Two values that are the same are the same as the same values. -/
lemma same_congr {a b : Value} (h : a.same b = true) (v : Value) : v.same a = v.same b := by
  rw [Bool.eq_iff_iff]
  exact ⟨fun hv => same_trans hv h, fun hv => same_trans hv (same_symm h)⟩

/-- Only nothing is the same as nothing. -/
theorem eq_none_of_same {v : Value} (h : Value.none.same v = true) : v = .none := by
  cases v with
  | none => rfl
  | _ => cases h

lemma codePoints_injective {s t : List Char}
    (h : Text.codePoints s = Text.codePoints t) : s = t := by
  refine (List.map_inj_right ?_).mp h
  intro c d hcd
  have hval : c.toNat = d.toNat := congrArg (fun point : Text.CodePoint => point.val) hcd
  exact Char.toNat_inj.mp hval

/-- Different texts are different values. -/
lemma ofString_injective {s t : String} (h : ofString s = ofString t) : s = t :=
  String.toList_inj.mp (codePoints_injective (Value.text.inj h))

/-- Only the text itself is the same as a text. -/
theorem same_ofString_iff {v : Value} {s : String} :
    v.same (ofString s) = true ↔ v = ofString s := by
  cases v with
  | text points => simp [same, ofString]
  | none | bool | int => simp [same, ofString, int?]
  | double d => simp [same, ofString, int?]

end Value

/-- Two constants that are the same have one type, and the same values are the same as either. -/
lemma Constant.same_congr {c d : Constant} (h : c.same d = true) :
    c.type = d.type ∧ ∀ v : Value, v.same c.value = v.same d.value := by
  rw [Constant.same, Bool.and_eq_true, beq_iff_eq] at h
  exact ⟨h.1, Value.same_congr h.2⟩

end ShapeLint
