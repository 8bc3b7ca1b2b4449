import Mathlib.Data.List.TakeWhile
import ShapeLint.Java.Numeral
import ShapeLint.Proofs.Spelling

/-!
# What numerals are made of

A form says how many characters a numeral takes, and nothing else. `Takes` says which texts these
are: it is kept by every combination of forms, so that the texts of each type of numeral follow from
how its form is put together. All that later proofs need is kept: marks, points, signs and letters,
and between them digits among which underscores may stand.
-/

namespace ShapeLint.Java.Numeral

open Form
open ShapeLint.Grammar (Perhaps SignText SuffixText)

/-- Whatever a form takes from the front of a text is a text of a class. That a form takes as much
as it can is not said. -/
def Takes (f : Form) (P : List Char → Prop) : Prop :=
  ∀ s n, f s = some n → ∃ w rest, s = w ++ rest ∧ w.length = n ∧ P w

/-- A text of one class and a text of another behind it. -/
def Then (P Q : List Char → Prop) (w : List Char) : Prop :=
  ∃ a b, w = a ++ b ∧ P a ∧ Q b

/-- Digits, with underscores among them, and at least one digit. -/
def Digits (p : Char → Bool) (w : List Char) : Prop :=
  (∀ c ∈ w, p c = true ∨ c = '_') ∧ ∃ c ∈ w, p c = true

/-! ## Combinations -/

section

variable {f g : Form} {P Q : List Char → Prop}

lemma Takes.mono (hf : Takes f P) (h : ∀ w, P w → Q w) : Takes f Q := by
  intro s n hn
  obtain ⟨w, rest, hs, hlength, hw⟩ := hf s n hn
  exact ⟨w, rest, hs, hlength, h w hw⟩

/-- A character of a class. -/
lemma takes_one (p : Char → Bool) : Takes (one p) (fun w => ∃ c, w = [c] ∧ p c = true) := by
  intro s n h
  unfold one at h
  split at h
  case h_1 c rest =>
    split at h
    case isTrue hc =>
      cases h
      exact ⟨[c], rest, rfl, rfl, c, rfl, hc⟩
    case isFalse => cases h
  case h_2 => cases h

lemma Takes.andThen (hf : Takes f P) (hg : Takes g Q) : Takes (f.andThen g) (Then P Q) := by
  intro s n h
  obtain ⟨k, hk, h⟩ := Option.bind_eq_some_iff.1 h
  obtain ⟨m, hm, h⟩ := Option.bind_eq_some_iff.1 h
  obtain rfl : k + m = n := Option.some.inj h
  obtain ⟨a, rest, rfl, rfl, ha⟩ := hf s k hk
  rw [List.drop_left] at hm
  obtain ⟨b, rest, rfl, rfl, hb⟩ := hg rest m hm
  exact ⟨a ++ b, rest, by rw [List.append_assoc], List.length_append, a, b, rfl, ha, hb⟩

lemma Takes.optional (hf : Takes f P) : Takes (optional f) (Perhaps P) := by
  intro s n h
  obtain rfl : (f s).getD 0 = n := Option.some.inj h
  cases hfs : f s with
  | none => exact ⟨[], s, rfl, rfl, .inl rfl⟩
  | some n =>
    obtain ⟨w, rest, hs, hlength, hw⟩ := hf s n hfs
    exact ⟨w, rest, hs, hlength, .inr hw⟩

/-- The longer of what two forms take is of the class of one of them. -/
lemma Takes.longest (hf : Takes f P) (hg : Takes g Q) :
    Takes (longest f g) (fun w => P w ∨ Q w) := by
  intro s n h
  have hcases : f s = some n ∨ g s = some n := by
    unfold Form.longest at h
    split at h
    case h_1 k m hk hm =>
      cases h
      obtain hmax | hmax := Nat.le_total k m
      · exact .inr (by rw [hm, Nat.max_eq_right hmax])
      · exact .inl (by rw [hk, Nat.max_eq_left hmax])
    case h_2 k hk _ => exact .inl (hk.trans h)
    case h_3 => exact .inr h
  obtain hn | hn := hcases
  · exact (hf.mono fun _ => .inl) s n hn
  · exact (hg.mono fun _ => .inr) s n hn

lemma takes_nothing : Takes (all []) (· = []) := by
  rintro s _ ⟨⟩
  exact ⟨[], s, rfl, rfl, rfl⟩

lemma Takes.cons {fs : List Form} (hf : Takes f P) (hfs : Takes (all fs) Q) :
    Takes (all (f :: fs)) (Then P Q) :=
  hf.andThen hfs

/-- The last of several forms has nothing behind it. -/
lemma Takes.last (hf : Takes f P) : Takes (all [f]) P := by
  refine (hf.cons takes_nothing).mono ?_
  rintro _ ⟨a, _, rfl, ha, rfl⟩
  rwa [List.append_nil]

end

/-! ## Digits -/

lemma Digits.cons {p : Char → Bool} {c : Char} (hc : p c = true) {w : List Char}
    (hw : ∀ d ∈ w, p d = true ∨ d = '_') :
    Digits p (c :: w) :=
  ⟨List.forall_mem_cons.2 ⟨.inl hc, hw⟩, c, List.mem_cons_self .., hc⟩

lemma Digits.ne_nil {p : Char → Bool} {w : List Char} (h : Digits p w) : w ≠ [] :=
  have ⟨_, hc, _⟩ := h.2
  List.ne_nil_of_mem hc

/-- Texts that are digits or empty are made of digits and underscores. -/
lemma forall_of_digits {p : Char → Bool} {w : List Char} (h : Perhaps (Digits p) w) :
    ∀ c ∈ w, p c = true ∨ c = '_' := by
  obtain rfl | h := h
  · exact fun c hc => nomatch hc
  · exact h.1

/-- A form that is given by a length takes what has that length, if it is not empty. -/
lemma takes_positive {length : List Char → Nat} {P : List Char → Prop}
    (h : ∀ s, ∃ w rest, s = w ++ rest ∧ w.length = length s ∧ Perhaps P w) :
    Takes (positive length) P := by
  intro s n hn
  obtain ⟨w, rest, hs, hlength, hw⟩ := h s
  unfold positive at hn
  split at hn
  case h_1 => cases hn
  case h_2 m hne =>
    cases hn
    refine ⟨w, rest, hs, hlength, hw.resolve_left ?_⟩
    rintro rfl
    exact hne hlength.symm

/-- Digits with single underscores between them. The induction follows how their length is counted;
an underscore is taken only if a digit stands behind it. -/
lemma takes_grouped (p : Char → Bool) : Takes (grouped p) (Digits p) := by
  refine takes_positive fun s => ?_
  fun_induction groupedLength p s with
  | case1 s => exact ⟨[], _, rfl, rfl, .inl rfl⟩
  | case2 c d s hunder hc hd ih =>
    obtain ⟨w, rest, hs, hlength, hw⟩ := ih
    refine ⟨c :: '_' :: w, rest, by rw [hs]; rfl, ?_, .inr (.cons hc ?_)⟩
    · simp only [List.length_cons]
      omega
    · exact List.forall_mem_cons.2 ⟨.inr rfl, forall_of_digits hw⟩
  -- No digit stands behind the underscore, so it is left.
  | case3 c d s hunder hc hd => exact ⟨[c], '_' :: d :: s, rfl, rfl, .inr (.cons hc nofun)⟩
  | case4 c d s hunder hc => exact ⟨[], _, rfl, rfl, .inl rfl⟩
  | case5 c s hunder hpair hc ih =>
    obtain ⟨w, rest, hs, hlength, hw⟩ := ih
    exact ⟨c :: w, rest, by rw [hs]; rfl, by simp [hlength, Nat.add_comm],
      .inr (.cons hc (forall_of_digits hw))⟩
  | case6 c s hunder hpair hc => exact ⟨[], _, rfl, rfl, .inl rfl⟩
  | case7 => exact ⟨[], _, rfl, rfl, .inl rfl⟩

/-- Digits with any underscores between them, of which those at the end are given back. -/
lemma takes_loose : Takes (positive looseLength) (Digits isDecimal) := by
  refine takes_positive fun s => ?_
  unfold looseLength
  dsimp only
  split
  case h_2 => exact ⟨[], _, rfl, rfl, .inl rfl⟩
  case h_1 c others =>
    split
    case isFalse => exact ⟨[], _, rfl, rfl, .inl rfl⟩
    case isTrue hc =>
      generalize c :: others = s
      let run := s.takeWhile fun c => isDecimal c || c == '_'
      have hrun : ∀ d ∈ run, isDecimal d = true ∨ d = '_' := by
        intro d hd
        simpa using List.mem_takeWhile_imp hd
      -- What is left of the run ends in a digit, since no further underscore was cut off.
      have hmem : ∀ d ∈ (run.reverse.dropWhile (· == '_')).reverse, d ∈ run := fun d hd =>
        List.mem_reverse.1 ((List.dropWhile_sublist _).mem (List.mem_reverse.1 hd))
      refine ⟨(run.reverse.dropWhile (· == '_')).reverse,
        (run.reverse.takeWhile (· == '_')).reverse ++ s.dropWhile fun c => isDecimal c || c == '_',
        ?_, List.length_reverse, ?_⟩
      · rw [← List.append_assoc, ← List.reverse_append, List.takeWhile_append_dropWhile,
          List.reverse_reverse, List.takeWhile_append_dropWhile]
      · cases hleft : run.reverse.dropWhile (· == '_') with
        | nil => exact .inl rfl
        | cons d ds =>
          have hd : d ∈ (run.reverse.dropWhile (· == '_')).reverse := by simp [hleft]
          have hlast := List.head?_dropWhile_not (· == '_') run.reverse
          rw [hleft] at hlast
          rw [hleft] at hmem hd
          refine .inr ⟨fun e he => hrun e (hmem e he), d, hd, (hrun d (hmem d hd)).resolve_right ?_⟩
          simpa using hlast

/-! ## Parts of numerals -/

/-- A decimal integer without its suffix: a zero alone, or digits of which the first is no zero. -/
def WholeText (w : List Char) : Prop :=
  w = ['0'] ∨
    ∃ c u, w = c :: u ∧ isDecimal c = true ∧ c ≠ '0' ∧ ∀ d ∈ u, isDecimal d = true ∨ d = '_'

/-- A zero and one of two letters. -/
def RadixText (lower upper : Char) (w : List Char) : Prop :=
  ∃ c, w = ['0', c] ∧ (c = lower ∨ c = upper)

/-- An exponent: one of two letters, perhaps a sign, and digits. -/
def PowerText (lower upper : Char) (w : List Char) : Prop :=
  ∃ c sign digits, w = c :: (sign ++ digits) ∧ (c = lower ∨ c = upper) ∧ SignText sign ∧
    Digits isDecimal digits

/-- The suffix of a long integer. -/
def LongText (w : List Char) : Prop :=
  ∃ c, w = [c] ∧ (c = 'l' ∨ c = 'L')

lemma takes_either (lower upper : Char) :
    Takes (one fun c => c == lower || c == upper)
      (fun w => ∃ c, w = [c] ∧ (c = lower ∨ c = upper)) := by
  refine (takes_one _).mono ?_
  rintro _ ⟨c, rfl, hc⟩
  exact ⟨c, rfl, by simpa using hc⟩

lemma takes_only (d : Char) : Takes (one (· == d)) (· = [d]) := by
  refine (takes_one _).mono ?_
  rintro _ ⟨c, rfl, hc⟩
  rw [beq_iff_eq.1 hc]

/-- A zero alone, or a digit that is none, perhaps an underscore, and further digits. -/
lemma takes_decimal : Takes decimal WholeText := by
  intro s n h
  unfold decimal at h
  split at h
  case h_1 rest =>
    cases h
    exact ⟨['0'], rest, rfl, rfl, .inl rfl⟩
  case h_2 hzero =>
    have hmore := ((takes_only '_').optional.cons takes_loose.last).optional
    obtain ⟨w, rest, rfl, hlength, hw⟩ := ((takes_one isDecimal).cons hmore.last) s n h
    refine ⟨w, rest, rfl, hlength, .inr ?_⟩
    obtain ⟨_, more, rfl, ⟨c, rfl, hc⟩, hmore⟩ := hw
    -- The first digit is no zero, since that case came before.
    refine ⟨c, more, rfl, hc, fun heq => hzero (more ++ rest) (by rw [heq]; rfl), ?_⟩
    obtain rfl | ⟨mark, digits, rfl, hmark, hdigits⟩ := hmore
    · nofun
    · refine List.forall_mem_append.2 ⟨?_, hdigits.1⟩
      obtain rfl | rfl := hmark
      · nofun
      · simp

lemma takes_radix (lower upper : Char) : Takes (radix lower upper) (RadixText lower upper) := by
  refine ((takes_only '0').cons (takes_either lower upper).last).mono ?_
  rintro _ ⟨_, _, rfl, rfl, c, rfl, hc⟩
  exact ⟨c, rfl, hc⟩

lemma takes_exponent (lower upper : Char) :
    Takes (exponent lower upper) (PowerText lower upper) := by
  refine ((takes_either lower upper).cons
    ((takes_either '+' '-').optional.cons (takes_grouped isDecimal).last)).mono ?_
  rintro _ ⟨_, _, rfl, ⟨c, rfl, hc⟩, sign, digits, rfl, hsign, hdigits⟩
  refine ⟨c, sign, digits, rfl, hc, ?_, hdigits⟩
  obtain rfl | ⟨d, rfl, rfl | rfl⟩ := hsign
  · exact .inl rfl
  · exact .inr (.inl rfl)
  · exact .inr (.inr rfl)

lemma takes_longSuffix : Takes longSuffix (Perhaps LongText) :=
  (takes_either 'l' 'L').optional

lemma takes_floatSuffix : Takes floatSuffix SuffixText :=
  takes_one _

/-! ## Numerals -/

/-- A decimal floating point numeral: it has a point, before or behind digits, or else an exponent
or a suffix. That one of the latter two is there is not needed below. -/
inductive DecimalFloatText : List Char → Prop where
  | pointed {whole fraction e x : List Char} :
      Perhaps (Digits isDecimal) whole → Perhaps (Digits isDecimal) fraction →
      whole ++ fraction ≠ [] → Perhaps (PowerText 'e' 'E') e → Perhaps SuffixText x →
      DecimalFloatText (whole ++ '.' :: (fraction ++ (e ++ x)))
  | plain {whole e x : List Char} :
      WholeText whole → Perhaps (PowerText 'e' 'E') e → Perhaps SuffixText x →
      DecimalFloatText (whole ++ (e ++ x))

/-- The digits of a hexadecimal floating point numeral: before a point, and behind it. Without a
point there are none behind it. -/
def HexDigitsText (whole point fraction : List Char) : Prop :=
  Perhaps (Digits isHex) whole ∧ Perhaps (Digits isHex) fraction ∧ whole ++ fraction ≠ [] ∧
    (point = ['.'] ∨ point = [] ∧ fraction = [])

/-- A hexadecimal floating point numeral. -/
def HexFloatText (w : List Char) : Prop :=
  ∃ mark whole point fraction e x, w = mark ++ (whole ++ (point ++ (fraction ++ (e ++ x)))) ∧
    RadixText 'x' 'X' mark ∧ HexDigitsText whole point fraction ∧ PowerText 'p' 'P' e ∧
    Perhaps SuffixText x

/-- The texts of the numerals of a type: integers in four radices, perhaps with the suffix of a long
one, and floating point numbers in two. An octal integer has a zero in front of it, or a mark. -/
inductive NumeralText : String → List Char → Prop where
  | decimal {w x : List Char} :
      WholeText w → Perhaps LongText x → NumeralText "decimal_integer_literal" (w ++ x)
  | hex {mark w x : List Char} :
      RadixText 'x' 'X' mark → Digits isHex w → Perhaps LongText x →
      NumeralText "hex_integer_literal" (mark ++ (w ++ x))
  | octal {w x : List Char} :
      Digits isOctal w → Perhaps LongText x → NumeralText "octal_integer_literal" ('0' :: (w ++ x))
  | marked {mark w x : List Char} :
      RadixText 'o' 'O' mark → Digits isOctal w → Perhaps LongText x →
      NumeralText "octal_integer_literal" (mark ++ (w ++ x))
  | binary {mark w x : List Char} :
      RadixText 'b' 'B' mark → Digits isBinary w → Perhaps LongText x →
      NumeralText "binary_integer_literal" (mark ++ (w ++ x))
  | float {w : List Char} : DecimalFloatText w → NumeralText "decimal_floating_point_literal" w
  | hexFloat {w : List Char} : HexFloatText w → NumeralText "hex_floating_point_literal" w

/-- The four forms of a decimal floating point numeral: digits and a point, a point and digits, an
exponent, a suffix. -/
lemma takes_decimalFloat : Takes decimalFloat DecimalFloatText := by
  have he := (takes_exponent 'e' 'E').optional
  have hx := takes_floatSuffix.optional
  have hpoint := takes_only '.'
  have hdigits := takes_grouped isDecimal
  have htail := he.cons hx.last
  have hbehind := hdigits.cons (hpoint.cons (hdigits.optional.cons htail.last))
  have hfront := hpoint.cons (hdigits.cons htail.last)
  have hpower := takes_decimal.cons ((takes_exponent 'e' 'E').cons hx.last)
  have hsuffix := takes_decimal.cons (he.cons takes_floatSuffix.last)
  refine (hbehind.longest (hfront.longest (hpower.longest hsuffix))).mono ?_
  rintro _ (
    ⟨whole, _, rfl, hwhole, _, _, rfl, rfl, fraction, _, rfl, hfraction, e, x, rfl, he, hx⟩ |
    ⟨_, _, rfl, rfl, fraction, _, rfl, hfraction, e, x, rfl, he, hx⟩ |
    ⟨whole, _, rfl, hwhole, e, x, rfl, he, hx⟩ |
    ⟨whole, _, rfl, hwhole, e, x, rfl, he, hx⟩)
  · exact @DecimalFloatText.pointed whole fraction e x (.inr hwhole) hfraction
      (List.append_ne_nil_of_left_ne_nil hwhole.ne_nil fraction) he hx
  · exact @DecimalFloatText.pointed [] fraction e x (.inl rfl)
      (.inr hfraction) hfraction.ne_nil he hx
  · exact .plain hwhole (.inr he) hx
  · exact .plain hwhole he (.inr hx)

lemma takes_hexFloat : Takes hexFloat HexFloatText := by
  have hdigits := takes_grouped isHex
  have hpoint := takes_only '.'
  have hmantissa := Takes.longest (hdigits.cons hpoint.optional.last)
    (hdigits.optional.cons (hpoint.cons hdigits.last))
  refine ((takes_radix 'x' 'X').cons
    (hmantissa.cons ((takes_exponent 'p' 'P').cons takes_floatSuffix.optional.last))).mono ?_
  rintro _ ⟨mark, _, rfl, hmark, _, _, rfl, ⟨whole, point, rfl, hwhole, hpoint⟩ |
    ⟨whole, _, rfl, hwhole, point, fraction, rfl, hpoint, hfraction⟩, e, x, rfl, he, hx⟩
  · refine ⟨mark, whole, point, [], e, x, by simp, hmark, ⟨.inr hwhole, .inl rfl, ?_, ?_⟩, he, hx⟩
    · exact List.append_ne_nil_of_left_ne_nil hwhole.ne_nil []
    · exact hpoint.symm.imp id fun h => ⟨h, rfl⟩
  · refine ⟨mark, whole, point, fraction, e, x, by simp, hmark,
      ⟨hwhole, .inr hfraction, ?_, .inl hpoint⟩, he, hx⟩
    exact List.append_ne_nil_of_right_ne_nil whole hfraction.ne_nil

/-- Each form takes the numerals of its type. -/
lemma takes_forms {type : String} {f : Form} (h : (type, f) ∈ forms) :
    Takes f (NumeralText type) := by
  simp only [forms, List.mem_cons, Prod.mk.injEq, List.not_mem_nil, or_false] at h
  -- One case for each type, in the order of the list.
  obtain ⟨rfl, rfl⟩ | ⟨rfl, rfl⟩ | ⟨rfl, rfl⟩ | ⟨rfl, rfl⟩ | ⟨rfl, rfl⟩ | ⟨rfl, rfl⟩ := h
  · refine (takes_decimal.cons takes_longSuffix.last).mono ?_
    rintro _ ⟨w, x, rfl, hw, hx⟩
    exact .decimal hw hx
  · refine ((takes_radix 'x' 'X').cons ((takes_grouped isHex).cons takes_longSuffix.last)).mono ?_
    rintro _ ⟨mark, _, rfl, hmark, w, x, rfl, hw, hx⟩
    exact .hex hmark hw hx
  · have hoctal := (takes_grouped isOctal).cons takes_longSuffix.last
    have hzero := (takes_only '0').cons hoctal
    have hmarked := (takes_radix 'o' 'O').cons hoctal
    refine (hzero.longest hmarked).mono ?_
    rintro _ (⟨_, _, rfl, rfl, w, x, rfl, hw, hx⟩ | ⟨mark, _, rfl, hmark, w, x, rfl, hw, hx⟩)
    · exact @NumeralText.octal w x hw hx
    · exact .marked hmark hw hx
  · have hbinary := (takes_grouped isBinary).cons takes_longSuffix.last
    refine ((takes_radix 'b' 'B').cons hbinary).mono ?_
    rintro _ ⟨mark, _, rfl, hmark, w, x, rfl, hw, hx⟩
    exact .binary hmark hw hx
  · exact takes_decimalFloat.mono fun _ => .float
  · exact takes_hexFloat.mono fun _ => .hexFloat

/-- A numeral that is read has a text of its type. The forms of all types are tried and the one that
takes most wins, which is a fold over them. -/
theorem numeralText_of_read? {s : List Char} {type : String} {n : Nat}
    (h : read? s = some (type, n)) :
    ∃ w rest, s = w ++ rest ∧ w.length = n ∧ NumeralText type w := by
  -- Whatever is the best so far was read by one of the forms.
  have hform : ∀ type n, read? s = some (type, n) → ∃ f, (type, f) ∈ forms ∧ f s = some n := by
    unfold read?
    refine List.foldlRecOn
      (motive := fun best => ∀ type n, best = some (type, n) →
        ∃ f, (type, f) ∈ forms ∧ f s = some n)
      forms _ nofun ?_
    intro best ih x hx type n hbest
    dsimp only at hbest
    split at hbest
    · exact ih type n hbest
    case h_2 k hk =>
      cases hbest
      exact ⟨x.2, hx, hk⟩
    case h_3 t m k hk =>
      split at hbest
      · cases hbest
        exact ⟨x.2, hx, hk⟩
      · exact ih type n hbest
  obtain ⟨f, hf, hn⟩ := hform type n h
  exact takes_forms hf s n hn

end ShapeLint.Java.Numeral
