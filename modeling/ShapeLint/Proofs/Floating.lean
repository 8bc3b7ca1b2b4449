import Mathlib.Data.List.TakeDrop
import Mathlib.Data.List.TakeWhile
import Mathlib.Data.Option.Basic
import ShapeLint.Proofs.Spelling

/-!
# Floating point literals are numbers

The value of a floating point literal is looked for in three steps: underscores are taken out,
suffixes are cut off at the end, and what is left is read as a decimal number, an infinity or the
word for no number. A text that is spelled as the grammar asks (`DoubleText`) passes all three.
Without its underscores and its suffix it is a `DecimalText`, which starts with neither a sign nor a
letter, and a decimal number is never the word for no number. So a pattern has no literal that
differs from itself.
-/

namespace ShapeLint

lemma Double.pack_ne_nan (mantissa : Nat) (exponent : Int) :
    Double.pack mantissa exponent ≠ .nan := by
  unfold Double.pack
  generalize (if mantissa = Double.twoPow 53 then _ else _ : Nat × Int) = carried
  dsimp only
  split
  · exact nofun
  · exact nofun

lemma Double.ofRatio_ne_nan (num den : Nat) : Double.ofRatio num den ≠ .nan := by
  unfold Double.ofRatio
  split
  · exact nofun
  · exact Double.pack_ne_nan _ _

/-- A decimal number is rounded to a number or to an infinity, in each of the cases in which it is
computed. -/
lemma Double.ofDecimal_ne_nan (digits : Nat) (exponent : Int) :
    Double.ofDecimal digits exponent ≠ .nan := by
  unfold Double.ofDecimal
  dsimp only
  split
  · exact nofun
  split
  · exact nofun
  split
  · exact nofun
  split
  · exact Double.ofRatio_ne_nan _ _
  · exact Double.ofRatio_ne_nan _ _

namespace Literal

open ShapeLint.Text (digitValue? isDigit isBlank trimEnd)
open ShapeLint.Grammar

/-! ## Digits -/

/-- The value of a decimal digit, in whatever script it is written. -/
lemma lt_ten_of_digitValue? {c : Char} {d : Nat} (h : digitValue? c = some d) : d < 10 := by
  unfold digitValue? at h
  split at h
  case isTrue hc =>
    have hle : c.toNat ≤ '9'.toNat := hc.2
    have hval : '9'.toNat = 57 := rfl
    obtain rfl := Option.some.inj h
    omega
  case isFalse =>
    split at h
    · cases h
    · obtain ⟨z, hz, rfl⟩ := Option.map_eq_some_iff.mp h
      have hrange := List.find?_some hz
      simp only [Bool.and_eq_true, decide_eq_true_eq] at hrange
      omega

/-- The decimal digits are the characters that have a value in that radix. -/
lemma isSome_radixDigit? (c : Char) : (radixDigit? 10 c).isSome = isDigit c := by
  unfold radixDigit? isDigit
  cases h : digitValue? c with
  | some d => simp [Option.filter, lt_ten_of_digitValue? h]
  | none =>
    -- A letter counts for ten at least, so that it is no decimal digit.
    dsimp only
    split
    · simp [Option.filter]
    · split <;> simp [Option.filter]

/-- Digits of a radix are read as a number. -/
lemma exists_readDigits {radix : Nat} {s : List Char}
    (h : ∀ c ∈ s, (radixDigit? radix c).isSome = true) (acc : Nat) :
    ∃ n, readDigits radix acc s = some n := by
  induction s generalizing acc with
  | nil => exact ⟨acc, rfl⟩
  | cons c s ih =>
    obtain ⟨d, hd⟩ := Option.isSome_iff_exists.mp (h c (List.mem_cons_self ..))
    obtain ⟨n, hn⟩ := ih (fun c' hc' => h c' (List.mem_cons_of_mem c hc')) (acc * radix + d)
    exact ⟨n, by simp only [readDigits, hd, hn]⟩

lemma readDigits_isSome {s : List Char} (h : ∀ c ∈ s, isDigit c = true) (acc : Nat) :
    ∃ n, readDigits 10 acc s = some n :=
  exists_readDigits (fun c hc => (isSome_radixDigit? c).trans (h c hc)) acc

/-- The digits in front of what does not start with one are split off. -/
lemma spanDigits_append {w s : List Char} (hw : ∀ c ∈ w, isDigit c = true) (hs : Halts isDigit s) :
    spanDigits 10 (w ++ s) = (w, s) := by
  have hclass : (fun c => (radixDigit? 10 c).isSome) = isDigit := funext isSome_radixDigit?
  rw [spanDigits, hclass, List.span_eq_takeWhile_dropWhile, takeWhile_append_of_halts hw hs,
    dropWhile_append_of_halts hw hs]

/-! ## Decimal numbers -/

/-- A decimal number without a sign: digits, perhaps with a point before, between or behind them,
and perhaps an exponent. -/
inductive DecimalText : List Char → Prop where
  | pointed {whole fraction e : List Char} :
      (∀ c ∈ whole ++ fraction, isDigit c = true) → whole ++ fraction ≠ [] →
      Perhaps ExponentText e → DecimalText (whole ++ '.' :: (fraction ++ e))
  | plain {whole e : List Char} :
      (∀ c ∈ whole, isDigit c = true) → whole ≠ [] → Perhaps ExponentText e →
      DecimalText (whole ++ e)

lemma splitSign_append {mark digits : List Char} (hm : SignText mark) (hne : digits ≠ [])
    (hall : ∀ d ∈ digits, isDigit d = true) : (splitSign (mark ++ digits)).2 = digits := by
  obtain ⟨d, ds, rfl⟩ := List.exists_cons_of_ne_nil hne
  have hd := hall d (List.mem_cons_self ..)
  rcases hm with rfl | rfl | rfl
  · unfold splitSign
    split
    case h_1 heq =>
      obtain ⟨rfl, -⟩ := List.cons.inj heq
      exact absurd hd (by decide)
    case h_2 heq =>
      obtain ⟨rfl, -⟩ := List.cons.inj heq
      exact absurd hd (by decide)
    case h_3 => rfl
  · rfl
  · rfl

/-- An exponent has a value, and so has none. -/
lemma exponent?_of_text {e : List Char} (h : Perhaps ExponentText e) :
    ∃ n, exponent? e = some n := by
  rcases h with rfl | ⟨c, mark, digits, rfl, hc, hm, hne, hall⟩
  · exact ⟨0, rfl⟩
  · obtain ⟨n, hn⟩ := readDigits_isSome hall 0
    have hmark : (c == 'e' || c == 'E') = true := by
      rcases hc with rfl | rfl
      · rfl
      · rfl
    have hvalue : digitsValue? 10 (splitSign (mark ++ digits)).2 = some n := by
      rw [splitSign_append hm hne hall, digitsValue?, if_neg (by simpa using hne), hn]
    rw [exponent?, if_pos hmark]
    simp only [hvalue]
    exact ⟨_, rfl⟩

/-- An exponent starts with its letter, so what looks for something else stops there. -/
lemma exponent_halts {p : Char → Bool} {e : List Char} (h : Perhaps ExponentText e)
    (hp : p 'e' = false) (hp' : p 'E' = false) : Halts p e := by
  rcases h with rfl | h
  · exact nofun
  · have hhalts := h.halts hp hp' []
    rwa [List.append_nil] at hhalts

/-- A decimal number has a value, and it is a number or an infinity. Its digits are split off at the
point, and those before and behind it are read together. -/
lemma DecimalText.value {s : List Char} (h : DecimalText s) :
    ∃ d, unsignedDecimal? s = some d ∧ d ≠ .nan := by
  cases h with
  | @pointed whole fraction e hall hne he =>
    have hwhole : ∀ c ∈ whole, isDigit c = true := fun c hc => hall c (List.mem_append_left _ hc)
    have hfraction : ∀ c ∈ fraction, isDigit c = true :=
      fun c hc => hall c (List.mem_append_right _ hc)
    have hpoint : Halts isDigit ('.' :: (fraction ++ e)) := halts_cons (by decide) _
    have hrest : Halts isDigit e := exponent_halts he (by decide) (by decide)
    have hsplit : splitPoint 10 (whole ++ '.' :: (fraction ++ e)) = (whole, fraction, e) := by
      simp only [splitPoint, spanDigits_append hwhole hpoint, spanDigits_append hfraction hrest]
    obtain ⟨n, hn⟩ := readDigits_isSome hall 0
    obtain ⟨x, hx⟩ := exponent?_of_text he
    have hsome : (whole.isEmpty && fraction.isEmpty) = false := by
      simpa [List.append_eq_nil_iff] using hne
    refine ⟨_, ?_, Double.ofDecimal_ne_nan n (x - fraction.length)⟩
    simp only [unsignedDecimal?, hsplit, hsome, hn, hx, Bool.false_eq_true, if_false]
  | @plain whole e hall hne he =>
    have hrest : Halts isDigit e := exponent_halts he (by decide) (by decide)
    have hsplit : splitPoint 10 (whole ++ e) = (whole, [], e) := by
      simp only [splitPoint, spanDigits_append hall hrest]
      split
      -- An exponent does not begin with a point, so the digits are all before it.
      case h_1 => exact absurd (exponent_halts (p := (· == '.')) he rfl rfl '.' rfl) (by decide)
      case h_2 => rfl
    obtain ⟨n, hn⟩ := readDigits_isSome hall 0
    obtain ⟨x, hx⟩ := exponent?_of_text he
    have hsome : (whole.isEmpty && ([] : List Char).isEmpty) = false := by
      simpa using hne
    refine ⟨_, ?_, Double.ofDecimal_ne_nan n (x - ([] : List Char).length)⟩
    simp only [unsignedDecimal?, hsplit, hsome, List.append_nil, hn, hx, Bool.false_eq_true,
      if_false]

/-! ## What is cut off

A decimal number starts with a digit or a point, so that it is taken neither for a sign nor for a
word, and none of its characters is a blank, a suffix or a radix mark. -/

/-- The characters of a decimal number: digits, the point, the letter of an exponent and the
signs. -/
def isDecimalChar (c : Char) : Bool :=
  isDigit c || ['.', 'e', 'E', '+', '-'].contains c

lemma isDecimalChar_of_isDigit {c : Char} (h : isDigit c = true) : isDecimalChar c = true := by
  rw [isDecimalChar, h, Bool.true_or]

lemma inky_isDecimalChar : Inky isDecimalChar := by
  decide +kernel

lemma ExponentText.decimal {e : List Char} (h : Perhaps ExponentText e) :
    ∀ c ∈ e, isDecimalChar c = true := by
  intro c hc
  rcases h with rfl | ⟨letter, mark, digits, rfl, hletter, hm, -, hall⟩
  · cases hc
  · rcases List.mem_cons.mp hc with rfl | hc
    · rcases hletter with rfl | rfl
      · rfl
      · rfl
    rcases List.mem_append.mp hc with hc | hc
    · rcases hm with rfl | rfl | rfl
      · cases hc
      · obtain rfl := List.mem_singleton.mp hc
        rfl
      · obtain rfl := List.mem_singleton.mp hc
        rfl
    · exact isDecimalChar_of_isDigit (hall c hc)

lemma DecimalText.chars {s : List Char} (h : DecimalText s) : ∀ c ∈ s, isDecimalChar c = true := by
  intro c hc
  cases h with
  | pointed hall _ he =>
    rcases List.mem_append.mp hc with hc | hc
    · exact isDecimalChar_of_isDigit (hall c (List.mem_append_left _ hc))
    rcases List.mem_cons.mp hc with rfl | hc
    · rfl
    rcases List.mem_append.mp hc with hc | hc
    · exact isDecimalChar_of_isDigit (hall c (List.mem_append_right _ hc))
    · exact ExponentText.decimal he c hc
  | plain hall _ he =>
    rcases List.mem_append.mp hc with hc | hc
    · exact isDecimalChar_of_isDigit (hall c hc)
    · exact ExponentText.decimal he c hc

/-- A decimal number starts with a digit or with a point. -/
lemma DecimalText.head {s : List Char} (h : DecimalText s) :
    ∃ c cs, s = c :: cs ∧ (isDigit c = true ∨ c = '.') := by
  cases h with
  | @pointed whole fraction e hall _ _ =>
    cases whole with
    | nil => exact ⟨'.', fraction ++ e, rfl, .inr rfl⟩
    | cons c whole => exact ⟨c, _, rfl, .inl (hall c (List.mem_cons_self ..))⟩
  | @plain whole e hall hne _ =>
    obtain ⟨c, cs, rfl⟩ := List.exists_cons_of_ne_nil hne
    exact ⟨c, cs ++ e, rfl, .inl (hall c (List.mem_cons_self ..))⟩

/-- What is cut off at the end is what stands behind the last character that is not of the class. -/
lemma trimEnd_append {p : Char → Bool} {s x : List Char} (hs : ∀ c ∈ s, p c = false)
    (hx : ∀ c ∈ x, p c = true) :
    trimEnd p (s ++ x) = s := by
  have hhalts : Halts p s.reverse := by
    intro c hc
    exact hs c (List.mem_reverse.mp (List.mem_of_mem_head? hc))
  have hall : ∀ c ∈ x.reverse, p c = true := fun c hc => hx c (List.mem_reverse.mp hc)
  rw [trimEnd, List.reverse_append, dropWhile_append_of_halts hall hhalts, List.reverse_reverse]

lemma trimBlank_of_ink {s : List Char} (hink : ∀ c ∈ s, isBlank c = false) : trimBlank s = s := by
  have hhalts : Halts isBlank s := fun c hc => hink c (List.mem_of_mem_head? hc)
  have htrim := trimEnd_append (x := []) hink nofun
  rw [List.append_nil] at htrim
  rw [Literal.trimBlank, dropWhile_of_halts hhalts, htrim]

lemma DecimalText.trimBlank {s : List Char} (h : DecimalText s) : trimBlank s = s :=
  trimBlank_of_ink fun c hc => inky_isDecimalChar.not_blank (h.chars c hc)

lemma splitSign_of_unsigned {s : List Char} (h : Halts (fun c => c == '-' || c == '+') s) :
    splitSign s = (false, s) := by
  unfold Literal.splitSign
  split
  · cases h '-' rfl
  · cases h '+' rfl
  · rfl

lemma DecimalText.splitSign {s : List Char} (h : DecimalText s) : splitSign s = (false, s) := by
  obtain ⟨c, cs, rfl, hc⟩ := h.head
  refine splitSign_of_unsigned (halts_cons ?_ cs)
  simp only [Bool.or_eq_false_iff, beq_eq_false_iff_ne]
  refine ⟨?_, ?_⟩
  · rintro rfl
    exact absurd hc (by decide)
  · rintro rfl
    exact absurd hc (by decide)

/-- Digits have one case, in whatever script they are written. -/
lemma toLower_of_isDigit {c : Char} (h : isDigit c = true) : c.toLower = c := by
  by_cases hupper : 'A'.val ≤ c.val ∧ c.val ≤ 'Z'.val
  case pos =>
    have hlow : 65 ≤ c.toNat := hupper.1
    have hhigh : c.toNat ≤ 90 := hupper.2
    have hno : digitValue? c = none := by
      have hten : ¬('0' ≤ c ∧ c ≤ '9') := by
        intro hc
        have hle : c.toNat ≤ 57 := hc.2
        omega
      rw [digitValue?, if_neg hten, if_pos (by omega)]
    rw [isDigit, hno] at h
    cases h
  case neg => exact dif_neg hupper

/-- A decimal number is no word in letters. -/
lemma DecimalText.lower_ne {s : List Char} (h : DecimalText s) {c : Char}
    (hdigit : isDigit c = false) (hpoint : c ≠ '.') (cs : List Char) : lower s ≠ c :: cs := by
  obtain ⟨d, ds, rfl, hd⟩ := h.head
  intro heq
  obtain ⟨rfl, -⟩ := List.cons.inj heq
  rcases hd with hd | rfl
  · rw [toLower_of_isDigit hd, hd] at hdigit
    cases hdigit
  · exact hpoint rfl

/-- A decimal number is read as such: there is no blank around it, no sign in front of it, and it is
no word. -/
lemma DecimalText.decimal? {s : List Char} (h : DecimalText s) :
    decimal? s = unsignedDecimal? s := by
  have hinf : lower s ≠ "inf".toList := h.lower_ne (by decide) (by decide) _
  have hinfinity : lower s ≠ "infinity".toList := h.lower_ne (by decide) (by decide) _
  have hnan : lower s ≠ "nan".toList := h.lower_ne (by decide) (by decide) _
  simp only [Literal.decimal?, h.trimBlank, h.splitSign, hinf, hinfinity, hnan, or_self, if_false,
    Bool.false_eq_true, Option.map_id_fun', id_eq]

/-! ## Literals -/

lemma withoutUnderscores_append (s t : List Char) :
    withoutUnderscores (s ++ t) = withoutUnderscores s ++ withoutUnderscores t :=
  List.filter_append ..

lemma withoutUnderscores_point (s : List Char) :
    withoutUnderscores ('.' :: s) = '.' :: withoutUnderscores s :=
  rfl

lemma withoutUnderscores_of_all {p : Char → Bool} (hp : p '_' = false) {s : List Char}
    (h : ∀ c ∈ s, p c = true) :
    withoutUnderscores s = s := by
  refine List.filter_eq_self.mpr fun c hc => bne_iff_ne.mpr ?_
  rintro rfl
  rw [h _ hc] at hp
  cases hp

lemma isDigit_of_mem_withoutUnderscores {s : List Char} (h : ∀ c ∈ s, isNumeralChar c = true) :
    ∀ c ∈ withoutUnderscores s, isDigit c = true := by
  intro c hc
  obtain ⟨hmem, hne⟩ := List.mem_filter.mp hc
  have hclass := h c hmem
  rw [isNumeralChar, Bool.or_eq_true] at hclass
  rcases hclass with hdigit | hunderscore
  · exact hdigit
  · exact absurd (beq_iff_eq.mp hunderscore) (bne_iff_ne.mp hne)

/-- Without its underscores, a numeral is made of digits, and is not empty. -/
lemma NumeralText.withoutUnderscores {w : List Char} (h : NumeralText w) :
    withoutUnderscores w ≠ [] ∧ ∀ c ∈ withoutUnderscores w, isDigit c = true := by
  obtain ⟨c, cs, rfl, hc, hcs⟩ := h
  have hall : ∀ d ∈ c :: cs, isNumeralChar d = true := by
    intro d hd
    rcases List.mem_cons.mp hd with rfl | hd
    · exact isNumeralChar_of_isDigit hc
    · exact hcs d hd
  have hne : c ≠ '_' := by
    rintro rfl
    exact absurd hc (by decide)
  have hmem : c ∈ Literal.withoutUnderscores (c :: cs) :=
    List.mem_filter.mpr ⟨List.mem_cons_self .., bne_iff_ne.mpr hne⟩
  exact ⟨List.ne_nil_of_mem hmem, isDigit_of_mem_withoutUnderscores hall⟩

lemma withoutUnderscores_exponent {e : List Char} (h : Perhaps ExponentText e) :
    withoutUnderscores e = e :=
  withoutUnderscores_of_all (by decide) (ExponentText.decimal h)

lemma suffix_all {x : List Char} (h : Perhaps SuffixText x) : ∀ c ∈ x, isFloatSuffix c = true := by
  intro c hc
  rcases h with rfl | ⟨d, rfl, hd⟩
  · cases hc
  · obtain rfl := List.mem_singleton.mp hc
    exact hd

lemma withoutUnderscores_suffix {x : List Char} (h : Perhaps SuffixText x) :
    withoutUnderscores x = x :=
  withoutUnderscores_of_all (by decide) (suffix_all h)

/-- Without its underscores, a floating point literal is a decimal number and perhaps a suffix.
There is one case for each form of the literal. -/
lemma DoubleText.split {t : List Char} (h : DoubleText t) :
    ∃ body x, withoutUnderscores t = body ++ x ∧ DecimalText body ∧ Perhaps SuffixText x := by
  cases h with
  | @pointBehind w f e x hw hf he hx =>
    obtain ⟨hne, hdigits⟩ := NumeralText.withoutUnderscores hw
    have hall : ∀ c ∈ withoutUnderscores w ++ withoutUnderscores f, isDigit c = true := by
      intro c hc
      rcases List.mem_append.mp hc with hc | hc
      · exact hdigits c hc
      · exact isDigit_of_mem_withoutUnderscores hf c hc
    refine ⟨_, x, ?_, .pointed hall (List.append_ne_nil_of_left_ne_nil hne _) he, hx⟩
    simp only [withoutUnderscores_append, withoutUnderscores_point, withoutUnderscores_exponent he,
      withoutUnderscores_suffix hx, List.append_assoc, List.cons_append]
  | @pointInFront w e x hw he hx =>
    obtain ⟨hne, hdigits⟩ := NumeralText.withoutUnderscores hw
    refine ⟨_, x, ?_, @DecimalText.pointed [] (withoutUnderscores w) e hdigits hne he, hx⟩
    simp only [withoutUnderscores_append, withoutUnderscores_point, withoutUnderscores_exponent he,
      withoutUnderscores_suffix hx, List.append_assoc, List.cons_append, List.nil_append]
  | @exponent w e x hw he hx =>
    obtain ⟨hne, hdigits⟩ := NumeralText.withoutUnderscores hw
    refine ⟨_, x, ?_, .plain hdigits hne (.inr he), hx⟩
    simp only [withoutUnderscores_append, withoutUnderscores_exponent (.inr he),
      withoutUnderscores_suffix hx, List.append_assoc]
  | @suffix w x hw hx =>
    obtain ⟨hne, hdigits⟩ := NumeralText.withoutUnderscores hw
    refine ⟨_, x, ?_, .plain hdigits hne (.inl rfl), .inr hx⟩
    simp only [withoutUnderscores_append, withoutUnderscores_suffix (.inr hx), List.append_nil]

/-- A text that is, without its underscores, a decimal number and perhaps a suffix has a value, and
it is a number or an infinity. -/
theorem floating_of_split {t body x : List Char} (heq : withoutUnderscores t = body ++ x)
    (hbody : DecimalText body) (hx : Perhaps SuffixText x) :
    ∃ d, floating t = .ok d ∧ d ≠ .nan := by
  have hplain : ∀ c ∈ body, isFloatSuffix c = false := by
    intro c hc
    cases hsuffix : isFloatSuffix c with
    | false => rfl
    | true =>
      have hclass := hbody.chars c hc
      rcases eq_of_isFloatSuffix hsuffix with rfl | rfl | rfl | rfl <;> cases hclass
  have hmark : ∀ c ∈ body ++ x, (c == 'x' || c == 'X') = false := by
    intro c hc
    refine Bool.eq_false_iff.mpr fun hx' => ?_
    rw [Bool.or_eq_true, beq_iff_eq, beq_iff_eq] at hx'
    rcases List.mem_append.mp hc with hc | hc
    · have hclass := hbody.chars c hc
      rcases hx' with rfl | rfl <;> cases hclass
    · have hclass := suffix_all hx c hc
      rcases hx' with rfl | rfl <;> cases hclass
  obtain ⟨d, hd, hne⟩ := hbody.value
  have hdecimal : decimal? (trimEnd isFloatSuffix (body ++ x)) = some d := by
    rw [trimEnd_append hplain (suffix_all hx), hbody.decimal?, hd]
  refine ⟨d, ?_, hne⟩
  -- A text with a mark for hexadecimal numbers would be read differently, but there is none in it.
  unfold floating
  rw [heq]
  split
  case h_1 c rest hform =>
    have hc : (c == 'x' || c == 'X') = false :=
      hmark c (hform ▸ List.mem_cons_of_mem _ (List.mem_cons_self ..))
    rw [hform] at hdecimal
    simp only [hc, Bool.false_eq_true, if_false, hdecimal]
  case h_2 => simp only [hdecimal]

/-- A floating point literal of the grammar has a value, and it is a number or an infinity. -/
theorem floating_of_text {t : List Char} (h : DoubleText t) :
    ∃ d, floating t = .ok d ∧ d ≠ .nan := by
  obtain ⟨body, x, heq, hbody, hx⟩ := DoubleText.split h
  exact floating_of_split heq hbody hx

end Literal

/-! ## Reading a literal -/

namespace Grammar

lemma numeralText_of_numeral? {s w rest : List Char} (h : numeral? s = some (w, rest)) :
    NumeralText w := by
  unfold numeral? at h
  split at h
  · cases h
  · split at h
    case isTrue c cs hc =>
      obtain ⟨rfl, -⟩ := Prod.mk.inj (Option.some.inj h)
      exact ⟨c, _, rfl, hc, fun d hd => List.mem_takeWhile_imp hd⟩
    case isFalse => cases h

lemma signText_sign (s : List Char) : SignText (sign s).1 := by
  unfold sign
  split
  · exact .inr (.inl rfl)
  · exact .inr (.inr rfl)
  · exact .inl rfl

lemma exponentText_of_exponent? {s e rest : List Char} (h : exponent? s = some (e, rest)) :
    ExponentText e := by
  unfold exponent? at h
  split at h
  · cases h
  · split at h
    case isTrue c cs hc =>
      dsimp only at h
      split at h
      · cases h
      case isFalse hne =>
        obtain ⟨rfl, -⟩ := Prod.mk.inj (Option.some.inj h)
        rw [Bool.or_eq_true, beq_iff_eq, beq_iff_eq] at hc
        exact ⟨c, _, _, rfl, hc, signText_sign cs, by simpa using hne,
          fun d hd => List.mem_takeWhile_imp hd⟩
    case isFalse => cases h

lemma suffixText_of_floatSuffix? {s x rest : List Char} (h : floatSuffix? s = some (x, rest)) :
    SuffixText x := by
  unfold floatSuffix? at h
  split at h
  · cases h
  · split at h
    case isTrue c cs hc =>
      obtain ⟨rfl, -⟩ := Prod.mk.inj (Option.some.inj h)
      exact ⟨c, rfl, hc⟩
    case isFalse => cases h

/-- What is read by one reader and then by another falls into two parts. -/
lemma followed_inv {p q : List Char → Option (List Char × List Char)} {s t u : List Char}
    (h : followed p q s = some (t, u)) :
    ∃ a b r, t = a ++ b ∧ p s = some (a, r) ∧ q r = some (b, u) := by
  unfold followed at h
  split at h
  · cases h
  case h_2 a r hp =>
    split at h
    · cases h
    case h_2 b v hq =>
      obtain ⟨rfl, rfl⟩ := Prod.mk.inj (Option.some.inj h)
      exact ⟨a, b, r, rfl, hp, hq⟩

/-- What may be read is empty, or it is what was read. -/
lemma maybe_inv {p : List Char → Option (List Char × List Char)} {P : List Char → Prop}
    (hp : ∀ {s a r}, p s = some (a, r) → P a) {s t u : List Char} (h : maybe p s = some (t, u)) :
    Perhaps P t := by
  unfold maybe optionally at h
  cases hs : p s with
  | none =>
    rw [hs] at h
    obtain ⟨rfl, -⟩ := Prod.mk.inj (Option.some.inj h)
    exact .inl rfl
  | some found =>
    rw [hs] at h
    obtain rfl : found = (t, u) := Option.some.inj h
    exact .inr (hp hs)

/-- Behind its digits, a literal may have an exponent and a suffix. -/
lemma ending_inv {s t u : List Char}
    (h : followed (maybe exponent?) (maybe floatSuffix?) s = some (t, u)) :
    ∃ e x, t = e ++ x ∧ Perhaps ExponentText e ∧ Perhaps SuffixText x := by
  obtain ⟨e, x, r, rfl, he, hx⟩ := followed_inv h
  exact ⟨e, x, rfl, maybe_inv exponentText_of_exponent? he, maybe_inv suffixText_of_floatSuffix? hx⟩

lemma point?_inv {s t u : List Char} (h : point? s = some (t, u)) : t = ['.'] := by
  unfold point? at h
  split at h
  · exact (Prod.mk.inj (Option.some.inj h)).1.symm
  · cases h

/-- What is read as a floating point literal is spelled like one. The four forms are tried one after
another. -/
theorem doubleText_of_doubleToken? {s t rest : List Char} (h : doubleToken? s = some (t, rest)) :
    DoubleText t := by
  unfold doubleToken? at h
  simp only [Option.orElse_eq_some] at h
  rcases h with h | ⟨-, h | ⟨-, h | ⟨-, h⟩⟩⟩
  · obtain ⟨w, _, _, rfl, hw, h⟩ := followed_inv h
    obtain ⟨point, _, _, rfl, hpoint, h⟩ := followed_inv h
    obtain ⟨f, _, _, rfl, hf, h⟩ := followed_inv h
    obtain ⟨e, x, rfl, he, hx⟩ := ending_inv h
    obtain rfl := point?_inv hpoint
    -- The digits behind the point may be missing, so they are no numeral.
    have hall : ∀ d ∈ f, isNumeralChar d = true := by
      obtain ⟨rfl, -⟩ := Prod.mk.inj (Option.some.inj hf)
      exact fun d hd => List.mem_takeWhile_imp hd
    exact @DoubleText.pointBehind w f e x (numeralText_of_numeral? hw) hall he hx
  · obtain ⟨point, _, _, rfl, hpoint, h⟩ := followed_inv h
    obtain ⟨w, _, _, rfl, hw, h⟩ := followed_inv h
    obtain ⟨e, x, rfl, he, hx⟩ := ending_inv h
    obtain rfl := point?_inv hpoint
    exact @DoubleText.pointInFront w e x (numeralText_of_numeral? hw) he hx
  · obtain ⟨w, _, _, rfl, hw, h⟩ := followed_inv h
    obtain ⟨e, x, _, rfl, he, hx⟩ := followed_inv h
    exact .exponent (numeralText_of_numeral? hw) (exponentText_of_exponent? he)
      (maybe_inv suffixText_of_floatSuffix? hx)
  · obtain ⟨w, x, _, rfl, hw, hx⟩ := followed_inv h
    exact .suffix (numeralText_of_numeral? hw) (suffixText_of_floatSuffix? hx)

/-- A marked integer is a zero, a letter and digits of its class. -/
lemma markedToken?_inv {lower upper : Char} {class_ : Char → Bool} {s t rest : List Char}
    (h : markedToken? lower upper class_ s = some (t, rest)) :
    ∃ mark digits, t = '0' :: mark :: digits ∧ (mark = lower ∨ mark = upper) ∧ digits ≠ [] ∧
      ∀ d ∈ digits, class_ d = true := by
  unfold markedToken? at h
  split at h
  case h_1 c cs =>
    split at h
    case isTrue hc =>
      dsimp only at h
      split at h
      · cases h
      case isFalse hne =>
        obtain ⟨rfl, -⟩ := Prod.mk.inj (Option.some.inj h)
        rw [Bool.or_eq_true, beq_iff_eq, beq_iff_eq] at hc
        exact ⟨c, _, rfl, hc, by simpa using hne, fun d hd => List.mem_takeWhile_imp hd⟩
    case isFalse => cases h
  case h_2 => cases h

/-- What is read as an integer literal is spelled like one. -/
theorem integerText_of_integerToken? {s t rest : List Char} (h : integerToken? s = some (t, rest)) :
    IntegerText t := by
  unfold integerToken? at h
  simp only [Option.orElse_eq_some] at h
  rcases h with h | ⟨-, h | ⟨-, h⟩⟩
  · obtain ⟨mark, digits, rfl, hmark, hne, hdigits⟩ := markedToken?_inv h
    exact .hexadecimal hmark hne hdigits
  · obtain ⟨mark, digits, rfl, hmark, hne, hdigits⟩ := markedToken?_inv h
    exact .binary hmark hne hdigits
  · exact .plain (numeralText_of_numeral? h)

end Grammar

end ShapeLint
