import ShapeLint.Proofs.Decoding
import ShapeLint.Proofs.Extent
import ShapeLint.Proofs.Floating
import ShapeLint.Proofs.Overflow

/-!
# Which numerals have a value

The numerals of a source and the texts that can be read as numbers are not the same. `Lacks` lists
what is a numeral of the source and no number: a decimal integer of too many digits, an octal
integer with a letter as its mark, and a hexadecimal floating point number that is too large.
`integer?_eq_none_iff` and `floating_eq_error_iff` say that there is nothing else.
-/

namespace ShapeLint.Java.Numeral

open ShapeLint.Literal
open ShapeLint.Text (isBlank trimEnd)
open ShapeLint.Grammar (Halts halts_cons Perhaps SignText SuffixText ExponentText)

/-! ## Characters -/

/-- Hexadecimal digits have one byte. -/
lemma isHex_small {c : Char} (h : isHex c = true) : c.toNat < 0x80 := by
  simp only [isHex, Char.isDigit, Bool.or_eq_true, Bool.and_eq_true, decide_eq_true_eq, ge_iff_le,
    UInt32.le_iff_toNat_le, Char.le_def] at h
  change c.val.toNat < 0x80
  have hf : 'f'.val.toNat = 102 := rfl
  have hF : 'F'.val.toNat = 70 := rfl
  have h9 : '9'.val.toNat = 57 := rfl
  omega

/-- What holds of all hexadecimal digits is decided by going through the characters of one byte. -/
lemma of_isHex {q : Char → Bool}
    (hq : ∀ n < 0x80, isHex (Char.ofNat n) = true → q (Char.ofNat n) = true) {c : Char}
    (h : isHex c = true) : q c = true := by
  have hc := hq c.toNat (isHex_small h)
  rw [Char.ofNat_toNat] at hc
  exact hc h

/-- Whether a letter marks a radix. -/
def isMark (radix : Nat) (c : Char) : Bool :=
  (radix == 16 && (c == 'x' || c == 'X')) || (radix == 8 && (c == 'o' || c == 'O')) ||
    (radix == 2 && (c == 'b' || c == 'B'))

/-- The digits of a radix: they are hexadecimal digits, they have a value in the radix, and none of
them is the letter that marks it. -/
structure IsRadix (radix : Nat) (p : Char → Bool) : Prop where
  isHex : ∀ c, p c = true → isHex c = true
  value : ∀ c, p c = true → (radixDigit? radix c).isSome = true
  unmarked : ∀ c, p c = true → isMark radix c = false

/-- What a character has to be in a radix if it is one of the digits. -/
def fitsRadix (radix : Nat) (p : Char → Bool) (c : Char) : Bool :=
  !p c || (radixDigit? radix c).isSome && !isMark radix c

/-- All radices, decided by going once through the characters of one byte. -/
lemma fitsRadix_small : ∀ n < 0x80,
    fitsRadix 10 isDecimal (Char.ofNat n) = true ∧ fitsRadix 16 isHex (Char.ofNat n) = true ∧
      fitsRadix 8 isOctal (Char.ofNat n) = true ∧ fitsRadix 2 isBinary (Char.ofNat n) = true := by
  decide +kernel

/-- What is decided of the characters of one byte holds of all digits, since these have one byte. -/
lemma isRadix_of_fitsRadix {radix : Nat} {p : Char → Bool}
    (hp : ∀ c, p c = true → Numeral.isHex c = true)
    (h : ∀ n < 0x80, fitsRadix radix p (Char.ofNat n) = true) : IsRadix radix p := by
  have hboth (c : Char) (hc : p c = true) :
      (radixDigit? radix c).isSome = true ∧ isMark radix c = false := by
    have hfits := h c.toNat (isHex_small (hp c hc))
    rw [Char.ofNat_toNat, fitsRadix, hc] at hfits
    simpa using hfits
  exact ⟨hp, fun c hc => (hboth c hc).1, fun c hc => (hboth c hc).2⟩

lemma isRadix_decimal : IsRadix 10 isDecimal :=
  isRadix_of_fitsRadix (fun c h => by simp_all [isHex, isDecimal])
    fun n hn => (fitsRadix_small n hn).1

lemma isRadix_hex : IsRadix 16 isHex :=
  isRadix_of_fitsRadix (fun _ h => h) fun n hn => (fitsRadix_small n hn).2.1

lemma isHex_of_isOctal {c : Char} (h : isOctal c = true) : isHex c = true := by
  have hdigit : c.isDigit = true := by
    simp only [isOctal, Bool.and_eq_true, decide_eq_true_eq, Char.le_def,
      UInt32.le_iff_toNat_le] at h
    simp only [Char.isDigit, Bool.and_eq_true, decide_eq_true_eq, ge_iff_le, UInt32.le_iff_toNat_le]
    have h7 : '7'.val.toNat = 55 := rfl
    have h9 : '9'.val.toNat = 57 := rfl
    exact ⟨h.1, by omega⟩
  simp [isHex, hdigit]

lemma isRadix_octal : IsRadix 8 isOctal :=
  isRadix_of_fitsRadix (fun _ => isHex_of_isOctal) fun n hn => (fitsRadix_small n hn).2.2.1

lemma isRadix_binary : IsRadix 2 isBinary := by
  refine isRadix_of_fitsRadix (fun c h => ?_) fun n hn => (fitsRadix_small n hn).2.2.2
  obtain rfl | rfl : c = '0' ∨ c = '1' := by simpa [isBinary] using h
  · rfl
  · rfl

/-! ## Digits -/

section

variable {radix : Nat} {p : Char → Bool} {ds : List Char}

/-- Digits are nothing that is cut off from a numeral or taken for something else. -/
lemma isHex_plain {c : Char} (h : isHex c = true) :
    isBlank c = false ∧ c ∉ ['-', '+', '_', '.', 'l', 'L', 'p', 'P', 'x', 'X', 'o', 'O'] ∧
      isSimple c = true := by
  have hq := @of_isHex (fun c => !isBlank c &&
    !(['-', '+', '_', '.', 'l', 'L', 'p', 'P', 'x', 'X', 'o', 'O'].contains c) &&
      isSimple c) (by decide +kernel) c h
  simpa [and_assoc] using hq

lemma IsRadix.ne (h : IsRadix radix p) {c d : Char} (hc : p c = true)
    (hd : d ∈ ['-', '+', '_', '.', 'l', 'L', 'p', 'P', 'x', 'X', 'o', 'O']) : c ≠ d :=
  fun heq => (isHex_plain (h.isHex c hc)).2.1 (heq ▸ hd)

/-- Of digits with underscores among them, digits are left, and at least one. -/
lemma Digits.without (h : Digits p ds) (hp : p '_' = false) :
    withoutUnderscores ds ≠ [] ∧ ∀ c ∈ withoutUnderscores ds, p c = true := by
  obtain ⟨hall, d, hd, hpd⟩ := h
  have hne : d ≠ '_' := by
    rintro rfl
    rw [hp] at hpd
    cases hpd
  refine ⟨List.ne_nil_of_mem (List.mem_filter.2 ⟨hd, bne_iff_ne.2 hne⟩), fun c hc => ?_⟩
  obtain ⟨hmem, hc⟩ := List.mem_filter.1 hc
  exact (hall c hmem).resolve_right (bne_iff_ne.1 hc)

/-- The digits of a radix denote a number in it. -/
lemma IsRadix.readDigits (h : IsRadix radix p) (hds : ∀ c ∈ ds, p c = true) (acc : Nat) :
    ∃ n, readDigits radix acc ds = some n :=
  exists_readDigits (fun c hc => h.value c (hds c hc)) acc

/-- Digits start with no mark, so none is dropped. -/
lemma IsRadix.dropMark (h : IsRadix radix p) (hds : ∀ c ∈ ds, p c = true) :
    dropMark radix ds = ds := by
  unfold Literal.dropMark
  split
  case h_1 c rest =>
    have hmark : isMark radix c = false := h.unmarked c (hds c (by simp))
    exact if_neg (Bool.eq_false_iff.1 hmark)
  case h_2 => rfl

/-- Digits are read as the number that they denote, unless they are decimal ones and too many.
Nothing is cut off from them before. -/
theorem IsRadix.readInteger?_eq (h : IsRadix radix p) (hne : ds ≠ []) (hds : ∀ c ∈ ds, p c = true) :
    readInteger? radix ds =
      if radix = 10 ∧ maxDecimalDigits < ds.length then none
      else (Literal.readDigits radix 0 ds).map Int.ofNat := by
  have htrim : trimBlank ds = ds :=
    trimBlank_of_ink fun c hc => (isHex_plain (h.isHex c (hds c hc))).1
  have hsign : splitSign ds = (false, ds) := by
    refine splitSign_of_unsigned fun c hc => ?_
    have hc := hds c (List.mem_of_mem_head? hc)
    simp [h.ne hc (d := '-') (by simp), h.ne hc (d := '+') (by simp)]
  unfold readInteger?
  rw [htrim, hsign]
  dsimp only
  rw [h.dropMark hds, digitsValue?, List.isEmpty_eq_false_iff.2 hne]
  cases Literal.readDigits radix 0 ds <;> rfl

lemma IsRadix.readInteger?_eq_none_iff (h : IsRadix radix p) (hne : ds ≠ [])
    (hds : ∀ c ∈ ds, p c = true) :
    readInteger? radix ds = none ↔ radix = 10 ∧ maxDecimalDigits < ds.length := by
  obtain ⟨n, hn⟩ := h.readDigits hds 0
  rw [h.readInteger?_eq hne hds, hn]
  split
  case isTrue hlong => exact iff_of_true rfl hlong
  case isFalse hshort => exact iff_of_false (Option.some_ne_none _) hshort

end

/-! ## Integers -/

lemma longText_all {x : List Char} (h : Perhaps LongText x) :
    withoutUnderscores x = x ∧ ∀ c ∈ x, (c == 'l' || c == 'L') = true := by
  obtain rfl | ⟨c, rfl, rfl | rfl⟩ := h
  · exact ⟨rfl, nofun⟩
  · exact ⟨rfl, by simp⟩
  · exact ⟨rfl, by simp⟩

/-- An integer is read from its digits alone: underscores are taken out and the suffix is cut
off. -/
lemma integerDigits_eq {w x : List Char} (hw : ∀ c ∈ withoutUnderscores w, c ≠ 'l' ∧ c ≠ 'L')
    (hx : Perhaps LongText x) :
    trimEnd (fun c => c == 'l' || c == 'L') (withoutUnderscores (w ++ x)) =
      withoutUnderscores w := by
  rw [withoutUnderscores_append, (longText_all hx).1]
  exact trimEnd_append (fun c hc => by simp [hw c hc]) (longText_all hx).2

lemma WholeText.digits {w : List Char} (h : WholeText w) : Digits isDecimal w := by
  obtain rfl | ⟨c, u, rfl, hc, -, hu⟩ := h
  · exact .cons rfl nofun
  · exact .cons hc hu

/-- A decimal integer starts with no zero, unless it is one. So it is not read as an octal one. -/
lemma WholeText.not_octal {w : List Char} (h : WholeText w) (c : Char) (rest : List Char) :
    withoutUnderscores w ≠ '0' :: c :: rest := by
  intro heq
  obtain rfl | ⟨d, u, rfl, hd, hzero, -⟩ := h
  · cases heq
  · have hne : d ≠ '_' := by
      rintro rfl
      cases hd
    rw [withoutUnderscores, List.filter_cons_of_pos (by simpa using hne)] at heq
    exact hzero (List.cons.inj heq).1

/-- Of digits with underscores among them, the digits are left. -/
lemma Digits.filter_eq {p : Char → Bool} (hp : p '_' = false) {w : List Char} (h : Digits p w) :
    w.filter p = withoutUnderscores w := by
  refine List.filter_congr fun c hc => ?_
  obtain hpc | rfl := h.1 c hc
  · rw [hpc]
    refine (bne_iff_ne.2 ?_).symm
    rintro rfl
    rw [hp] at hpc
    cases hpc
  · rw [hp]
    rfl

/-- A decimal integer is read from its digits. -/
theorem integer?_decimal {w x : List Char} (hall : ∀ c ∈ withoutUnderscores w, isDecimal c = true)
    (hoctal : ∀ c rest, withoutUnderscores w ≠ '0' :: c :: rest) (hx : Perhaps LongText x) :
    integer? (w ++ x) = readInteger? 10 (withoutUnderscores w) := by
  have hlong : ∀ c ∈ withoutUnderscores w, c ≠ 'l' ∧ c ≠ 'L' := fun c hc =>
    ⟨isRadix_decimal.ne (hall c hc) (by simp), isRadix_decimal.ne (hall c hc) (by simp)⟩
  have hdigits := integerDigits_eq hlong hx
  unfold integer?
  rw [hdigits]
  dsimp only
  split
  case h_1 c rest heq => exact absurd heq (hoctal c rest)
  case h_2 => rfl

/-- A decimal integer has no value exactly if it has too many digits. -/
lemma integer?_decimal_eq_none_iff {w x : List Char} (hw : WholeText w) (hx : Perhaps LongText x) :
    integer? (w ++ x) = none ↔ maxDecimalDigits < ((w ++ x).filter isDecimal).length := by
  obtain ⟨hne, hall⟩ := hw.digits.without rfl
  have hsuffix : x.filter isDecimal = [] := by
    obtain rfl | ⟨c, rfl, rfl | rfl⟩ := hx <;> rfl
  have hcount : (w ++ x).filter isDecimal = withoutUnderscores w := by
    rw [List.filter_append, hsuffix, List.append_nil, hw.digits.filter_eq rfl]
  rw [hcount, integer?_decimal hall hw.not_octal hx]
  simpa using isRadix_decimal.readInteger?_eq_none_iff hne hall

/-- An integer after a mark is read from the digits behind it. The letter for octal integers is no
mark for what reads them, and is read as a digit. -/
lemma integer?_marked {mark w x : List Char} {c : Char} (hmark : mark = ['0', c])
    (hc : c ∉ ['_', 'l', 'L']) (hw : ∀ c ∈ withoutUnderscores w, c ≠ 'l' ∧ c ≠ 'L')
    (hx : Perhaps LongText x) :
    integer? (mark ++ (w ++ x)) =
      if c == 'x' || c == 'X' then readInteger? 16 (withoutUnderscores w)
      else if c == 'b' || c == 'B' then readInteger? 2 (withoutUnderscores w)
      else readInteger? 8 (c :: withoutUnderscores w) := by
  subst hmark
  have hfront : withoutUnderscores (['0', c] ++ w) = '0' :: c :: withoutUnderscores w := by
    simp only [withoutUnderscores, List.cons_append, List.nil_append]
    rw [List.filter_cons_of_pos rfl,
      List.filter_cons_of_pos (by simpa using fun h => hc (by simp [h]))]
  -- Nothing in front of the suffix could be cut off with it.
  have hlong : ∀ d ∈ withoutUnderscores (['0', c] ++ w), d ≠ 'l' ∧ d ≠ 'L' := by
    rw [hfront]
    refine List.forall_mem_cons.2 ⟨by decide, List.forall_mem_cons.2 ⟨⟨?_, ?_⟩, hw⟩⟩
    · rintro rfl
      simp at hc
    · rintro rfl
      simp at hc
  have hdigits := integerDigits_eq hlong hx
  unfold integer?
  rw [← List.append_assoc, hdigits, hfront]
  rfl

/-- Digits in a radix that is not decimal are read. -/
lemma IsRadix.readInteger?_ne_none {radix : Nat} {p : Char → Bool} (h : IsRadix radix p)
    (hradix : radix ≠ 10) {ds : List Char} (hne : ds ≠ []) (hds : ∀ c ∈ ds, p c = true) :
    readInteger? radix ds ≠ none := by
  rw [Ne, h.readInteger?_eq_none_iff hne hds]
  exact fun hlong => hradix hlong.1

lemma Digits.not_long {radix : Nat} {p : Char → Bool} (h : IsRadix radix p) (hp : p '_' = false)
    {w : List Char} (hw : Digits p w) : ∀ c ∈ withoutUnderscores w, c ≠ 'l' ∧ c ≠ 'L' := by
  intro c hc
  have hc := (hw.without hp).2 c hc
  exact ⟨h.ne hc (by simp), h.ne hc (by simp)⟩

/-- An octal integer is read from the digits behind its zero. -/
theorem integer?_octal {w x : List Char} (hw : Digits isOctal w) (hx : Perhaps LongText x) :
    integer? ('0' :: (w ++ x)) = readInteger? 8 (withoutUnderscores w) := by
  obtain ⟨hne, hall⟩ := hw.without rfl
  have hfront : withoutUnderscores ('0' :: w) = '0' :: withoutUnderscores w :=
    List.filter_cons_of_pos rfl
  have hlong : ∀ c ∈ withoutUnderscores ('0' :: w), c ≠ 'l' ∧ c ≠ 'L' := by
    rw [hfront]
    exact List.forall_mem_cons.2 ⟨by decide, hw.not_long isRadix_octal rfl⟩
  have hdigits := integerDigits_eq hlong hx
  obtain ⟨d, ds, hds⟩ := List.exists_cons_of_ne_nil hne
  have hd : isOctal d = true := hall d (by simp [hds])
  unfold integer?
  rw [← List.cons_append, hdigits, hfront, hds]
  -- The digit behind the zero is no mark of another radix.
  have hx : (d == 'x' || d == 'X') = false := by
    simp [isRadix_octal.ne hd (d := 'x'), isRadix_octal.ne hd (d := 'X')]
  have hb : (d == 'b' || d == 'B') = false := by
    simp only [Bool.or_eq_false_iff, beq_eq_false_iff_ne]
    constructor
    · rintro rfl
      cases hd
    · rintro rfl
      cases hd
  simp [hx, hb]

/-- No octal digit is a letter, so an octal integer with a letter in front is not read. -/
lemma readInteger?_letter {c : Char} (hc : c = 'o' ∨ c = 'O') {ds : List Char}
    (hds : ∀ d ∈ ds, isOctal d = true) :
    readInteger? 8 (c :: ds) = none := by
  have hink : ∀ d ∈ c :: ds, isBlank d = false := by
    refine List.forall_mem_cons.2
      ⟨?_, fun d hd => (isHex_plain (isRadix_octal.isHex d (hds d hd))).1⟩
    obtain rfl | rfl := hc <;> decide
  have hsign : splitSign (c :: ds) = (false, c :: ds) :=
    splitSign_of_unsigned (halts_cons (by obtain rfl | rfl := hc <;> rfl) ds)
  have hmark : Literal.dropMark 8 (c :: ds) = c :: ds := by
    unfold Literal.dropMark
    split
    case h_1 heq =>
      obtain ⟨rfl, -⟩ := List.cons.inj heq
      exact absurd hc (by decide)
    case h_2 => rfl
  -- The letter is no octal digit, and nothing takes it away before.
  have hdigit : radixDigit? 8 c = none := by
    obtain rfl | rfl := hc <;> decide
  unfold readInteger?
  rw [trimBlank_of_ink hink, hsign]
  dsimp only
  rw [hmark]
  simp [digitsValue?, Literal.readDigits, hdigit]

/-! ## Decimal floating point numbers -/

lemma isDigit_of_isDecimal {c : Char} (h : isDecimal c = true) : Text.isDigit c = true := by
  rw [← isSome_radixDigit?]
  exact isRadix_decimal.value c h

lemma without_perhaps {p : Char → Bool} (hp : p '_' = false) {w : List Char}
    (h : Perhaps (Digits p) w) :
    ∀ c ∈ withoutUnderscores w, p c = true := by
  obtain rfl | h := h
  · exact fun c hc => nomatch hc
  · exact (h.without hp).2

/-- If there are digits before or behind the point, some are left without underscores. -/
lemma without_ne_nil {p : Char → Bool} (hp : p '_' = false) {whole fraction : List Char}
    (hwhole : Perhaps (Digits p) whole) (hfraction : Perhaps (Digits p) fraction)
    (hne : whole ++ fraction ≠ []) :
    withoutUnderscores whole ++ withoutUnderscores fraction ≠ [] := by
  obtain rfl | hwhole := hwhole
  · obtain rfl | hfraction := hfraction
    · exact absurd rfl hne
    · exact (hfraction.without hp).1
  · exact List.append_ne_nil_of_left_ne_nil (hwhole.without hp).1 _

/-- Without its underscores, an exponent is a letter, perhaps a sign, and digits. -/
lemma PowerText.without {lower upper : Char} (hlower : lower ≠ '_') (hupper : upper ≠ '_')
    {e : List Char} (h : PowerText lower upper e) :
    ∃ c sign digits, withoutUnderscores e = c :: (sign ++ digits) ∧ (c = lower ∨ c = upper) ∧
      SignText sign ∧ digits ≠ [] ∧ ∀ d ∈ digits, isDecimal d = true := by
  obtain ⟨c, sign, digits, rfl, hc, hsign, hdigits⟩ := h
  obtain ⟨hne, hall⟩ := hdigits.without rfl
  refine ⟨c, sign, withoutUnderscores digits, ?_, hc, hsign, hne, hall⟩
  have hcne : c ≠ '_' := hc.elim (fun h => h ▸ hlower) fun h => h ▸ hupper
  have hsame : withoutUnderscores sign = sign := by
    obtain rfl | rfl | rfl := hsign <;> rfl
  rw [withoutUnderscores, List.filter_cons_of_pos (by simpa using hcne), ← withoutUnderscores,
    withoutUnderscores_append, hsame]

lemma exponentText_without {e : List Char} (h : Perhaps (PowerText 'e' 'E') e) :
    Perhaps ExponentText (withoutUnderscores e) := by
  obtain rfl | h := h
  · exact .inl rfl
  · obtain ⟨c, sign, digits, heq, hc, hsign, hne, hall⟩ := h.without (by decide) (by decide)
    exact .inr ⟨c, sign, digits, heq, hc, hsign, hne, fun d hd => isDigit_of_isDecimal (hall d hd)⟩

/-- Decimal floating point numbers have values, be they ever so large. -/
lemma floating_decimal {w : List Char} (h : DecimalFloatText w) :
    ∃ d, Literal.floating w = .ok d := by
  have hdigits {w : List Char} (h : ∀ c ∈ withoutUnderscores w, isDecimal c = true) :
      ∀ c ∈ withoutUnderscores w, Text.isDigit c = true := fun c hc => isDigit_of_isDecimal (h c hc)
  cases h with
  | @pointed whole fraction e x hwhole hfraction hne he hx =>
    have hall : ∀ c ∈ withoutUnderscores whole ++ withoutUnderscores fraction,
        Text.isDigit c = true :=
      List.forall_mem_append.2
        ⟨hdigits (without_perhaps rfl hwhole), hdigits (without_perhaps rfl hfraction)⟩
    have hsome := without_ne_nil rfl hwhole hfraction hne
    -- Underscores are taken out part by part, and none is in the suffix.
    have heq : withoutUnderscores (whole ++ '.' :: (fraction ++ (e ++ x))) =
        (withoutUnderscores whole ++
          '.' :: (withoutUnderscores fraction ++ withoutUnderscores e)) ++ x := by
      simp only [withoutUnderscores_append, withoutUnderscores_point, withoutUnderscores_suffix hx,
        List.append_assoc, List.cons_append]
    obtain ⟨d, hd, -⟩ := floating_of_split heq (.pointed hall hsome (exponentText_without he)) hx
    exact ⟨d, hd⟩
  | @plain whole e x hwhole he hx =>
    obtain ⟨hne, hall⟩ := hwhole.digits.without rfl
    have heq : withoutUnderscores (whole ++ (e ++ x)) =
        (withoutUnderscores whole ++ withoutUnderscores e) ++ x := by
      simp only [withoutUnderscores_append, withoutUnderscores_suffix hx, List.append_assoc]
    obtain ⟨d, hd, -⟩ :=
      floating_of_split heq (.plain (hdigits hall) hne (exponentText_without he)) hx
    exact ⟨d, hd⟩

/-! ## Hexadecimal floating point numbers -/

/-- A hexadecimal floating point numeral without underscores is the number `n * 2 ^ e`. The number
is that of the digits around the point, and each digit behind it takes four from the exponent. -/
inductive HexNumber : List Char → Nat → Int → Prop where
  | of {mark letter : Char} {whole point fraction sign digits x : List Char} {n m : Nat} :
      (mark = 'x' ∨ mark = 'X') →
      (∀ c ∈ whole ++ fraction, isHex c = true) → whole ++ fraction ≠ [] →
      (point = ['.'] ∨ point = [] ∧ fraction = []) →
      (letter = 'p' ∨ letter = 'P') → SignText sign →
      digits ≠ [] → (∀ c ∈ digits, isDecimal c = true) →
      Perhaps SuffixText x →
      readDigits 16 0 (whole ++ fraction) = some n → readDigits 10 0 digits = some m →
      HexNumber ('0' :: mark :: (whole ++ (point ++ (fraction ++ letter :: (sign ++ digits))) ++ x))
        n ((if sign = ['-'] then -(m : Int) else m) - 4 * fraction.length)

/-- Every hexadecimal floating point numeral is such a number. -/
lemma exists_hexNumber {w : List Char} (h : HexFloatText w) :
    ∃ n e, HexNumber (withoutUnderscores w) n e := by
  obtain ⟨_, whole, point, fraction, e, x, rfl, ⟨mark, rfl, hmark⟩,
    ⟨hwhole, hfraction, hne, hpoint⟩, he, hx⟩ := h
  obtain ⟨letter, sign, digits, hsplit, hletter, hsign, hsome, hdigits⟩ :=
    he.without (by decide) (by decide)
  have hall : ∀ c ∈ withoutUnderscores whole ++ withoutUnderscores fraction, isHex c = true :=
    List.forall_mem_append.2 ⟨without_perhaps rfl hwhole, without_perhaps rfl hfraction⟩
  have hany := without_ne_nil rfl hwhole hfraction hne
  obtain ⟨n, hn⟩ := isRadix_hex.readDigits hall 0
  obtain ⟨m, hm⟩ := isRadix_decimal.readDigits hdigits 0
  -- Without a point there are no digits behind it either.
  have hpoint' : withoutUnderscores point = ['.'] ∨
      withoutUnderscores point = [] ∧ withoutUnderscores fraction = [] := by
    obtain rfl | ⟨rfl, rfl⟩ := hpoint
    · exact .inl rfl
    · exact .inr ⟨rfl, rfl⟩
  have heq : withoutUnderscores (['0', mark] ++ (whole ++ (point ++ (fraction ++ (e ++ x))))) =
      '0' :: mark :: (withoutUnderscores whole ++ (withoutUnderscores point ++
        (withoutUnderscores fraction ++ letter :: (sign ++ digits))) ++ x) := by
    have hfront : withoutUnderscores ['0', mark] = ['0', mark] := by
      obtain rfl | rfl := hmark <;> rfl
    rw [withoutUnderscores_append, hfront]
    simp only [withoutUnderscores_append, hsplit, withoutUnderscores_suffix hx, List.append_assoc,
      List.cons_append, List.nil_append]
  rw [heq]
  exact ⟨n, _, .of hmark hall hany hpoint' hletter hsign hsome hdigits hx hn hm⟩

/-- The hexadecimal digits in front of what does not start with one are split off. -/
lemma spanHex_append {ds rest : List Char} (hds : ∀ c ∈ ds, isHex c = true)
    (hrest : Halts (fun c => decide (c.toNat < 0x80) && (radixDigit? 16 c).isSome) rest) :
    spanHex (ds ++ rest) = (ds, rest) := by
  have hall : ∀ c ∈ ds, (decide (c.toNat < 0x80) && (radixDigit? 16 c).isSome) = true := by
    intro c hc
    simp [isHex_small (hds c hc), isRadix_hex.value c (hds c hc)]
  rw [spanHex, List.span_eq_takeWhile_dropWhile, Grammar.takeWhile_append_of_halts hall hrest,
    Grammar.dropWhile_append_of_halts hall hrest]

lemma splitSign_signed {sign digits : List Char} (hsign : SignText sign)
    (hdigits : ∀ c ∈ digits, isDecimal c = true) :
    splitSign (sign ++ digits) = (decide (sign = ['-']), digits) := by
  obtain rfl | rfl | rfl := hsign
  · refine splitSign_of_unsigned fun c hc => ?_
    have hc := hdigits c (List.mem_of_mem_head? hc)
    simp [isRadix_decimal.ne hc (d := '-') (by simp), isRadix_decimal.ne hc (d := '+') (by simp)]
  · rfl
  · rfl

/-- A binary exponent is read with its sign. -/
lemma binaryExponent?_eq {letter : Char} {sign digits : List Char} {m : Nat}
    (hletter : letter = 'p' ∨ letter = 'P') (hsign : SignText sign) (hne : digits ≠ [])
    (hdigits : ∀ c ∈ digits, isDecimal c = true) (hm : readDigits 10 0 digits = some m) :
    binaryExponent? (letter :: (sign ++ digits)) =
      some (if sign = ['-'] then -(m : Int) else m) := by
  have hmark : (letter == 'p' || letter == 'P') = true := by
    obtain rfl | rfl := hletter <;> rfl
  have hascii : (digits.all fun d => '0' ≤ d && d ≤ '9') = true := by
    refine List.all_eq_true.2 fun d hd => ?_
    have hd := hdigits d hd
    simpa [isDecimal, Char.isDigit, Char.le_def] using hd
  simp [binaryExponent?, hmark, splitSign_signed hsign hdigits, hascii, digitsValue?, hne, hm]

/-- The characters of a hexadecimal floating point numeral between its mark and its suffix are read
as its number, which may be too large. -/
lemma hexadecimal?_eq {letter : Char} {whole point fraction sign digits : List Char} {n m : Nat}
    (hall : ∀ c ∈ whole ++ fraction, isHex c = true) (hsome : whole ++ fraction ≠ [])
    (hpoint : point = ['.'] ∨ point = [] ∧ fraction = []) (hletter : letter = 'p' ∨ letter = 'P')
    (hsign : SignText sign) (hne : digits ≠ []) (hdigits : ∀ c ∈ digits, isDecimal c = true)
    (hn : readDigits 16 0 (whole ++ fraction) = some n) (hm : readDigits 10 0 digits = some m) :
    hexadecimal? (whole ++ (point ++ (fraction ++ letter :: (sign ++ digits)))) =
      match Double.ofBinary? n ((if sign = ['-'] then -(m : Int) else m) - 4 * fraction.length) with
      | some d => .ok d
      | none => .error .overflow := by
  obtain ⟨hwhole, hfraction⟩ := List.forall_mem_append.1 hall
  have hink : ∀ c ∈ whole ++ (point ++ (fraction ++ letter :: (sign ++ digits))),
      (decide (c.toNat < 0x80) && isBlank c) = false := by
    have hhex {ds : List Char} (hds : ∀ c ∈ ds, isHex c = true) (c : Char) (hc : c ∈ ds) :
        (decide (c.toNat < 0x80) && isBlank c) = false := by
      rw [(isHex_plain (hds c hc)).1, Bool.and_false]
    simp only [List.forall_mem_append, List.forall_mem_cons]
    refine ⟨hhex hwhole, ?_, hhex hfraction, ?_, ?_,
      hhex fun c hc => isRadix_decimal.isHex c (hdigits c hc)⟩
    · obtain rfl | ⟨rfl, -⟩ := hpoint <;> decide
    · obtain rfl | rfl := hletter <;> decide
    · obtain rfl | rfl | rfl := hsign <;> decide
  have htrim := trimEnd_append (x := []) hink nofun
  rw [List.append_nil] at htrim
  have hexponent := binaryExponent?_eq hletter hsign hne hdigits hm
  have hhalts : Halts (fun c => decide (c.toNat < 0x80) && (radixDigit? 16 c).isSome)
      (letter :: (sign ++ digits)) :=
    halts_cons (by obtain rfl | rfl := hletter <;> decide) _
  have hempty : (whole.isEmpty && fraction.isEmpty) = false := by
    simpa [List.append_eq_nil_iff] using hsome
  unfold hexadecimal?
  rw [htrim]
  -- With a point, the digits behind it are split off as well; without one, the exponent follows at
  -- once.
  obtain rfl | ⟨rfl, rfl⟩ := hpoint
  · have hdot : Halts (fun c => decide (c.toNat < 0x80) && (radixDigit? 16 c).isSome)
        (['.'] ++ (fraction ++ letter :: (sign ++ digits))) := halts_cons (by decide) _
    rw [spanHex_append hwhole hdot]
    simp only [List.cons_append, List.nil_append, spanHex_append hfraction hhalts, hempty, hn,
      hexponent]
    rfl
  · rw [List.nil_append, List.nil_append, spanHex_append hwhole hhalts]
    have hnopoint : ∀ rest, letter :: (sign ++ digits) ≠ '.' :: rest := by
      intro rest heq
      obtain ⟨rfl, -⟩ := List.cons.inj heq
      exact absurd hletter (by decide)
    simp only [hempty, hn, hexponent]
    rfl

lemma isFloatSuffix_of_isDecimal {c : Char} (h : isDecimal c = true) : isFloatSuffix c = false := by
  refine Bool.eq_false_iff.2 fun hsuffix => ?_
  obtain rfl | rfl | rfl | rfl := Grammar.eq_of_isFloatSuffix hsuffix <;> cases h

/-- One suffix is cut off, and none from a text that ends in a digit. Some suffixes are hexadecimal
digits, but the last character before the suffix belongs to the exponent. -/
lemma dropSuffix_eq {text x : List Char} {d : Char} (hd : isDecimal d = true)
    (hx : Perhaps SuffixText x) :
    (if (((text ++ [d]) ++ x).getLast?.map isFloatSuffix).getD false then
      ((text ++ [d]) ++ x).dropLast
    else (text ++ [d]) ++ x) = text ++ [d] := by
  obtain rfl | ⟨c, rfl, hc⟩ := hx
  · rw [List.append_nil, List.getLast?_concat]
    exact if_neg (by simp [isFloatSuffix_of_isDecimal hd])
  · rw [List.getLast?_concat, List.dropLast_concat]
    exact if_pos hc

/-- A hexadecimal floating point numeral has a value unless it is too large. -/
lemma HexNumber.floating_eq {w : List Char} {n : Nat} {e : Int}
    (h : HexNumber (withoutUnderscores w) n e) :
    Literal.floating w =
      match Double.ofBinary? n e with
      | some d => .ok d
      | none => .error .overflow := by
  generalize htext : withoutUnderscores w = text at h
  cases h with
  | @of mark letter whole point fraction sign digits x n m hmark hall hsome hpoint hletter hsign hne
      hdigits hx hn hm =>
    rw [← hexadecimal?_eq hall hsome hpoint hletter hsign hne hdigits hn hm]
    have hmark' : (mark == 'x' || mark == 'X') = true := by
      obtain rfl | rfl := hmark <;> rfl
    -- The last digit of the exponent is no suffix, though it may look like part of one.
    obtain ⟨front, d, rfl⟩ := (List.eq_nil_or_concat digits).resolve_left hne
    rw [List.concat_eq_append] at hdigits htext ⊢
    have hd : isDecimal d = true := hdigits d (by simp)
    have hbody := @dropSuffix_eq
      (mark :: (whole ++ (point ++ (fraction ++ letter :: (sign ++ front))))) x d hd hx
    have hshape : (mark :: (whole ++ (point ++ (fraction ++ letter :: (sign ++ front))))) ++ [d] =
        mark :: (whole ++ (point ++ (fraction ++ letter :: (sign ++ (front ++ [d]))))) := by
      simp
    rw [hshape, List.cons_append] at hbody
    unfold Literal.floating
    rw [htext]
    refine (if_pos hmark').trans ?_
    dsimp only
    rw [hbody]
    rfl

/-! ## Numerals without a value -/

/-- The types of integers. -/
def integerTypes : List String :=
  ["decimal_integer_literal", "hex_integer_literal", "octal_integer_literal",
    "binary_integer_literal"]

/-- The types of floating point numbers. -/
def floatTypes : List String :=
  ["decimal_floating_point_literal", "hex_floating_point_literal"]

/-- A numeral of a type has no value, for a reason: a decimal integer has too many digits, an octal
integer has a letter for a mark, or a hexadecimal floating point number is too large. -/
def Lacks (type : String) (w : List Char) (e : NumeralError) : Prop :=
  type = "decimal_integer_literal" ∧ maxDecimalDigits < (w.filter isDecimal).length ∧
    e = .malformed ∨
    type = "octal_integer_literal" ∧ (∃ c rest, w = '0' :: c :: rest ∧ (c = 'o' ∨ c = 'O')) ∧
      e = .malformed ∨
    type = "hex_floating_point_literal" ∧
      (∃ n x, HexNumber (withoutUnderscores w) n x ∧ Double.TooLarge n x) ∧ e = .overflow

/-- Digits that are not decimal have a value, however many they are. -/
lemma Digits.integer?_ne_none {radix : Nat} {p : Char → Bool} (h : IsRadix radix p)
    (hradix : radix ≠ 10) (hp : p '_' = false) {w : List Char} (hw : Digits p w) :
    readInteger? radix (withoutUnderscores w) ≠ none :=
  have ⟨hne, hall⟩ := hw.without hp
  h.readInteger?_ne_none hradix hne hall

lemma Digits.not_letter {w : List Char} (hw : Digits isOctal w) (x : List Char) {c : Char}
    {rest : List Char} (heq : w ++ x = c :: rest) : ¬(c = 'o' ∨ c = 'O') := by
  obtain ⟨d, ds, rfl⟩ := List.exists_cons_of_ne_nil hw.ne_nil
  obtain rfl : d = c := (List.cons.inj heq).1
  rintro (rfl | rfl)
  · exact absurd (hw.1 _ (List.mem_cons_self ..)) (by decide)
  · exact absurd (hw.1 _ (List.mem_cons_self ..)) (by decide)

/-- The integers that cannot be read, one case for each form of a numeral. -/
theorem integer?_eq_none_iff {type : String} {w : List Char} (h : NumeralText type w)
    (htype : type ∈ integerTypes) :
    integer? w = none ↔ Lacks type w .malformed := by
  cases h with
  | decimal hw hx =>
    rw [integer?_decimal_eq_none_iff hw hx]
    simp [Lacks]
  | @hex _ w x hmark hw hx =>
    obtain ⟨c, rfl, hc⟩ := hmark
    refine iff_of_false ?_ (by simp [Lacks])
    have hread := hw.integer?_ne_none isRadix_hex (by decide) rfl
    rw [integer?_marked rfl (by obtain rfl | rfl := hc <;> decide) (hw.not_long isRadix_hex rfl) hx]
    obtain rfl | rfl := hc <;> exact hread
  | @octal w x hw hx =>
    refine iff_of_false ?_ ?_
    · rw [integer?_octal hw hx]
      exact hw.integer?_ne_none isRadix_octal (by decide) rfl
    rintro (⟨h, -⟩ | ⟨-, ⟨c, rest, heq, hc⟩, -⟩ | ⟨h, -⟩)
    · exact absurd h (by decide)
    · exact hw.not_letter x (List.cons.inj heq).2 hc
    · exact absurd h (by decide)
  -- A marked octal integer is read as if the letter were a digit, so it never has a value.
  | @marked _ w x hmark hw hx =>
    obtain ⟨c, rfl, hc⟩ := hmark
    refine iff_of_true ?_ (.inr (.inl ⟨rfl, ⟨c, w ++ x, rfl, hc⟩, rfl⟩))
    have hread := readInteger?_letter hc (hw.without rfl).2
    rw [integer?_marked rfl (by obtain rfl | rfl := hc <;> decide)
      (hw.not_long isRadix_octal rfl) hx]
    obtain rfl | rfl := hc <;> exact hread
  | @binary _ w x hmark hw hx =>
    obtain ⟨c, rfl, hc⟩ := hmark
    refine iff_of_false ?_ (by simp [Lacks])
    have hread := hw.integer?_ne_none isRadix_binary (by decide) rfl
    rw [integer?_marked rfl (by obtain rfl | rfl := hc <;> decide)
      (hw.not_long isRadix_binary rfl) hx]
    obtain rfl | rfl := hc <;> exact hread
  | float => exact absurd htype (by decide)
  | hexFloat => exact absurd htype (by decide)

/-- The floating point numbers that cannot be read. Decimal ones all can. -/
theorem floating_eq_error_iff {type : String} {w : List Char} (h : NumeralText type w)
    (htype : type ∈ floatTypes) (e : NumeralError) :
    Literal.floating w = .error e ↔ Lacks type w e := by
  cases h with
  | float hw =>
    obtain ⟨d, hd⟩ := floating_decimal hw
    rw [hd]
    exact iff_of_false nofun (by simp [Lacks])
  | hexFloat hw =>
    have hlacks : Lacks "hex_floating_point_literal" w e ↔
        (∃ n x, HexNumber (withoutUnderscores w) n x ∧ Double.TooLarge n x) ∧ e = .overflow := by
      simp [Lacks]
    rw [hlacks]
    constructor
    · intro herror
      -- The number is fixed by the text, so it may be taken from either side.
      obtain ⟨n, x, hnumber⟩ := exists_hexNumber hw
      rw [hnumber.floating_eq] at herror
      split at herror
      · cases herror
      case h_2 hnone =>
        cases herror
        exact ⟨⟨n, x, hnumber, (Double.ofBinary?_eq_none_iff n x).1 hnone⟩, rfl⟩
    · rintro ⟨⟨n, x, hnumber, hlarge⟩, rfl⟩
      rw [hnumber.floating_eq, (Double.ofBinary?_eq_none_iff n x).2 hlarge]
  | decimal => exact absurd htype (by decide)
  | hex => exact absurd htype (by decide)
  | octal => exact absurd htype (by decide)
  | marked => exact absurd htype (by decide)
  | binary => exact absurd htype (by decide)

/-! ## Characters of numerals -/

/-- Digits and underscores have one byte. -/
lemma simple_of_digits {radix : Nat} {p : Char → Bool} (h : IsRadix radix p) {w : List Char}
    (hw : ∀ c ∈ w, p c = true ∨ c = '_') : ∀ c ∈ w, isSimple c = true := by
  intro c hc
  obtain hpc | rfl := hw c hc
  · exact (isHex_plain (h.isHex c hpc)).2.2
  · rfl

lemma LongText.simple {x : List Char} (h : Perhaps LongText x) : ∀ c ∈ x, isSimple c = true := by
  obtain rfl | ⟨c, rfl, rfl | rfl⟩ := h <;> decide

lemma SuffixText.simple {x : List Char} (h : Perhaps SuffixText x) :
    ∀ c ∈ x, isSimple c = true := by
  obtain rfl | ⟨c, rfl, hc⟩ := h
  · exact nofun
  · obtain rfl | rfl | rfl | rfl := Grammar.eq_of_isFloatSuffix hc <;> decide

lemma RadixText.simple {lower upper : Char} (hlower : isSimple lower = true)
    (hupper : isSimple upper = true) {mark : List Char} (h : RadixText lower upper mark) :
    ∀ c ∈ mark, isSimple c = true := by
  obtain ⟨c, rfl, rfl | rfl⟩ := h
  · simpa using ⟨rfl, hlower⟩
  · simpa using ⟨rfl, hupper⟩

lemma PowerText.simple {lower upper : Char} (hlower : isSimple lower = true)
    (hupper : isSimple upper = true) {e : List Char} (h : PowerText lower upper e) :
    ∀ c ∈ e, isSimple c = true := by
  obtain ⟨c, sign, digits, rfl, hc, hsign, hdigits⟩ := h
  refine List.forall_mem_cons.2
    ⟨?_, List.forall_mem_append.2 ⟨?_, simple_of_digits isRadix_decimal hdigits.1⟩⟩
  · obtain rfl | rfl := hc
    · exact hlower
    · exact hupper
  · obtain rfl | rfl | rfl := hsign <;> decide

lemma DecimalFloatText.simple {w : List Char} (h : DecimalFloatText w) :
    ∀ c ∈ w, isSimple c = true := by
  have hpower {e : List Char} (h : Perhaps (PowerText 'e' 'E') e) : ∀ c ∈ e, isSimple c = true := by
    obtain rfl | h := h
    · exact nofun
    · exact h.simple rfl rfl
  cases h with
  | pointed hwhole hfraction _ he hx =>
    simp only [List.forall_mem_append, List.forall_mem_cons]
    exact ⟨simple_of_digits isRadix_decimal (forall_of_digits hwhole), rfl,
      simple_of_digits isRadix_decimal (forall_of_digits hfraction), hpower he,
      SuffixText.simple hx⟩
  | plain hwhole he hx =>
    simp only [List.forall_mem_append]
    exact ⟨simple_of_digits isRadix_decimal hwhole.digits.1, hpower he, SuffixText.simple hx⟩

lemma HexFloatText.simple {w : List Char} (h : HexFloatText w) : ∀ c ∈ w, isSimple c = true := by
  obtain ⟨mark, whole, point, fraction, e, x, rfl, hmark, ⟨hwhole, hfraction, -, hpoint⟩, he, hx⟩ :=
    h
  simp only [List.forall_mem_append]
  refine ⟨hmark.simple rfl rfl, simple_of_digits isRadix_hex (forall_of_digits hwhole), ?_,
    simple_of_digits isRadix_hex (forall_of_digits hfraction), he.simple rfl rfl,
    SuffixText.simple hx⟩
  obtain rfl | ⟨rfl, -⟩ := hpoint <;> decide

/-- The characters of a numeral have one byte each. -/
lemma NumeralText.simple {type : String} {w : List Char} (h : NumeralText type w) :
    ∀ c ∈ w, isSimple c = true := by
  cases h with
  | decimal hw hx =>
    exact List.forall_mem_append.2
      ⟨simple_of_digits isRadix_decimal hw.digits.1, LongText.simple hx⟩
  | hex hmark hw hx =>
    simp only [List.forall_mem_append]
    exact ⟨hmark.simple rfl rfl, simple_of_digits isRadix_hex hw.1, LongText.simple hx⟩
  | octal hw hx =>
    simp only [List.forall_mem_append, List.forall_mem_cons]
    exact ⟨rfl, simple_of_digits isRadix_octal hw.1, LongText.simple hx⟩
  | marked hmark hw hx =>
    simp only [List.forall_mem_append]
    exact ⟨hmark.simple rfl rfl, simple_of_digits isRadix_octal hw.1, LongText.simple hx⟩
  | binary hmark hw hx =>
    simp only [List.forall_mem_append]
    exact ⟨hmark.simple rfl rfl, simple_of_digits isRadix_binary hw.1, LongText.simple hx⟩
  | float hw => exact hw.simple
  | hexFloat hw => exact hw.simple

lemma NumeralText.ne_nil {type : String} {w : List Char} (h : NumeralText type w) : w ≠ [] := by
  cases h with
  | decimal hw _ => exact List.append_ne_nil_of_left_ne_nil hw.digits.ne_nil _
  | octal _ _ => exact List.cons_ne_nil _ _
  | hex hmark _ _ | marked hmark _ _ | binary hmark _ _ =>
    obtain ⟨c, rfl, -⟩ := hmark
    exact List.cons_ne_nil _ _
  | float hw =>
    cases hw with
    | pointed => simp
    | plain hwhole _ _ => exact List.append_ne_nil_of_left_ne_nil hwhole.digits.ne_nil _
  | hexFloat hw =>
    obtain ⟨_, _, _, _, _, _, rfl, ⟨c, rfl, -⟩, -⟩ := hw
    exact List.cons_ne_nil _ _

lemma NumeralText.type_mem {type : String} {w : List Char} (h : NumeralText type w) :
    type ∈ integerTypes ∨ type ∈ floatTypes := by
  cases h <;> decide

end ShapeLint.Java.Numeral
