import ShapeLint.Proofs.Escapes
import ShapeLint.Proofs.Image
import ShapeLint.Proofs.Numerals

/-!
# Integers in every radix

The same integer can be written in four radices, with zeros in front of it and underscores among its
digits, and with a suffix that makes it long. `Writes` says which texts write a number, from the
digits of the number and without the functions that read it. What a text writes is what it is read
as (`Writes.integer?_eq`), and as a pattern it compiles to this integer (`Pattern.compile_integer`),
so that two patterns that are integers are equal exactly if they write the same number.

The radix is told from the first characters that are not underscores, after the suffix is gone.
Digits are told from the marks and suffixes around them by their class: no digit of a radix is a
letter that marks it, and none is a suffix. A hexadecimal number can hold the letters of an exponent
or of a suffix of a floating point number, but behind a zero and its mark it is not read as one.
-/

namespace ShapeLint

namespace Literal

open Grammar (IntegerText Perhaps)
open Java.Numeral (IsRadix LongText isBinary isDecimal isHex isOctal isRadix_binary isRadix_decimal
  isRadix_hex isRadix_octal integer?_decimal integer?_marked integer?_octal)

/-! ## Numbers as they are written -/

/-- The second text is the first with underscores put in anywhere, also at its ends and several in a
row. -/
inductive Underscored : List Char → List Char → Prop where
  | nil : Underscored [] []
  | char {c : Char} {ds s : List Char} : Underscored ds s → Underscored (c :: ds) (c :: s)
  | underscore {ds s : List Char} : Underscored ds s → Underscored ds ('_' :: s)

/-- The text writes a number, without a suffix. In decimal no zero stands in front of other digits,
and there are not too many digits; in octal the digits stand behind a zero, in hexadecimal and in
binary behind a zero and a mark. -/
inductive Writes (n : Nat) : List Char → Prop where
  | decimal {c : Char} {ds s : List Char} :
      IsNumeral 10 (c :: ds) n → (c = '0' → ds = []) → (c :: ds).length ≤ 4300 → Underscored ds s →
      Writes n (c :: s)
  | octal {ds s : List Char} : IsNumeral 8 ds n → ds ≠ [] → Underscored ds s → Writes n ('0' :: s)
  | hexadecimal {mark : Char} {ds s : List Char} :
      (mark = 'x' ∨ mark = 'X') → IsNumeral 16 ds n → ds ≠ [] → Underscored ds s →
      Writes n ('0' :: mark :: s)
  | binary {mark : Char} {ds s : List Char} :
      (mark = 'b' ∨ mark = 'B') → IsNumeral 2 ds n → ds ≠ [] → Underscored ds s →
      Writes n ('0' :: mark :: s)

/-! ## Underscores -/

/-- Taking the underscores out gives the text back. -/
lemma Underscored.without {ds s : List Char} (h : Underscored ds s) (hds : '_' ∉ ds) :
    withoutUnderscores s = ds := by
  induction h with
  | nil => rfl
  | @char c ds s _ ih =>
    obtain ⟨hc, hds⟩ := not_or.1 (List.mem_cons.not.1 hds)
    rw [withoutUnderscores, List.filter_cons_of_pos (by simpa using Ne.symm hc),
      ← withoutUnderscores, ih hds]
  | underscore _ ih => exact ih hds

/-- What holds of the text and of underscores holds of the text with underscores. -/
lemma Underscored.all {p : Char → Bool} (hp : p '_' = true) {ds s : List Char}
    (h : Underscored ds s) (hds : ∀ c ∈ ds, p c = true) : ∀ c ∈ s, p c = true := by
  induction h with
  | nil => exact hds
  | char _ ih =>
    obtain ⟨hc, hds⟩ := List.forall_mem_cons.1 hds
    exact List.forall_mem_cons.2 ⟨hc, ih hds⟩
  | underscore _ ih => exact List.forall_mem_cons.2 ⟨hp, ih hds⟩

lemma Underscored.subset {ds s : List Char} (h : Underscored ds s) : ds ⊆ s := by
  induction h with
  | nil => exact List.Subset.refl _
  | char _ ih => exact List.cons_subset_cons _ ih
  | underscore _ ih => exact List.subset_cons_of_subset _ ih

lemma Underscored.ne_nil {ds s : List Char} (h : Underscored ds s) (hne : ds ≠ []) : s ≠ [] := by
  obtain ⟨d, hd⟩ := List.exists_mem_of_ne_nil ds hne
  exact List.ne_nil_of_mem (h.subset hd)

/-! ## Digits -/

/-- A class of characters holds the digits of a radix, in both cases. It may hold other
characters. -/
def HasDigits (radix : Nat) (p : Char → Bool) : Prop :=
  ∀ n < radix, p n.digitChar = true ∧ p n.digitChar.toUpper = true

/-- Then it holds all characters of a number. -/
lemma HasDigits.of_isNumeral {radix : Nat} {p : Char → Bool} (hp : HasDigits radix p)
    {cs : List Char} {n : Nat} (h : IsNumeral radix cs n) : ∀ c ∈ cs, p c = true := by
  obtain ⟨ds, hds, -⟩ := h
  induction hds with
  | nil => exact fun c hc => absurd hc List.not_mem_nil
  | cons hc _ ih =>
    obtain ⟨hlt, rfl | rfl⟩ := hc
    · exact List.forall_mem_cons.2 ⟨(hp _ hlt).1, ih⟩
    · exact List.forall_mem_cons.2 ⟨(hp _ hlt).2, ih⟩

lemma hasDigits_mono {radix radix' : Nat} (hle : radix ≤ radix') {p : Char → Bool}
    (h : HasDigits radix' p) :
    HasDigits radix p :=
  fun n hn => h n (Nat.lt_of_lt_of_le hn hle)

lemma hasDigits_decimal : HasDigits 10 isDecimal := by
  unfold HasDigits
  decide

lemma hasDigits_octal : HasDigits 8 isOctal := by
  unfold HasDigits
  decide

lemma hasDigits_hex : HasDigits 16 isHex := by
  unfold HasDigits
  decide

lemma hasDigits_binary : HasDigits 2 isBinary := by
  unfold HasDigits
  decide

/-- A digit of a radix up to sixteen is read as its number. -/
lemma radixDigit?_of_isDigitOf {radix : Nat} (hradix : radix ≤ 16) {c : Char} {n : Nat}
    (h : IsDigitOf radix c n) :
    radixDigit? radix c = some n := by
  have hall : ∀ n < 16, radixDigit? 16 n.digitChar = some n ∧
      radixDigit? 16 n.digitChar.toUpper = some n := by
    decide +kernel
  obtain ⟨hn, hc⟩ := h
  have hhex : radixDigit? 16 c = some n := by
    obtain rfl | rfl := hc
    · exact (hall n (Nat.lt_of_lt_of_le hn hradix)).1
    · exact (hall n (Nat.lt_of_lt_of_le hn hradix)).2
  rw [radixDigit?, Option.filter_eq_some_iff] at hhex ⊢
  exact ⟨hhex.1, decide_eq_true hn⟩

/-- Digits are read as their number, behind what was read before them. -/
lemma readDigits_of_forall₂ {radix : Nat} (hradix : radix ≤ 16) {cs : List Char} {ds : List Nat}
    (h : List.Forall₂ (IsDigitOf radix) cs ds) (acc : Nat) :
    readDigits radix acc cs = some (numberFrom radix acc ds) := by
  induction h generalizing acc with
  | nil => rfl
  | @cons c d cs ds hc _ ih =>
    rw [readDigits, radixDigit?_of_isDigitOf hradix hc]
    exact ih (acc * radix + d)

/-- The digits of a number are read as it, unless they are decimal and too many. -/
lemma IsNumeral.readInteger?_eq {radix : Nat} {p : Char → Bool} (hp : IsRadix radix p)
    (hdigits : HasDigits radix p) (hradix : radix ≤ 16) {ds : List Char} {n : Nat}
    (h : IsNumeral radix ds n) (hne : ds ≠ []) (hlength : radix ≠ 10 ∨ ds.length ≤ 4300) :
    readInteger? radix ds = some (n : Int) := by
  have hshort : ¬ (radix = 10 ∧ maxDecimalDigits < ds.length) := by
    rintro ⟨hdecimal, hlong⟩
    exact hlength.elim (fun hne => hne hdecimal) fun hle => Nat.not_lt.2 hle hlong
  rw [hp.readInteger?_eq hne (hdigits.of_isNumeral h), if_neg hshort]
  obtain ⟨values, hvalues, rfl⟩ := h
  rw [readDigits_of_forall₂ hradix hvalues]
  rfl

/-! ## What is written is read -/

/-- Digits with underscores among them are digits, and the digits are what is left without the
underscores. -/
lemma Underscored.digits {radix : Nat} {p : Char → Bool} (hp : IsRadix radix p) {ds s : List Char}
    (h : Underscored ds s) (hds : ∀ c ∈ ds, p c = true) (hne : ds ≠ []) :
    Java.Numeral.Digits p s ∧ withoutUnderscores s = ds := by
  refine ⟨⟨fun c hc => ?_, ?_⟩, h.without fun hmem => hp.ne (hds _ hmem) (by simp) rfl⟩
  · have hall := h.all (p := fun c => p c || c == '_') (by simp) fun c hc => by simp [hds c hc]
    simpa using hall c hc
  · obtain ⟨d, hd⟩ := List.exists_mem_of_ne_nil ds hne
    exact ⟨d, h.subset hd, hds d hd⟩

/-- What is written is read, whether it is long or not. The cases are the four radices: the text in
front of the digits decides which one is read, and the suffix is gone by then. -/
lemma Writes.integer?_eq {n : Nat} {s x : List Char} (h : Writes n s) (hx : Perhaps LongText x) :
    integer? (s ++ x) = some (n : Int) := by
  cases h with
  | @decimal c ds s hn hzero hlength hs =>
    have hall := hasDigits_decimal.of_isNumeral hn
    have hwithout := ((Underscored.char hs).digits isRadix_decimal hall (List.cons_ne_nil c ds)).2
    -- a decimal number of several digits has no zero in front, so it is not read as octal
    have hoctal : ∀ d rest, withoutUnderscores (c :: s) ≠ '0' :: d :: rest := by
      intro d rest heq
      obtain ⟨rfl, hds⟩ := List.cons.inj (hwithout.symm.trans heq)
      exact List.cons_ne_nil d rest (hds.symm.trans (hzero rfl))
    rw [integer?_decimal (hwithout.symm ▸ hall) hoctal hx, hwithout]
    exact hn.readInteger?_eq isRadix_decimal hasDigits_decimal (by decide) (List.cons_ne_nil c ds)
      (.inr hlength)
  | octal hn hne hs =>
    obtain ⟨hdigits, hwithout⟩ := hs.digits isRadix_octal (hasDigits_octal.of_isNumeral hn) hne
    rw [List.cons_append, integer?_octal hdigits hx, hwithout]
    exact hn.readInteger?_eq isRadix_octal hasDigits_octal (by decide) hne (.inl (by decide))
  | @hexadecimal mark ds s hmark hn hne hs =>
    obtain ⟨hdigits, hwithout⟩ := hs.digits isRadix_hex (hasDigits_hex.of_isNumeral hn) hne
    have hread := hn.readInteger?_eq isRadix_hex hasDigits_hex (by decide) hne (.inl (by decide))
    have hmarked :=
      @integer?_marked ['0', mark] s x mark rfl (by obtain rfl | rfl := hmark <;> decide)
        (hdigits.not_long isRadix_hex rfl) hx
    rw [hwithout, hread] at hmarked
    exact hmarked.trans (if_pos (by simpa using hmark))
  | @binary mark ds s hmark hn hne hs =>
    obtain ⟨hdigits, hwithout⟩ := hs.digits isRadix_binary (hasDigits_binary.of_isNumeral hn) hne
    have hread :=
      hn.readInteger?_eq isRadix_binary hasDigits_binary (by decide) hne (.inl (by decide))
    have hmarked :=
      @integer?_marked ['0', mark] s x mark rfl (by obtain rfl | rfl := hmark <;> decide)
        (hdigits.not_long isRadix_binary rfl) hx
    rw [hwithout, hread] at hmarked
    obtain rfl | rfl := hmark <;> exact hmarked

/-- What is written is an integer literal of the pattern language. -/
lemma Writes.integerText {n : Nat} {s : List Char} (h : Writes n s) : IntegerText s := by
  have hdigit : HasDigits 10 Text.isDigit := by
    unfold HasDigits
    decide
  cases h with
  | @decimal c ds s hn _ _ hs =>
    obtain ⟨hc, hds⟩ := List.forall_mem_cons.1 (hdigit.of_isNumeral hn)
    exact .plain ⟨c, s, rfl, hc, hs.all rfl fun d hd => Grammar.isNumeralChar_of_isDigit (hds d hd)⟩
  | octal hn _ hs =>
    -- Octal digits are decimal ones, and the zero in front is a digit as well.
    have hds := (hasDigits_mono (by decide) hdigit).of_isNumeral hn
    exact .plain ⟨'0', _, rfl, rfl, hs.all rfl fun d hd =>
      Grammar.isNumeralChar_of_isDigit (hds d hd)⟩
  | hexadecimal hmark hn hne hs =>
    have hclass : HasDigits 16 Grammar.isHexChar := by
      unfold HasDigits
      decide
    exact .hexadecimal hmark (hs.ne_nil hne) (hs.all rfl (hclass.of_isNumeral hn))
  | binary hmark hn hne hs =>
    have hclass : HasDigits 2 Grammar.isBinaryChar := by
      unfold HasDigits
      decide
    exact .binary hmark (hs.ne_nil hne) (hs.all rfl (hclass.of_isNumeral hn))

/-- No character of a number is a suffix. -/
lemma Writes.not_long {n : Nat} {s : List Char} (h : Writes n s) :
    ∀ c ∈ s, (c == 'l' || c == 'L') = false := by
  have hclass : HasDigits 16 fun c => !(c == 'l' || c == 'L') := by
    unfold HasDigits
    decide
  have hdigits {radix : Nat} (hradix : radix ≤ 16) {ds s : List Char} (hn : IsNumeral radix ds n)
      (hs : Underscored ds s) : ∀ c ∈ s, (c == 'l' || c == 'L') = false := fun c hc =>
    Bool.not_eq_eq_eq_not.1 (hs.all rfl ((hasDigits_mono hradix hclass).of_isNumeral hn) c hc)
  cases h with
  | decimal hn _ _ hs => exact hdigits (by decide) hn (.char hs)
  | octal hn _ hs => exact List.forall_mem_cons.2 ⟨rfl, hdigits (by decide) hn hs⟩
  | hexadecimal hmark hn _ hs | binary hmark hn _ hs =>
    refine List.forall_mem_cons.2 ⟨rfl, List.forall_mem_cons.2 ⟨?_, hdigits (by decide) hn hs⟩⟩
    obtain rfl | rfl := hmark <;> rfl

/-- A number is long if and only if a suffix stands behind it. -/
lemma Writes.isLong_iff {n : Nat} {s x : List Char} (h : Writes n s) (hx : Perhaps LongText x) :
    isLong (s ++ x) = true ↔ LongText x := by
  obtain rfl | hlong := hx
  · refine iff_of_false ?_ ?_
    · rw [List.append_nil, isLong]
      cases hlast : s.getLast? with
      | none => exact Bool.false_ne_true
      | some c => exact Bool.eq_false_iff.1 (h.not_long c (List.mem_of_getLast? hlast))
    · rintro ⟨c, hnil, -⟩
      exact List.cons_ne_nil c [] hnil.symm
  · refine iff_of_true ?_ hlong
    obtain ⟨c, rfl, hc⟩ := hlong
    rw [isLong, List.getLast?_concat]
    simpa using hc

end Literal

namespace Pattern

open Grammar (IntegerText)
open Literal (Writes)

/-- A pattern that is an integer literal compiles to what the literal denotes. The value is exactly
the integer, not just a number equal to it. -/
lemma compile_integer {t : List Char} {i : Int} (ht : IntegerText t)
    (h : Literal.integer? t = some i) :
    ∃ span, compile (String.ofList t) = .ok { expression := .literal ⟨.int, .int i⟩ span } := by
  have hliteral : LiteralText ⟨.int, .int i⟩ t :=
    .integer ht h (by simp [Constant.same, Value.same, Value.int?])
  obtain ⟨⟨type, value⟩, span, hk, hsame⟩ :=
    exists_compile_literal hliteral (Grammar.nesting_integerText ht)
  simp only [Constant.same, Bool.and_eq_true, beq_iff_eq] at hsame
  obtain ⟨rfl, hvalue⟩ := hsame
  have hformed : Constant.Formed ⟨.int, value⟩ := formed_of_compileIn hk
  cases value with
  | int j =>
    obtain rfl : j = i := by simpa [Value.same, Value.int?] using hvalue
    exact ⟨span, hk⟩
  | _ => cases hformed

/-- Two patterns that are integers are equal if the integers are. -/
lemma same_integer_iff (i j : Int) (span span' : Span) :
    Kind.same { expression := .literal ⟨.int, .int i⟩ span }
      { expression := .literal ⟨.int, .int j⟩ span' } = true ↔ i = j := by
  simp [Kind.same, same, Constant.same, Value.same, Value.int?]

end Pattern

namespace Literal

open Grammar (Perhaps)
open Java.Numeral (LongText)

/-- Whatever way a number is written in, the text is read as the number and is long if it has a
suffix. Without a suffix it compiles to this integer, and two such patterns are equal exactly if the
numbers are. -/
theorem integer_of_writes :
    (∀ n s x, Writes n s → Perhaps LongText x →
      integer? (s ++ x) = some (n : Int) ∧ (isLong (s ++ x) = true ↔ LongText x)) ∧
    (∀ n s, Writes n s →
      ∃ span, Pattern.compile (String.ofList s) =
        .ok { expression := .literal ⟨.int, .int n⟩ span }) ∧
    ∀ n s m t, Writes n s → Writes m t →
      ∃ k l, Pattern.compile (String.ofList s) = .ok k ∧ Pattern.compile (String.ofList t) = .ok l ∧
        (k.same l = true ↔ n = m) := by
  have hcompile (n : Nat) (s : List Char) (h : Writes n s) :
      ∃ span, Pattern.compile (String.ofList s) =
        .ok { expression := .literal ⟨.int, .int n⟩ span } := by
    have hread := h.integer?_eq (.inl rfl)
    rw [List.append_nil] at hread
    exact Pattern.compile_integer h.integerText hread
  refine ⟨fun n s x h hx => ⟨h.integer?_eq hx, h.isLong_iff hx⟩, hcompile, fun n s m t hs ht => ?_⟩
  obtain ⟨span, hk⟩ := hcompile n s hs
  obtain ⟨span', hl⟩ := hcompile m t ht
  exact ⟨_, _, hk, hl, (Pattern.same_integer_iff n m span span').trans Int.ofNat_inj⟩

lemma writes_hexadecimal_thirteen : Writes 13 ['0', 'x', '_', '0', 'D', '_'] := by
  have hdigits : IsNumeral 16 ['0', 'D'] 13 :=
    ⟨[0, 13], .cons (by decide) (.cons (by decide) .nil), rfl⟩
  exact .hexadecimal (.inl rfl) hdigits (by decide) (.underscore (.char (.char (.underscore .nil))))

lemma writes_octal_thirteen : Writes 13 ['0', '_', '0', '1', '5'] := by
  have hdigits : IsNumeral 8 ['0', '1', '5'] 13 :=
    ⟨[0, 1, 5], .cons (by decide) (.cons (by decide) (.cons (by decide) .nil)), rfl⟩
  exact .octal hdigits (by decide) (.underscore (.char (.char (.char .nil))))

/-- A hexadecimal number that ends in the suffix of a floating point number, and an octal one. -/
theorem integer_of_writes_thirteen :
    Writes 13 ['0', 'x', '_', '0', 'D', '_'] ∧ Writes 13 ['0', '_', '0', '1', '5'] ∧
      integer? (['0', 'x', '_', '0', 'D', '_'] ++ ['L']) = some 13 ∧
      ∃ k l, Pattern.compile (String.ofList ['0', 'x', '_', '0', 'D', '_']) = .ok k ∧
        Pattern.compile (String.ofList ['0', '_', '0', '1', '5']) = .ok l ∧ k.same l = true := by
  have hlong : LongText ['L'] := ⟨'L', rfl, .inr rfl⟩
  obtain ⟨hread, -, hsame⟩ := integer_of_writes
  obtain ⟨k, l, hk, hl, hiff⟩ := hsame _ _ _ _ writes_hexadecimal_thirteen writes_octal_thirteen
  exact ⟨writes_hexadecimal_thirteen, writes_octal_thirteen,
    (hread _ _ _ writes_hexadecimal_thirteen (.inr hlong)).1, k, l, hk, hl, hiff.2 rfl⟩

end Literal

end ShapeLint
