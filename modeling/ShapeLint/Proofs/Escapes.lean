import Mathlib.Data.List.Forall2
import ShapeLint.Proofs.RoundTrip

/-!
# What is spelled is decoded

A character of a string literal can be written as itself or by one of three kinds of escapes: a
letter, one to three octal digits, or four hexadecimal digits behind one or more marks. `Escape`
says what the escapes are, and `Spells` what a body says as a whole. Escapes are read from the left
and as far as they go, so an octal escape that could go on must not be followed by an octal digit;
this is all that neighbours have to do with one another.

The reader of one escape is compared with `Escape` in both directions. What is an escape is read as
such (`escape_eq_ok`), and where none starts, the reader complains (`escape_eq_error`). What holds
of whole bodies follows piece by piece.
-/

namespace ShapeLint

namespace Literal

open Grammar (Halts StringBody StringText)
open Text (CodePoint)

/-! ## Digits -/

/-- The character is the digit for a number in a radix, in either case. Below ten the two cases are
the same. -/
def IsDigitOf (radix : Nat) (c : Char) (n : Nat) : Prop :=
  n < radix ∧ (c = n.digitChar ∨ c = n.digitChar.toUpper)

instance (radix : Nat) (c : Char) (n : Nat) : Decidable (IsDigitOf radix c n) :=
  inferInstanceAs (Decidable (_ ∧ _))

/-- The number that digits denote behind what was read before them: each digit moves what is in
front of it up by one place. -/
def numberFrom (radix : Nat) : Nat → List Nat → Nat :=
  List.foldl fun n d => n * radix + d

/-- The characters are the digits of a number, which may have zeros in front. -/
def IsNumeral (radix : Nat) (cs : List Char) (n : Nat) : Prop :=
  ∃ ds, List.Forall₂ (IsDigitOf radix) cs ds ∧ n = numberFrom radix 0 ds

/-- A reader of digits that knows only characters of one byte is compared with the digits by going
through these. So the question is settled by computation, once for all characters. -/
lemma eq_some_iff_isDigitOf {read : Char → Option Nat} {radix : Nat}
    (hsmall : ∀ c n, read c = some n → c.toNat < 0x80)
    (hread : ∀ m < 0x80, ∀ n ∈ (read (Char.ofNat m)).toList, IsDigitOf radix (Char.ofNat m) n)
    (hdigit : ∀ n < radix, read n.digitChar = some n ∧ read n.digitChar.toUpper = some n)
    {c : Char} {n : Nat} :
    read c = some n ↔ IsDigitOf radix c n := by
  constructor
  · intro hc
    have hall := hread c.toNat (hsmall c n hc) n
    rw [Char.ofNat_toNat] at hall
    exact hall (by simp [hc])
  · rintro ⟨hn, rfl | rfl⟩
    · exact (hdigit n hn).1
    · exact (hdigit n hn).2

/-- What is read as a hexadecimal digit is one. -/
lemma hexDigit?_eq_some_iff {c : Char} {n : Nat} : hexDigit? c = some n ↔ IsDigitOf 16 c n := by
  refine eq_some_iff_isDigitOf (fun c n h => ?_) (by decide +kernel) (by decide +kernel)
  have h9 : '9'.val.toNat = 57 := rfl
  have hf : 'f'.val.toNat = 102 := rfl
  have hF : 'F'.val.toNat = 70 := rfl
  simp only [hexDigit?, Char.le_def, UInt32.le_iff_toNat_le] at h
  change c.val.toNat < 0x80
  split_ifs at h <;> omega

/-- What is read as an octal digit is one. -/
lemma octalDigit?_eq_some_iff {c : Char} {n : Nat} : octalDigit? c = some n ↔ IsDigitOf 8 c n := by
  refine eq_some_iff_isDigitOf (fun c n h => ?_) (by decide +kernel) (by decide +kernel)
  have h7 : '7'.val.toNat = 55 := rfl
  simp only [octalDigit?, Char.le_def, UInt32.le_iff_toNat_le] at h
  change c.val.toNat < 0x80
  split_ifs at h
  omega

/-! ## Escapes -/

/-- The letters of escapes, and what they stand for. -/
def escapeLetters : List (Char × Char) :=
  [('b', '\x08'), ('t', '\t'), ('n', '\n'), ('f', '\x0c'), ('r', '\r'), ('s', ' '),
    ('"', '"'), ('\'', '\''), ('\\', '\\')]

/-- One to three octal digits of a number of one byte. With three of them the first is at most
three. -/
def OctalDigits (cs : List Char) (n : Nat) : Prop :=
  cs ≠ [] ∧ cs.length ≤ 3 ∧ IsNumeral 8 cs n ∧ n ≤ 255

/-- What stands behind the backslash of an escape, and the code point that it denotes: a letter, one
or more marks and four hexadecimal digits, or octal digits. -/
inductive Escape : List Char → CodePoint → Prop where
  | letter {c d : Char} : (c, d) ∈ escapeLetters → Escape [c] (CodePoint.ofChar d)
  | unicode {marks cs : List Char} {p : CodePoint} :
      marks ≠ [] → (∀ c ∈ marks, c = 'u') → cs.length = 4 → IsNumeral 16 cs p.val →
      Escape (marks ++ cs) p
  | octal {cs : List Char} {p : CodePoint} : OctalDigits cs p.val → Escape cs p

/-- The text starts with one of the escapes, whose backslash is left away. Which escape is not said,
since an octal one may be read longer. -/
def StartsEscape (s : List Char) : Prop :=
  ∃ e p rest, Escape e p ∧ s = e ++ rest

/-- The text starts with an octal digit. -/
def StartsOctal (s : List Char) : Prop :=
  ∃ c rest n, s = c :: rest ∧ IsDigitOf 8 c n

/-- The escape is an octal one that could go on: with one more digit it still would be one. It has
one digit, or two of which the first is at most three. -/
def CanGoOn (e : List Char) : Prop :=
  e ≠ [] ∧ ∃ c n, OctalDigits (e ++ [c]) n

/-- What follows an escape does not become part of it. Only octal escapes have to mind what
follows. -/
def Settled (e rest : List Char) : Prop :=
  CanGoOn e → ¬ StartsOctal rest

/-- A number that is a code point is taken for it. -/
lemma codePoint_val (p : CodePoint) : codePoint p.val = p := by
  rw [codePoint, dif_pos p.isLt]

lemma octalDigit?_of_not_starts {c : Char} {s : List Char} (h : ¬ StartsOctal (c :: s)) :
    octalDigit? c = none := by
  cases hc : octalDigit? c with
  | none => rfl
  | some n => exact absurd ⟨c, s, n, rfl, octalDigit?_eq_some_iff.1 hc⟩ h

/-- All digits are taken that there are, if they are as many as can be taken or no other follows.
The induction is on the digits, and the number so far goes along. -/
lemma takeOctal_append {cs : List Char} {ds : List Nat} (h : List.Forall₂ (IsDigitOf 8) cs ds)
    {s : List Char} {k : Nat} (hk : cs.length ≤ k)
    (hstop : cs.length = k ∨ ¬ StartsOctal s) (acc : Nat) :
    takeOctal acc k (cs ++ s) = (numberFrom 8 acc ds, s) := by
  induction h generalizing k acc with
  | nil =>
    cases k with
    | zero => rfl
    | succ k =>
      -- Room for a further digit is left, so the digits end because none follows.
      have hnot : ¬ StartsOctal s := by simpa using hstop
      cases s with
      | nil => rfl
      | cons c s => simp [takeOctal, octalDigit?_of_not_starts hnot, numberFrom]
  | @cons c d cs ds hc _ ih =>
    cases k with
    | zero => simp at hk
    | succ k =>
      simp only [List.cons_append, takeOctal, octalDigit?_eq_some_iff.2 hc]
      exact ih (by simpa using hk) (by simpa using hstop) (acc * 8 + d)

/-- Digits of a small number can go on with a zero. -/
lemma canGoOn {cs : List Char} {ds : List Nat} (h : List.Forall₂ (IsDigitOf 8) cs ds)
    (hne : cs ≠ []) (hlength : cs.length ≤ 2) (hn : numberFrom 8 0 ds ≤ 31) : CanGoOn cs := by
  have hzero : IsDigitOf 8 '0' 0 := by decide
  have hnumeral : IsNumeral 8 (cs ++ ['0']) (numberFrom 8 0 ds * 8) :=
    ⟨ds ++ [0], List.rel_append h (.cons hzero .nil), by simp [numberFrom]⟩
  have hlength' : (cs ++ ['0']).length ≤ 3 := by
    rw [List.length_append]
    exact Nat.succ_le_succ hlength
  exact ⟨hne, '0', _, by simp, hlength', hnumeral, by omega⟩

/-- An octal escape has as many digits behind the first as are taken, or fewer and no other follows.
-/
lemma digits_of_settled {c : Char} {cs s : List Char} {d : Nat} {ds : List Nat}
    (hd : IsDigitOf 8 c d) (hds : List.Forall₂ (IsDigitOf 8) cs ds) (hlength : cs.length ≤ 2)
    (hn : numberFrom 8 d ds ≤ 255) (h : Settled (c :: cs) s) :
    cs.length ≤ (if d ≤ 3 then 2 else 1) ∧
      (cs.length = (if d ≤ 3 then 2 else 1) ∨ ¬ StartsOctal s) := by
  have hgo := canGoOn (.cons hd hds) (by simp)
  have hd8 : d < 8 := hd.1
  -- there are no, one or two digits behind the first
  rcases hds with _ | ⟨hx, _ | ⟨hy, _ | ⟨hz, hrest⟩⟩⟩
  · have hstop := h (hgo (by simp) (by simp [numberFrom]; omega))
    exact ⟨by simp, .inr hstop⟩
  · have hx8 := hx.1
    by_cases h3 : d ≤ 3
    · have hstop := h (hgo (by simp) (by simp [numberFrom]; omega))
      exact ⟨by simp [h3], .inr hstop⟩
    · simp [h3]
  · have h3 : d ≤ 3 := by
      simp [numberFrom] at hn
      omega
    simp [h3]
  · simp at hlength

/-- An octal escape that is settled is read as its number. -/
lemma octalEscape?_digits {cs s : List Char} {n : Nat} (h : OctalDigits cs n) (hs : Settled cs s) :
    octalEscape? (cs ++ s) = some (codePoint n, s) := by
  obtain ⟨hne, hlength, ⟨ds, hds, rfl⟩, hn⟩ := h
  cases hds with
  | nil => exact absurd rfl hne
  | @cons c d cs ds hc hcs =>
    have hnumber : numberFrom 8 0 (d :: ds) = numberFrom 8 d ds := by simp [numberFrom]
    rw [hnumber] at hn ⊢
    obtain ⟨hk, hstop⟩ := digits_of_settled hc hcs (Nat.le_of_succ_le_succ hlength) hn hs
    simp [octalEscape?, octalDigit?_eq_some_iff.2 hc, takeOctal_append hcs hk hstop]

/-- Marks and four hexadecimal digits are read as their number. The marks end at the first digit,
which is none. -/
lemma unicodeEscape?_digits {marks cs : List Char} {n : Nat} (hmarks : ∀ c ∈ marks, c = 'u')
    (hlength : cs.length = 4) (hcs : IsNumeral 16 cs n) (s : List Char) :
    unicodeEscape? ('u' :: (marks ++ (cs ++ s))) = some (codePoint n, s) := by
  obtain ⟨ds, hds, rfl⟩ := hcs
  obtain ⟨a, b, c, d, rfl⟩ := List.length_eq_four.1 hlength
  simp only [List.forall₂_cons_left_iff, List.forall₂_nil_left_iff] at hds
  obtain ⟨w, -, ha, ⟨x, -, hb, ⟨y, -, hc, ⟨z, -, hd, rfl, rfl⟩, rfl⟩, rfl⟩, rfl⟩ := hds
  rw [← hexDigit?_eq_some_iff] at ha hb hc hd
  have hmark : hexDigit? 'u' = none := by decide
  have hhalts : Halts (· == 'u') ([a, b, c, d] ++ s) := by
    have hne : a ≠ 'u' := by
      rintro rfl
      simp [hmark] at ha
    exact Grammar.halts_cons (by simpa using hne) _
  rw [unicodeEscape?, Grammar.dropWhile_append_of_halts (by simpa using hmarks) hhalts]
  simp [ha, hb, hc, hd, numberFrom]

/-- Without a mark there is no such escape. -/
lemma unicodeEscape?_of_ne {c : Char} (h : c ≠ 'u') (s : List Char) :
    unicodeEscape? (c :: s) = none := by
  rw [unicodeEscape?]
  rintro rest ⟨⟩
  exact h rfl

/-- A letter is read as what it stands for. It is no mark and no octal digit, so those are not found
first. -/
lemma escape_letter {c d : Char} (h : (c, d) ∈ escapeLetters) (s : List Char) :
    escape c s = .ok (some (CodePoint.ofChar d), s) := by
  simp only [escapeLetters, List.mem_cons, Prod.mk.injEq, List.not_mem_nil, or_false] at h
  rcases h with ⟨rfl, rfl⟩ | ⟨rfl, rfl⟩ | ⟨rfl, rfl⟩ | ⟨rfl, rfl⟩ | ⟨rfl, rfl⟩ | ⟨rfl, rfl⟩ |
    ⟨rfl, rfl⟩ | ⟨rfl, rfl⟩ | ⟨rfl, rfl⟩
  all_goals rfl

/-- An escape that does not go on in what follows is read as what it denotes. The reader tries the
three kinds one after the other, and no escape of a later kind is one of an earlier kind. -/
lemma escape_eq_ok {e s rest : List Char} {c : Char} {p : CodePoint} (he : Escape e p)
    (hs : Settled e s) (h : e ++ s = c :: rest) : escape c rest = .ok (some p, s) := by
  cases he with
  | letter hletter =>
    obtain ⟨rfl, rfl⟩ := List.cons.inj h
    exact escape_letter hletter s
  | @unicode marks cs p hne hmarks hlength hcs =>
    cases marks with
    | nil => exact absurd rfl hne
    | cons mark marks =>
      obtain ⟨rfl, hothers⟩ := List.forall_mem_cons.1 hmarks
      rw [List.append_assoc, List.cons_append] at h
      rw [escape, ← h, unicodeEscape?_digits hothers hlength hcs, codePoint_val]
  | octal hcs =>
    have hoctal := octalEscape?_digits hcs hs
    obtain ⟨hne, -, ⟨ds, hds, -⟩, -⟩ := hcs
    cases hds with
    | nil => exact absurd rfl hne
    | cons hc _ =>
      rw [List.cons_append] at h
      -- Unicode escapes are tried first, so no octal digit may be the letter that marks them.
      have hmark : octalDigit? 'u' = none := by decide
      have hneu : c ≠ 'u' := by
        rintro rfl
        rw [(List.cons.inj h).1, ← octalDigit?_eq_some_iff, hmark] at hc
        cases hc
      rw [escape, unicodeEscape?_of_ne hneu, ← h, ← List.cons_append, hoctal, codePoint_val]

/-! ## Where no escape starts -/

/-- What is read as marks and digits starts with such an escape. -/
lemma startsEscape_of_unicodeEscape? {s : List Char} {r : CodePoint × List Char}
    (h : unicodeEscape? s = some r) :
    StartsEscape s := by
  unfold unicodeEscape? at h
  split at h
  case h_2 => cases h
  case h_1 s t =>
    split at h
    case h_2 => cases h
    case h_1 a b c d rest hdrop =>
      split at h
      case h_2 => cases h
      case h_1 w x y z ha hb hc hd =>
        rw [hexDigit?_eq_some_iff] at ha hb hc hd
        -- Four hexadecimal digits stay below the last code point.
        have hn : ((w * 16 + x) * 16 + y) * 16 + z < 0x110000 := by
          have := ha.1; have := hb.1; have := hc.1; have := hd.1
          omega
        have hnumeral : IsNumeral 16 [a, b, c, d] (((w * 16 + x) * 16 + y) * 16 + z) :=
          ⟨[w, x, y, z], .cons ha (.cons hb (.cons hc (.cons hd .nil))), by simp [numberFrom]⟩
        have hmarks : ∀ c ∈ 'u' :: t.takeWhile (· == 'u'), c = 'u' := by
          refine List.forall_mem_cons.2 ⟨rfl, fun c hc => ?_⟩
          simpa using List.all_eq_true.1 List.all_takeWhile c hc
        refine ⟨_, ⟨_, hn⟩, rest, .unicode (List.cons_ne_nil _ _) hmarks rfl hnumeral, ?_⟩
        rw [List.append_assoc, List.cons_append, List.cons_append, List.cons_append,
          List.cons_append, List.cons_append, List.nil_append, ← hdrop,
          List.takeWhile_append_dropWhile]

/-- What is read as octal digits starts with an octal escape, namely that of the first digit. -/
lemma startsEscape_of_octalEscape? {s : List Char} {r : CodePoint × List Char}
    (h : octalEscape? s = some r) :
    StartsEscape s := by
  cases s with
  | nil => cases h
  | cons c s =>
    simp only [octalEscape?, Option.map_eq_some_iff] at h
    obtain ⟨d, hd, -⟩ := h
    rw [octalDigit?_eq_some_iff] at hd
    have hbyte : d ≤ 255 := Nat.le_trans (Nat.le_of_lt hd.1) (by decide)
    have hnumeral : IsNumeral 8 [c] d := ⟨[d], .cons hd .nil, by simp [numberFrom]⟩
    exact ⟨[c], ⟨d, by omega⟩, s, .octal ⟨by simp, by simp, hnumeral, hbyte⟩, rfl⟩

lemma mem_escapeLetters {c d : Char} (h : simpleEscape? c = some d) : (c, d) ∈ escapeLetters := by
  unfold simpleEscape? at h
  split at h <;> cases h <;> decide

/-- Where no escape starts and no line ends, the reader complains. -/
lemma escape_eq_error {c : Char} {rest : List Char} (hc : c ≠ '\n')
    (h : ¬ StartsEscape (c :: rest)) :
    escape c rest = .error ⟨c⟩ := by
  have hunicode : unicodeEscape? (c :: rest) = none :=
    Option.eq_none_iff_forall_ne_some.2 fun r hr => h (startsEscape_of_unicodeEscape? hr)
  have hoctal : octalEscape? (c :: rest) = none :=
    Option.eq_none_iff_forall_ne_some.2 fun r hr => h (startsEscape_of_octalEscape? hr)
  have hletter : simpleEscape? c = none :=
    Option.eq_none_iff_forall_ne_some.2 fun d hd =>
      h ⟨[c], _, rest, .letter (mem_escapeLetters hd), rfl⟩
  rw [escape, hunicode, hoctal, if_neg hc, hletter]

/-! ## Bodies -/

lemma unescape_char {c : Char} (h : c ≠ '\\') (s : List Char) :
    unescape (c :: s) = (unescape s).map (CodePoint.ofChar c :: ·) := by
  rw [unescape]
  intro d rest hd
  exact absurd hd h

lemma unescape_escape {c : Char} {s rest : List Char} {p : Option CodePoint}
    (h : escape c s = .ok (p, rest)) :
    unescape ('\\' :: c :: s) = (unescape rest).map (p.toList ++ ·) := by
  rw [unescape]
  split
  case h_1 e he => rw [h] at he; cases he
  case h_2 q rest' he => rw [h] at he; cases he; rfl

/-- A bad escape is the failure of the whole. -/
lemma unescape_bad {c : Char} {s : List Char} {e : BadEscape} (h : escape c s = .error e) :
    unescape ('\\' :: c :: s) = .error e := by
  rw [unescape]
  split
  case h_1 e' he => rw [h] at he; cases he; rfl
  case h_2 q rest' he => rw [h] at he; cases he

/-- The characters that cannot stand for themselves in a literal. -/
def specialChars : List Char :=
  ['"', '\\', '\r', '\n']

/-- What a body spells, with each character either as it is or escaped. -/
inductive Spells : List Char → List CodePoint → Prop where
  | nil : Spells [] []
  | raw {c : Char} {s : List Char} {points : List CodePoint} :
      c ∉ specialChars → Spells s points → Spells (c :: s) (CodePoint.ofChar c :: points)
  | escape {e s : List Char} {p : CodePoint} {points : List CodePoint} :
      Escape e p → Settled e s → Spells s points → Spells ('\\' :: (e ++ s)) (p :: points)

/-- A body is gone through from the left up to what is left of it. Only backslashes make a
difference on the way, and one at the end of a line stands for nothing. Unlike what `Spells` allows,
quotes and line ends may stand there as they are. -/
inductive Scans : List Char → List CodePoint → List Char → Prop where
  | here {s : List Char} : Scans s [] s
  | char {c : Char} {s rest : List Char} {points : List CodePoint} :
      c ≠ '\\' → Scans s points rest → Scans (c :: s) (CodePoint.ofChar c :: points) rest
  | escape {e s rest : List Char} {p : CodePoint} {points : List CodePoint} :
      Escape e p → Settled e s → Scans s points rest → Scans ('\\' :: (e ++ s)) (p :: points) rest
  | feed {s rest : List Char} {points : List CodePoint} :
      Scans s points rest → Scans ('\\' :: '\n' :: s) points rest

/-- What a body spells is found by going through all of it. -/
lemma Spells.scans {s : List Char} {points : List CodePoint} (h : Spells s points) :
    Scans s points [] := by
  induction h with
  | nil => exact .here
  | raw hc _ ih =>
    refine .char ?_ ih
    rintro rfl
    simp [specialChars] at hc
  | escape he hs _ ih => exact .escape he hs ih

lemma Escape.ne_nil {e : List Char} {p : CodePoint} (h : Escape e p) : e ≠ [] := by
  cases h with
  | letter _ => simp
  | unicode hne => simp [hne]
  | octal hcs => exact hcs.1

/-- What is gone through is decoded, and the rest decides about the whole. -/
lemma Scans.unescape_eq {s rest : List Char} {points : List CodePoint} (h : Scans s points rest) :
    unescape s = (unescape rest).map (points ++ ·) := by
  induction h with
  | @here s => cases unescape s <;> rfl
  | @char c s rest points hc _ ih =>
    rw [unescape_char hc, ih]
    cases unescape rest <;> rfl
  | @escape e s rest p points he hs _ ih =>
    obtain ⟨c, e', rfl⟩ := List.exists_cons_of_ne_nil he.ne_nil
    have hc : Literal.escape c (e' ++ s) = .ok (some p, s) := escape_eq_ok he hs rfl
    rw [List.cons_append, unescape_escape hc, ih]
    cases unescape rest <;> rfl
  | @feed s rest points _ ih =>
    have hfeed : Literal.escape '\n' s = .ok (none, s) := rfl
    rw [unescape_escape hfeed, ih]
    cases unescape rest <;> rfl

/-! ## Quoted literals -/

/-- A body between quotes. -/
def inQuotes (body : List Char) : List Char :=
  '"' :: (body ++ ['"'])

lemma dropEnds_inQuotes (body : List Char) : dropEnds 1 (inQuotes body) = body := by
  simp [dropEnds, inQuotes]

/-- A literal in plain quotes is decoded by going through its body. -/
lemma string_inQuotes {body : List Char} (h : isTextBlock (inQuotes body) = false) :
    string (inQuotes body) = unescape body := by
  rw [string, h, dropEnds_inQuotes]
  rfl

/-- A body that spells something has no bare quote at its front, so it is not taken for a text
block. -/
lemma Spells.not_isTextBlock {body : List Char} {points : List CodePoint} (h : Spells body points) :
    isTextBlock (inQuotes body) = false := by
  cases h with
  | nil => rfl
  | @raw c s points hc _ =>
    have hquote : c ≠ '"' := fun heq => hc (by simp [heq, specialChars])
    simp [inQuotes, isTextBlock, hquote]
  | escape _ _ _ => rfl

lemma IsDigitOf.plain {c : Char} {n : Nat} (h : IsDigitOf 16 c n) : c ∉ specialChars := by
  have hnone : ∀ d ∈ specialChars, hexDigit? d = none := by decide
  intro hc
  rw [← hexDigit?_eq_some_iff, hnone c hc] at h
  cases h

/-- No digit is a character that has to be escaped. -/
lemma IsNumeral.plain {radix : Nat} {cs : List Char} {n : Nat} (h : IsNumeral radix cs n)
    (hradix : radix ≤ 16) :
    ∀ c ∈ cs, c ∉ specialChars := by
  obtain ⟨ds, hds, -⟩ := h
  induction hds with
  | nil => simp
  | cons hc _ ih =>
    exact List.forall_mem_cons.2 ⟨IsDigitOf.plain ⟨Nat.lt_of_lt_of_le hc.1 hradix, hc.2⟩, ih⟩

lemma stringBody_append {w s : List Char} (hw : ∀ c ∈ w, c ∉ specialChars) (hs : StringBody s) :
    StringBody (w ++ s) := by
  induction w with
  | nil => exact hs
  | cons c w ih =>
    obtain ⟨hc, hw⟩ := List.forall_mem_cons.1 hw
    exact .plain hc (ih hw)

/-- Behind its first character an escape has only characters that a literal can hold as they are. -/
lemma Escape.stringBody {e s : List Char} {p : CodePoint} (h : Escape e p) (hs : StringBody s) :
    StringBody ('\\' :: (e ++ s)) := by
  cases h with
  | @letter c d hletter =>
    have hfeed : ∀ letter ∈ escapeLetters, letter.1 ≠ '\n' := by decide
    exact .escaped (hfeed _ hletter) hs
  | @unicode marks cs p hne hmarks _ hcs =>
    cases marks with
    | nil => exact absurd rfl hne
    | cons mark marks =>
      obtain ⟨rfl, hothers⟩ := List.forall_mem_cons.1 hmarks
      -- Only the first character stands behind the backslash; the others must not close the
      -- literal.
      have hplain : ∀ c ∈ marks ++ cs, c ∉ specialChars := by
        intro c hc
        rcases List.mem_append.1 hc with hc | hc
        · rw [hothers c hc]
          decide
        · exact hcs.plain (by decide) c hc
      exact .escaped (by decide) (stringBody_append hplain hs)
  | octal hcs =>
    obtain ⟨hne, -, hcs, -⟩ := hcs
    obtain ⟨c, cs, rfl⟩ := List.exists_cons_of_ne_nil hne
    obtain ⟨hc, hcs⟩ := List.forall_mem_cons.1 (hcs.plain (by decide))
    refine .escaped ?_ (stringBody_append hcs hs)
    rintro rfl
    simp [specialChars] at hc

/-- A body that spells something is one that the grammar reads as a string literal. -/
lemma Spells.stringBody {body : List Char} {points : List CodePoint} (h : Spells body points) :
    StringBody body := by
  induction h with
  | nil => exact .nil
  | raw hc _ ih => exact .plain hc ih
  | escape he _ _ ih => exact he.stringBody ih

lemma Spells.string_eq {body : List Char} {points : List CodePoint} (h : Spells body points) :
    string (inQuotes body) = .ok points := by
  rw [string_inQuotes h.not_isTextBlock, h.scans.unescape_eq, unescape]
  simp [Except.map]

end Literal

namespace Pattern

open Grammar (StringText)
open Text (CodePoint)

/-- Only a literal is equal to a literal. -/
lemma exists_literal_of_same {k : Kind} {c : Constant} {loc : Span}
    (h : k.same { expression := .literal c loc } = true) :
    ∃ d span, k = { expression := .literal d span } ∧ d.same c = true := by
  obtain ⟨expression, context, negated⟩ := k
  simp only [Kind.same, Bool.and_eq_true, beq_iff_eq] at h
  obtain ⟨⟨hexpression, rfl⟩, rfl⟩ := h
  cases expression with
  | literal d span => exact ⟨d, span, rfl, by simpa [same] using hexpression⟩
  | _ => simp [same] at hexpression

/-- A pattern that spells a literal without a sign compiles to a literal that equals it. There is
always room for it, as nothing is nested in it. -/
theorem exists_compile_literal {c : Constant} {t : List Char} (h : LiteralText c t)
    (hflat : Grammar.nesting t = 0) :
    ∃ d span, compile (String.ofList t) = .ok { expression := .literal d span } ∧
      d.same c = true := by
  have hwritten : Written .equality (.literal c {}) t := (Written.literal h).loosen (by decide)
  have hrendered := Rendered.anywhere (a := []) (b := []) (by simp) (by simp) hwritten
  rw [List.append_nil, List.nil_append] at hrendered
  have hroom : Grammar.stackRoom.Holds (Grammar.nesting t + 1) := by
    rw [hflat]
    exact Grammar.holds_stackRoom.mono (by decide)
  obtain ⟨k, hk, hsame⟩ :=
    (hrendered.compileChars Grammar.stackRoom).resolve_right (not_sinks_whole hroom)
  obtain ⟨d, span, rfl, hd⟩ := exists_literal_of_same hsame
  exact ⟨d, span, by rw [compile, compileIn, String.toList_ofList, hk]; rfl, hd⟩

/-- A pattern that is a string literal compiles to what the literal denotes. -/
lemma compile_string {t : List Char} {points : List CodePoint} (ht : StringText t)
    (h : Literal.string t = .ok points) :
    ∃ span, compile (String.ofList t) =
      .ok { expression := .literal ⟨.string, .text points⟩ span } := by
  have hliteral : LiteralText ⟨.string, .text points⟩ t :=
    .string ht h (by simp [Constant.same, Value.same])
  obtain ⟨⟨type, value⟩, span, hk, hsame⟩ :=
    exists_compile_literal hliteral (Grammar.nesting_stringText ht)
  simp only [Constant.same, Bool.and_eq_true, beq_iff_eq] at hsame
  obtain ⟨rfl, hvalue⟩ := hsame
  cases value with
  | text s =>
    obtain rfl : s = points := by simpa [Value.same] using hvalue
    exact ⟨span, hk⟩
  | _ => simp [Value.same, Value.int?] at hvalue

end Pattern

namespace Literal

open Text (CodePoint)

/-- A string literal is decoded to what it spells, and as a pattern it compiles to a literal with
this value. If going through the body comes to a backslash that starts no escape and does not end a
line, decoding fails there. -/
theorem string_decoded :
    (∀ body points, Spells body points → string (inQuotes body) = .ok points ∧
      ∃ span, Pattern.compile (String.ofList (inQuotes body)) =
        .ok { expression := .literal ⟨.string, .text points⟩ span }) ∧
    ∀ body points c rest, Scans body points ('\\' :: c :: rest) → c ≠ '\n' →
      ¬ StartsEscape (c :: rest) → isTextBlock (inQuotes body) = false →
      string (inQuotes body) = .error ⟨c⟩ := by
  constructor
  · intro body points h
    exact ⟨h.string_eq, Pattern.compile_string ⟨body, rfl, h.stringBody⟩ h.string_eq⟩
  · intro body points c rest h hfeed hstarts hblock
    rw [string_inQuotes hblock, h.unescape_eq, unescape_bad (escape_eq_error hfeed hstarts)]
    rfl

lemma not_startsOctal {c : Char} (h : octalDigit? c = none) (s : List Char) :
    ¬ StartsOctal (c :: s) := by
  rintro ⟨d, rest, n, heq, hd⟩
  obtain ⟨rfl, -⟩ := List.cons.inj heq
  rw [← octalDigit?_eq_some_iff, h] at hd
  cases hd

lemma not_octalDigits {c : Char} (h : octalDigit? c = none) (cs : List Char) (n : Nat) :
    ¬ OctalDigits (c :: cs) n := by
  rintro ⟨-, -, ⟨ds, hds, -⟩, -⟩
  cases hds with
  | cons hc _ => exact not_startsOctal h [] ⟨c, [], _, rfl, hc⟩

/-- An escape that does not start with an octal digit is settled whatever follows. -/
lemma settled_of_head {c : Char} (h : octalDigit? c = none) (e s : List Char) :
    Settled (c :: e) s := by
  rintro ⟨-, d, n, hdigits⟩
  exact absurd hdigits (not_octalDigits h _ n)

/-- A body with all kinds of escapes: an octal one in front of a digit that is not octal, one that
cannot go on in front of an octal digit, and a doubled backslash in front of a mark. -/
def mixedBody : List Char :=
  ['a', '\\', 'u', 'u', '0', '0', 'E', '9', '\\', '1', '8', '\\', '4', '7', '7', '\\', '\\', 'u']

/-- What the body spells. -/
def mixedPoints : List CodePoint :=
  [0x61, 0xE9, 0x01, 0x38, 0x27, 0x37, 0x5C, 0x75]

lemma spells_mixedBody : Spells mixedBody mixedPoints := by
  have hunicode : Escape (['u', 'u'] ++ ['0', '0', 'E', '9']) 0xE9 :=
    .unicode (by simp) (by decide) rfl
      ⟨[0, 0, 14, 9],
        .cons (by decide) (.cons (by decide) (.cons (by decide) (.cons (by decide) .nil))), rfl⟩
  have hone : Escape ['1'] 0x01 :=
    .octal ⟨by simp, by decide, ⟨[1], .cons (by decide) .nil, rfl⟩, by decide⟩
  have htwo : Escape ['4', '7'] 0x27 :=
    .octal ⟨by simp, by decide,
      ⟨[4, 7], .cons (by decide) (.cons (by decide) .nil), rfl⟩, by decide⟩
  -- A third digit would exceed a byte, so the escape is over although one follows.
  have hend : ¬ CanGoOn ['4', '7'] := by
    rintro ⟨-, c, n, -, -, ⟨ds, hds, rfl⟩, hn⟩
    simp only [List.cons_append, List.nil_append, List.forall₂_cons_left_iff,
      List.forall₂_nil_left_iff] at hds
    obtain ⟨x, -, hx, ⟨y, -, hy, ⟨z, -, hz, rfl, rfl⟩, rfl⟩, rfl⟩ := hds
    have hx4 : some 4 = some x := octalDigit?_eq_some_iff.2 hx
    simp [numberFrom] at hn hx4
    omega
  have hbackslash : Escape ['\\'] 0x5C := .letter (d := '\\') (by decide)
  have hbehind : Spells ['8', '\\', '4', '7', '7', '\\', '\\', 'u']
      [0x38, 0x27, 0x37, 0x5C, 0x75] :=
    .raw (c := '8') (by decide) (.escape htwo (fun h => absurd h hend)
      (.raw (c := '7') (by decide) (.escape hbackslash (settled_of_head rfl _ _)
        (.raw (c := 'u') (by decide) .nil))))
  exact .raw (c := 'a') (by decide) (.escape hunicode (settled_of_head rfl _ _)
    (.escape hone (fun _ => not_startsOctal rfl _) hbehind))

/-- All kinds of escapes next to each other. A mark with too few digits behind it starts no
escape. -/
theorem string_decoded_mixedBody :
    Spells mixedBody mixedPoints ∧ string (inQuotes mixedBody) = .ok mixedPoints ∧
      string (inQuotes ['\\', '\\', '\\', 'u', '1']) = .error ⟨'u'⟩ := by
  have hscans : Scans ['\\', '\\', '\\', 'u', '1'] [0x5C] ['\\', 'u', '1'] :=
    .escape (.letter (d := '\\') (by decide)) (settled_of_head rfl _ _) .here
  -- The mark lacks its digits, and it is neither a letter nor an octal digit.
  have hstarts : ¬ StartsEscape ['u', '1'] := by
    rintro ⟨e, p, rest, he, h⟩
    cases he with
    | letter hletter =>
      obtain ⟨rfl, -⟩ := List.cons.inj h
      simp [escapeLetters] at hletter
    | unicode _ _ hlength _ =>
      have := congrArg List.length h
      simp only [List.length_append, List.length_cons, List.length_nil] at this
      omega
    | octal hcs =>
      obtain ⟨c, cs, rfl⟩ := List.exists_cons_of_ne_nil hcs.1
      obtain ⟨rfl, -⟩ := List.cons.inj h
      exact not_octalDigits rfl cs _ hcs
  exact ⟨spells_mixedBody, (string_decoded.1 _ _ spells_mixedBody).1,
    string_decoded.2 _ _ _ _ hscans (by decide) hstarts rfl⟩

end Literal

end ShapeLint
