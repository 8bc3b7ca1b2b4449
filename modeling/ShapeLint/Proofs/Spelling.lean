import Mathlib.Tactic.Lemma
import ShapeLint.Grammar.Expression

/-!
# How tokens are spelled

The classes of texts that names and literals are spelled by, each given by its form and without the
functions that read it, and for each class the lemma that its token is read whole from the front of
a text. A token ends where white space or the text ends. That is what `Apart` says of the text
behind it, and no class of characters that a token goes on with has a blank in it.
-/

namespace ShapeLint.Grammar

open ShapeLint.Text (isBlank isDigit isNameStart isNameChar digitValue?)
open ShapeLint.Literal (isFloatSuffix)

/-- What holds of all characters of a list is decided along the list, although there are only
finitely many characters. -/
instance decidableForallMem (P : Char → Prop) [DecidablePred P] (l : List Char) :
    Decidable (∀ c ∈ l, P c) :=
  List.decidableBAll P l

/-! ## Where a token ends -/

/-- White space between two tokens: at least one blank. A rendering has a gap at every place where
white space may stand, which is more than a text needs, so that no token can run into the next. -/
def Gap (s : List Char) : Prop :=
  s ≠ [] ∧ ∀ c ∈ s, isBlank c = true

instance (s : List Char) : Decidable (Gap s) :=
  inferInstanceAs (Decidable (s ≠ [] ∧ ∀ c ∈ s, isBlank c = true))

/-- The text is empty or starts with a blank. What stands behind a token is of this form, and it is
all that reading the token needs to know of it. -/
def Apart (s : List Char) : Prop :=
  ∀ c ∈ s.head?, isBlank c = true

/-- The text is empty or starts with a character outside of a class, so that a token of characters
of the class ends in front of it. -/
def Halts (p : Char → Bool) (s : List Char) : Prop :=
  ∀ c ∈ s.head?, p c = false

lemma Gap.apart {s : List Char} (h : Gap s) (t : List Char) : Apart (s ++ t) := by
  intro c hc
  obtain ⟨hne, hall⟩ := h
  cases s with
  | nil => exact absurd rfl hne
  | cons d s =>
    obtain rfl : d = c := Option.some.inj hc
    exact hall d (List.mem_cons_self ..)

lemma apart_of_all {s : List Char} (h : ∀ c ∈ s, isBlank c = true) : Apart s :=
  fun c hc => h c (List.mem_of_mem_head? hc)

lemma halts_cons {p : Char → Bool} {c : Char} (h : p c = false) (s : List Char) :
    Halts p (c :: s) := by
  intro d hd
  obtain rfl : c = d := Option.some.inj hd
  exact h

lemma takeWhile_of_halts {p : Char → Bool} {s : List Char} (h : Halts p s) :
    s.takeWhile p = [] := by
  cases s with
  | nil => rfl
  | cons c s => simp [h c rfl]

lemma dropWhile_of_halts {p : Char → Bool} {s : List Char} (h : Halts p s) : s.dropWhile p = s := by
  cases s with
  | nil => rfl
  | cons c s => simp [h c rfl]

lemma halts_dropWhile (p : Char → Bool) (s : List Char) : Halts p (s.dropWhile p) := by
  intro c hc
  have h := List.head?_dropWhile_not p s
  rwa [hc] at h

/-- A run of characters of a class that is followed by none of them is taken whole. Together with
the same lemma for what is left behind it, this is how all tokens but strings are read. -/
lemma takeWhile_append_of_halts {p : Char → Bool} {w s : List Char} (hw : ∀ c ∈ w, p c = true)
    (h : Halts p s) :
    (w ++ s).takeWhile p = w := by
  rw [List.takeWhile_append_of_pos hw, takeWhile_of_halts h, List.append_nil]

lemma dropWhile_append_of_halts {p : Char → Bool} {w s : List Char} (hw : ∀ c ∈ w, p c = true)
    (h : Halts p s) :
    (w ++ s).dropWhile p = s := by
  rw [List.dropWhile_append_of_pos hw, dropWhile_of_halts h]

/-! ## Blanks are in no token

White space is a finite set, so that what holds of every blank can be decided. -/

/-- All blank characters. There are finitely many, and a class of characters is free of blanks if it
has none of these, which can be decided. -/
def blanks : List Char :=
  [0x9, 0xA, 0xB, 0xC, 0xD, 0x20, 0x85, 0xA0, 0x1680, 0x2000, 0x2001, 0x2002, 0x2003, 0x2004,
    0x2005, 0x2006, 0x2007,
    0x2008, 0x2009, 0x200A, 0x2028, 0x2029, 0x202F, 0x205F, 0x3000].map Char.ofNat

lemma mem_blanks {c : Char} (h : isBlank c = true) : c ∈ blanks := by
  rw [← Char.ofNat_toNat c, blanks]
  apply List.mem_map_of_mem
  simp only [isBlank, Bool.or_eq_true, Bool.and_eq_true, decide_eq_true_eq, beq_iff_eq] at h
  simp only [List.mem_cons, List.not_mem_nil, or_false]
  omega

/-- A class of characters without a blank. A token that goes on with such characters ends at any
gap. -/
def Inky (p : Char → Bool) : Prop :=
  ∀ c ∈ blanks, p c = false

instance (p : Char → Bool) : Decidable (Inky p) :=
  inferInstanceAs (Decidable (∀ c ∈ blanks, p c = false))

/-- Behind a token stands white space or nothing, so no class without a blank goes on there. -/
lemma Inky.halts {p : Char → Bool} (hp : Inky p) {s : List Char} (h : Apart s) : Halts p s :=
  fun c hc => hp c (mem_blanks (h c hc))

/-- The characters of such a class can be told from white space. -/
lemma Inky.not_blank {p : Char → Bool} (hp : Inky p) {c : Char} (h : p c = true) :
    isBlank c = false := by
  cases hb : isBlank c with
  | false => rfl
  | true =>
    rw [hp c (mem_blanks hb)] at h
    cases h

lemma Inky.or {p q : Char → Bool} (hp : Inky p) (hq : Inky q) : Inky fun c => p c || q c :=
  fun c hc => Bool.or_eq_false_iff.mpr ⟨hp c hc, hq c hc⟩

/-- The classes that are read from tables, decided by going once through the blanks. The others are
put together from these and from single characters. -/
lemma inky_tables : Inky (!isBlank ·) ∧ Inky isNameChar ∧ Inky isDigit ∧ Inky isHexChar := by
  decide +kernel

/-- No blank is a given character that is not blank. -/
lemma inky_eq {d : Char} (h : isBlank d = false) : Inky (· == d) := by
  intro c hc
  have hb : isBlank c = true := by simpa using inky_tables.1 c hc
  rw [beq_eq_false_iff_ne]
  rintro rfl
  rw [hb] at h
  cases h

lemma inky_isNameChar : Inky isNameChar :=
  inky_tables.2.1

lemma inky_isDigit : Inky isDigit :=
  inky_tables.2.2.1

lemma inky_isHexChar : Inky isHexChar :=
  inky_tables.2.2.2

lemma inky_isNumeralChar : Inky isNumeralChar :=
  inky_isDigit.or (inky_eq (by decide))

lemma inky_isBinaryChar : Inky isBinaryChar :=
  ((inky_eq (by decide)).or (inky_eq (by decide))).or (inky_eq (by decide))

lemma inky_isFloatSuffix : Inky isFloatSuffix :=
  (((inky_eq (by decide)).or (inky_eq (by decide))).or (inky_eq (by decide))).or
    (inky_eq (by decide))

/-- Text behind a token does not start with a given character that is not blank. -/
theorem Apart.ne {s : List Char} (h : Apart s) {d : Char} (hd : isBlank d = false) (t : List Char) :
    s ≠ d :: t := by
  rintro rfl
  rw [h d rfl] at hd
  cases hd

/-! ## Names and words -/

/-- A letter, an underscore or a dollar sign, then more of these and digits. A word may still be
reserved. -/
def IsWord (w : String) : Prop :=
  ∃ c cs, w.toList = c :: cs ∧ isNameStart c = true ∧ ∀ d ∈ cs, isNameChar d = true

instance (w : String) : Decidable (IsWord w) :=
  match h : w.toList with
  | [] => .isFalse (by rintro ⟨c, cs, hw, -⟩; rw [h] at hw; cases hw)
  | c :: cs =>
    decidable_of_iff (isNameStart c = true ∧ ∀ d ∈ cs, isNameChar d = true)
      ⟨fun ⟨hc, hcs⟩ => ⟨c, cs, h, hc, hcs⟩, fun ⟨_, _, hw, hc, hcs⟩ => by
        obtain ⟨rfl, rfl⟩ := List.cons.inj (h.symm.trans hw)
        exact ⟨hc, hcs⟩⟩

/-- What a pattern can use as a name: a word that is not reserved. -/
def IsName (name : String) : Prop :=
  IsWord name ∧ name ∉ reservedWords

instance (name : String) : Decidable (IsName name) :=
  inferInstanceAs (Decidable (IsWord name ∧ name ∉ reservedWords))

lemma isNameChar_of_isNameStart {c : Char} (h : isNameStart c = true) : isNameChar c = true := by
  simp only [isNameStart, isNameChar, Char.isAlphanum, Bool.or_eq_true] at h ⊢
  rcases h with (h | h) | h
  · exact .inl (.inl (.inl h))
  · exact .inl (.inr h)
  · exact .inr h

lemma IsWord.all {w : String} (h : IsWord w) : ∀ c ∈ w.toList, isNameChar c = true := by
  obtain ⟨c, cs, hs, hc, hcs⟩ := h
  intro d hd
  rw [hs] at hd
  rcases List.mem_cons.mp hd with rfl | hd
  · exact isNameChar_of_isNameStart hc
  · exact hcs d hd

lemma endsWord_iff {s : List Char} : endsWord s = true ↔ Halts isNameChar s := by
  cases s with
  | nil => simp [endsWord, Halts]
  | cons c s => simp [endsWord, Halts]

lemma nameToken?_append {w : String} (h : IsWord w) {rest : List Char}
    (hr : Halts isNameChar rest) :
    nameToken? (w.toList ++ rest) = some (w.toList, rest) := by
  obtain ⟨c, cs, hs, hc, hcs⟩ := h
  rw [hs, List.cons_append, nameToken?, if_pos hc, takeWhile_append_of_halts hcs hr,
    dropWhile_append_of_halts hcs hr]

/-- A word stands at the front of a name, and the name ends there, only if it is the name. So a name
that begins like a reserved word is not taken for that word. -/
theorem word_fits_iff {w name : String} (hw : ∀ c ∈ w.toList, isNameChar c = true)
    (hn : ∀ c ∈ name.toList, isNameChar c = true) {rest : List Char} (hr : Halts isNameChar rest) :
    (w.toList.isPrefixOf (name.toList ++ rest) && endsWord ((name.toList ++ rest).drop w.length)) =
    true ↔ w = name := by
  rw [Bool.and_eq_true, List.isPrefixOf_iff_prefix, endsWord_iff, ← String.length_toList]
  constructor
  · -- both the word and the name are all characters of names that the text begins with
    rintro ⟨⟨r, hs⟩, hend⟩
    rw [← hs, List.drop_left] at hend
    have h : (w.toList ++ r).takeWhile isNameChar = w.toList := takeWhile_append_of_halts hw hend
    rw [hs, takeWhile_append_of_halts hn hr] at h
    exact String.toList_inj.mp h.symm
  · rintro rfl
    exact ⟨List.prefix_append _ _, by rwa [List.drop_left]⟩

/-- Looking for one of several words where a name stands finds that name if it is one of them, and
nothing else, however the words and the name begin. -/
lemma wordToken?_append {words : List String}
    (hw : ∀ w ∈ words, ∀ c ∈ w.toList, isNameChar c = true) {name : String}
    (hn : ∀ c ∈ name.toList, isNameChar c = true) {rest : List Char} (hr : Halts isNameChar rest) :
    wordToken? words (name.toList ++ rest) = if name ∈ words then some (name, rest) else none := by
  unfold wordToken?
  induction words with
  | nil => rfl
  | cons w words ih =>
    have hfit := word_fits_iff (hw w (List.mem_cons_self ..)) hn hr
    rw [List.findSome?_cons]
    -- The whole name is one of the words, or none of them ends where the name does.
    by_cases hwn : w = name
    · subst hwn
      rw [if_pos (hfit.mpr rfl), if_pos (List.mem_cons_self ..), ← String.length_toList,
        List.drop_left]
    · rw [if_neg (fun h => hwn (hfit.mp h)), ih fun w' h' => hw w' (List.mem_cons_of_mem _ h')]
      have hmem : name ∈ w :: words ↔ name ∈ words := by
        simp [Ne.symm hwn]
      simp only [hmem]

/-- A word that is found under a condition, which it meets only where it stands, is one of the words
and stands at the front of the text. Two conditions are used: that the word ends there, and none. -/
lemma eq_append_of_findSome? {words : List String} {fitting : String → List Char → Bool}
    (hfits : ∀ w s, fitting w s = true → w.toList <+: s) {s rest : List Char} {w : String}
    (h : (words.findSome? fun w => if fitting w s then some (w, s.drop w.length) else none) =
      some (w, rest)) :
    w ∈ words ∧ s = w.toList ++ rest := by
  obtain ⟨w', hmem, hfound⟩ := List.exists_of_findSome?_eq_some h
  split at hfound
  case isTrue hfit =>
    obtain ⟨rfl, rfl⟩ := Prod.mk.inj (Option.some.inj hfound)
    obtain ⟨t, rfl⟩ := hfits w' s hfit
    rw [← String.length_toList, List.drop_left]
    exact ⟨hmem, rfl⟩
  case isFalse => cases hfound

lemma eq_append_of_wordToken? {words : List String} {s rest : List Char} {w : String}
    (h : wordToken? words s = some (w, rest)) : w ∈ words ∧ s = w.toList ++ rest :=
  eq_append_of_findSome?
    (fun _ _ hfit => List.isPrefixOf_iff_prefix.mp (Bool.and_eq_true_iff.mp hfit).1) h

lemma eq_append_of_leadingWord? {words : List String} {s rest : List Char} {w : String}
    (h : leadingWord? words s = some (w, rest)) : w ∈ words ∧ s = w.toList ++ rest :=
  eq_append_of_findSome? (fun _ _ hfit => List.isPrefixOf_iff_prefix.mp hfit) h

/-- Text that does not start with the character of a name has no word at its front. That every word
has a first character is needed, as an empty one would stand anywhere. -/
theorem wordToken?_of_halts {words : List String} (hw : ∀ w ∈ words, IsWord w) {s : List Char}
    (hs : Halts isNameChar s) :
    wordToken? words s = none := by
  unfold wordToken?
  rw [List.findSome?_eq_none_iff]
  intro w hmem
  obtain ⟨c, cs, hc, hstart, -⟩ := hw w hmem
  -- Every word starts with a character of a name, and the text does not.
  have hno : w.toList.isPrefixOf s = false := by
    rw [hc]
    cases s with
    | nil => rfl
    | cons d s =>
      rw [List.isPrefixOf_cons_cons]
      have hd : (c == d) = false := by
        rw [beq_eq_false_iff_ne]
        rintro rfl
        exact absurd (isNameChar_of_isNameStart hstart) (by rw [hs c rfl]; exact Bool.false_ne_true)
      rw [hd, Bool.false_and]
  rw [hno, Bool.false_and, if_neg Bool.false_ne_true]

/-! ## Numbers -/

/-- A digit, then digits and underscores. The underscores may be doubled and may come last, since
the tokens of the pattern language are wider than what has a value. -/
def NumeralText (s : List Char) : Prop :=
  ∃ c cs, s = c :: cs ∧ isDigit c = true ∧ ∀ d ∈ cs, isNumeralChar d = true

/-- A sign, or nothing. -/
def SignText (s : List Char) : Prop :=
  s = [] ∨ s = ['+'] ∨ s = ['-']

/-- An exponent: its letter, perhaps a sign, and digits, without underscores. -/
def ExponentText (s : List Char) : Prop :=
  ∃ c mark digits, s = c :: (mark ++ digits) ∧ (c = 'e' ∨ c = 'E') ∧ SignText mark ∧ digits ≠ [] ∧
    ∀ d ∈ digits, isDigit d = true

/-- A suffix that makes a numeral a floating point literal. -/
def SuffixText (s : List Char) : Prop :=
  ∃ c, s = [c] ∧ isFloatSuffix c = true

/-- A text of a class, or nothing. -/
def Perhaps (P : List Char → Prop) (s : List Char) : Prop :=
  s = [] ∨ P s

/-- A floating point literal. It has a point behind its digits or in front of them, or an exponent,
or only a suffix; without one of these it is an integer. -/
inductive DoubleText : List Char → Prop where
  | pointBehind {w f e x : List Char} :
      NumeralText w → (∀ d ∈ f, isNumeralChar d = true) → Perhaps ExponentText e →
      Perhaps SuffixText x → DoubleText (w ++ '.' :: (f ++ (e ++ x)))
  | pointInFront {w e x : List Char} :
      NumeralText w → Perhaps ExponentText e → Perhaps SuffixText x →
      DoubleText ('.' :: (w ++ (e ++ x)))
  | exponent {w e x : List Char} :
      NumeralText w → ExponentText e → Perhaps SuffixText x → DoubleText (w ++ (e ++ x))
  | suffix {w x : List Char} : NumeralText w → SuffixText x → DoubleText (w ++ x)

/-- An integer literal: hexadecimal digits or binary digits behind their mark, or digits alone.
Underscores count as digits here. -/
inductive IntegerText : List Char → Prop where
  | hexadecimal {mark : Char} {digits : List Char} :
      (mark = 'x' ∨ mark = 'X') → digits ≠ [] → (∀ d ∈ digits, isHexChar d = true) →
      IntegerText ('0' :: mark :: digits)
  | binary {mark : Char} {digits : List Char} :
      (mark = 'b' ∨ mark = 'B') → digits ≠ [] → (∀ d ∈ digits, isBinaryChar d = true) →
      IntegerText ('0' :: mark :: digits)
  | plain {w : List Char} : NumeralText w → IntegerText w

lemma isNumeralChar_of_isDigit {c : Char} (h : isDigit c = true) : isNumeralChar c = true := by
  rw [isNumeralChar, h, Bool.true_or]

lemma numeral?_append {w s : List Char} (h : NumeralText w) (hs : Halts isNumeralChar s) :
    numeral? (w ++ s) = some (w, s) := by
  obtain ⟨c, cs, rfl, hc, hcs⟩ := h
  rw [List.cons_append, numeral?, if_pos hc, takeWhile_append_of_halts hcs hs,
    dropWhile_append_of_halts hcs hs]

lemma sign_append {mark digits s : List Char} (hm : SignText mark) (hne : digits ≠ [])
    (hd : ∀ d ∈ digits, isDigit d = true) : sign (mark ++ (digits ++ s)) = (mark, digits ++ s) := by
  rcases hm with rfl | rfl | rfl
  · cases digits with
    | nil => exact absurd rfl hne
    | cons d digits =>
      -- Without a sign a digit comes first, and no digit is one.
      have hdig := hd d (List.mem_cons_self ..)
      simp only [List.nil_append, List.cons_append]
      unfold sign
      split
      · rename_i heq
        obtain ⟨rfl, -⟩ := List.cons.inj heq
        exact absurd hdig (by decide)
      · rename_i heq
        obtain ⟨rfl, -⟩ := List.cons.inj heq
        exact absurd hdig (by decide)
      · rfl
  · rfl
  · rfl

/-- An exponent is read whole where no digit follows it. -/
lemma exponent?_append {e s : List Char} (h : ExponentText e) (hs : Halts isDigit s) :
    exponent? (e ++ s) = some (e, s) := by
  obtain ⟨c, mark, digits, rfl, hc, hm, hne, hd⟩ := h
  have hcond : (c == 'e' || c == 'E') = true := by simpa using hc
  rw [List.cons_append, List.append_assoc, exponent?, if_pos hcond, sign_append hm hne hd]
  simp only [takeWhile_append_of_halts hd hs, dropWhile_append_of_halts hd hs]
  rw [if_neg (by simpa using hne)]
  rfl

/-- The letters that start an exponent. Text that does not start with one has no exponent, so a
numeral ends there. -/
def isExponentMark (c : Char) : Bool :=
  c == 'e' || c == 'E'

lemma inky_isExponentMark : Inky isExponentMark :=
  (inky_eq (by decide)).or (inky_eq (by decide))

lemma exponent?_of_halts {s : List Char} (hs : Halts isExponentMark s) : exponent? s = none := by
  cases s with
  | nil => rfl
  | cons c s => rw [exponent?, if_neg (by simpa [isExponentMark] using hs c rfl)]

lemma floatSuffix?_append {x s : List Char} (h : SuffixText x) :
    floatSuffix? (x ++ s) = some (x, s) := by
  obtain ⟨c, rfl, hc⟩ := h
  rw [List.cons_append, floatSuffix?, if_pos hc, List.nil_append]

lemma floatSuffix?_of_halts {s : List Char} (hs : Halts isFloatSuffix s) :
    floatSuffix? s = none := by
  cases s with
  | nil => rfl
  | cons c s => rw [floatSuffix?, if_neg (by simpa using hs c rfl)]

/-- Two tokens after one another are one token with the characters of both. The four forms of
floating point literals are chains of this kind, and the three lemmas here read them from their
parts. -/
lemma followed_eq_some {p q : List Char → Option (List Char × List Char)} {s t u a b : List Char}
    (hp : p s = some (a, t)) (hq : q t = some (b, u)) : followed p q s = some (a ++ b, u) := by
  simp only [followed, hp, hq]

lemma followed_eq_none_left {p q : List Char → Option (List Char × List Char)} {s : List Char}
    (hp : p s = none) :
    followed p q s = none := by
  simp only [followed, hp]

lemma followed_eq_none_right {p q : List Char → Option (List Char × List Char)} {s t a : List Char}
    (hp : p s = some (a, t)) (hq : q t = none) : followed p q s = none := by
  simp only [followed, hp, hq]

lemma maybe_eq_some {p : List Char → Option (List Char × List Char)} {s a t : List Char}
    (h : p s = some (a, t)) :
    maybe p s = some (a, t) := by
  simp only [maybe, optionally, h, Option.getD_some]

lemma maybe_eq_nothing {p : List Char → Option (List Char × List Char)} {s : List Char}
    (h : p s = none) :
    maybe p s = some ([], s) := by
  simp only [maybe, optionally, h, Option.getD_none]

lemma eq_of_isFloatSuffix {c : Char} (h : isFloatSuffix c = true) :
    c = 'f' ∨ c = 'F' ∨ c = 'd' ∨ c = 'D' := by
  simpa [isFloatSuffix, or_assoc] using h

/-- A suffix, if there is one, and what is behind it do not go on with a class that has none of the
letters of suffixes. -/
lemma Perhaps.suffix_halts {p : Char → Bool} {x s : List Char} (h : Perhaps SuffixText x)
    (hp : ['f', 'F', 'd', 'D'].all (fun c => !p c) = true) (hs : Halts p s) : Halts p (x ++ s) := by
  rcases h with rfl | ⟨c, rfl, hc⟩
  · exact hs
  · refine halts_cons ?_ s
    have hall := List.all_eq_true.mp hp
    rcases eq_of_isFloatSuffix hc with rfl | rfl | rfl | rfl <;> simpa using hall _ (by simp)

lemma ExponentText.halts {p : Char → Bool} {e : List Char} (h : ExponentText e) (hp : p 'e' = false)
    (hp' : p 'E' = false) (s : List Char) : Halts p (e ++ s) := by
  obtain ⟨c, mark, digits, rfl, hc, -⟩ := h
  refine halts_cons ?_ _
  rcases hc with rfl | rfl
  · exact hp
  · exact hp'

lemma maybe_suffix_append {x s : List Char} (h : Perhaps SuffixText x) (hs : Apart s) :
    maybe floatSuffix? (x ++ s) = some (x, s) := by
  rcases h with rfl | h
  · exact maybe_eq_nothing (floatSuffix?_of_halts (inky_isFloatSuffix.halts hs))
  · exact maybe_eq_some (floatSuffix?_append h)

/-- An exponent that may be missing is read if it is there, and nothing is read for one that is not:
neither a suffix nor white space begins like an exponent. -/
lemma maybe_exponent_append {e x s : List Char} (h : Perhaps ExponentText e)
    (hx : Perhaps SuffixText x) (hs : Apart s) :
    maybe exponent? (e ++ (x ++ s)) = some (e, x ++ s) := by
  rcases h with rfl | h
  · exact maybe_eq_nothing (exponent?_of_halts (hx.suffix_halts rfl (inky_isExponentMark.halts hs)))
  · exact maybe_eq_some (exponent?_append h (hx.suffix_halts (by decide) (inky_isDigit.halts hs)))

/-- What stands behind the digits of a floating point literal, an exponent and a suffix if they are
there, is read to its end. -/
lemma ending_append {e x s : List Char} (he : Perhaps ExponentText e) (hx : Perhaps SuffixText x)
    (hs : Apart s) :
    followed (maybe exponent?) (maybe floatSuffix?) (e ++ (x ++ s)) = some (e ++ x, s) :=
  followed_eq_some (maybe_exponent_append he hx hs) (maybe_suffix_append hx hs)

/-- What stands behind the digits of a floating point literal begins with no digit and with no
underscore, so the digits are read to their end too. -/
lemma ending_halts {e x s : List Char} (he : Perhaps ExponentText e) (hx : Perhaps SuffixText x)
    (hs : Apart s) :
    Halts isNumeralChar (e ++ (x ++ s)) := by
  rcases he with rfl | he
  · exact hx.suffix_halts (by decide) (inky_isNumeralChar.halts hs)
  · exact he.halts (by decide) (by decide) _

lemma NumeralText.point?_eq_none {w : List Char} (h : NumeralText w) (s : List Char) :
    point? (w ++ s) = none := by
  obtain ⟨c, cs, rfl, hc, -⟩ := h
  rw [List.cons_append]
  unfold point?
  split
  · rename_i heq
    obtain ⟨rfl, -⟩ := List.cons.inj heq
    exact absurd hc (by decide)
  · rfl

lemma point?_of_halts {s : List Char} (h : Halts (· == '.') s) : point? s = none := by
  unfold point?
  split
  · exact absurd (h '.' rfl) (by decide)
  · rfl

/-- A floating point literal is read whole. The forms are tried in order, so for each of them the
ones in front have to fail. -/
theorem doubleToken?_append {t s : List Char} (h : DoubleText t) (hs : Apart s) :
    doubleToken? (t ++ s) = some (t, s) := by
  unfold doubleToken?
  cases h with
  -- the first form that is tried
  | @pointBehind w f e x hw hf he hx =>
    have hend := ending_append he hx hs
    have hhalt := ending_halts he hx hs
    have hfrac : fraction? (f ++ (e ++ (x ++ s))) = some (f, e ++ (x ++ s)) := by
      rw [fraction?, takeWhile_append_of_halts hf hhalt, dropWhile_append_of_halts hf hhalt]
    have hnum : numeral? (w ++ '.' :: (f ++ (e ++ (x ++ s)))) =
        some (w, '.' :: (f ++ (e ++ (x ++ s)))) :=
      numeral?_append hw (halts_cons (by decide) _)
    have hall :=
      followed_eq_some hnum (followed_eq_some (p := point?) rfl (followed_eq_some hfrac hend))
    simp only [List.append_assoc, List.cons_append, List.nil_append] at hall ⊢
    rw [hall]
    rfl
  -- no digits in front of the point, so the first form fails at once
  | @pointInFront w e x hw he hx =>
    have hend := ending_append he hx hs
    have hhalt := ending_halts he hx hs
    have hall := followed_eq_some (p := point?) (s := '.' :: (w ++ (e ++ (x ++ s)))) rfl
      (followed_eq_some (numeral?_append hw hhalt) hend)
    have hno : numeral? ('.' :: (w ++ (e ++ (x ++ s)))) = none := rfl
    simp only [List.append_assoc, List.cons_append, List.nil_append] at hall ⊢
    rw [hall, followed_eq_none_left hno]
    rfl
  -- the digits are there but no point behind them, and no point in front
  | @exponent w e x hw he hx =>
    have hnum : numeral? (w ++ (e ++ (x ++ s))) = some (w, e ++ (x ++ s)) :=
      numeral?_append hw (he.halts (by decide) (by decide) _)
    have hexp :=
      exponent?_append he (hx.suffix_halts (p := isDigit) (by decide) (inky_isDigit.halts hs))
    have hall := followed_eq_some hnum (followed_eq_some hexp (maybe_suffix_append hx hs))
    have hpoint : point? (e ++ (x ++ s)) = none :=
      point?_of_halts (he.halts (by decide) (by decide) _)
    simp only [List.append_assoc] at hall ⊢
    rw [hall, followed_eq_none_right hnum (followed_eq_none_left hpoint),
      followed_eq_none_left (hw.point?_eq_none _)]
    rfl
  -- as before, and there is no exponent either
  | @suffix w x hw hx =>
    have hx' : Perhaps SuffixText x := .inr hx
    have hnum : numeral? (w ++ (x ++ s)) = some (w, x ++ s) :=
      numeral?_append hw (hx'.suffix_halts (by decide) (inky_isNumeralChar.halts hs))
    have hall := followed_eq_some hnum (floatSuffix?_append (s := s) hx)
    have hpoint : point? (x ++ s) = none :=
      point?_of_halts (hx'.suffix_halts (by decide) ((inky_eq (by decide)).halts hs))
    have hexp : exponent? (x ++ s) = none :=
      exponent?_of_halts (hx'.suffix_halts rfl (inky_isExponentMark.halts hs))
    simp only [List.append_assoc] at hall ⊢
    rw [hall, followed_eq_none_right hnum (followed_eq_none_left hpoint),
      followed_eq_none_left (hw.point?_eq_none _),
      followed_eq_none_right hnum (followed_eq_none_left hexp)]
    rfl

/-- Digits that neither a point, an exponent nor a suffix follows are no floating point literal. -/
lemma doubleToken?_eq_none {w u : List Char} (hw : NumeralText w) (hu : Halts isNumeralChar u)
    (hpoint : Halts (· == '.') u) (hexp : Halts isExponentMark u)
    (hsuffix : Halts isFloatSuffix u) :
    doubleToken? (w ++ u) = none := by
  have hnum := numeral?_append hw hu
  unfold doubleToken?
  dsimp only
  rw [followed_eq_none_right hnum (followed_eq_none_left (point?_of_halts hpoint)),
    followed_eq_none_left (hw.point?_eq_none u),
    followed_eq_none_right hnum (followed_eq_none_left (exponent?_of_halts hexp)),
    followed_eq_none_right hnum (floatSuffix?_of_halts hsuffix)]
  rfl

/-- An integer literal is not taken for a floating point literal, although these are looked for
first. Behind a radix mark it could only be its leading zero, which ends at the mark. -/
theorem IntegerText.doubleToken?_append {t s : List Char} (h : IntegerText t) (hs : Apart s) :
    doubleToken? (t ++ s) = none := by
  have hzero : NumeralText ['0'] := ⟨'0', [], rfl, by decide, by simp⟩
  cases h with
  | @hexadecimal mark digits hm hne hd =>
    refine doubleToken?_eq_none (u := mark :: (digits ++ s)) hzero ?_ ?_ ?_ ?_ <;>
      rcases hm with rfl | rfl <;> exact halts_cons (by decide) _
  | @binary mark digits hm hne hd =>
    refine doubleToken?_eq_none (u := mark :: (digits ++ s)) hzero ?_ ?_ ?_ ?_ <;>
      rcases hm with rfl | rfl <;> exact halts_cons (by decide) _
  | plain hw =>
    exact doubleToken?_eq_none hw (inky_isNumeralChar.halts hs) ((inky_eq (by decide)).halts hs)
      (inky_isExponentMark.halts hs) (inky_isFloatSuffix.halts hs)

/-- Digits behind a radix mark are read whole, if there is one at least. -/
lemma markedToken?_append {lower upper mark : Char} {p : Char → Bool} {digits s : List Char}
    (hm : mark = lower ∨ mark = upper) (hne : digits ≠ []) (hd : ∀ d ∈ digits, p d = true)
    (hs : Halts p s) :
    markedToken? lower upper p ('0' :: mark :: (digits ++ s)) =
      some ('0' :: mark :: digits, s) := by
  have hcond : (mark == lower || mark == upper) = true := by simpa using hm
  simp only [markedToken?, if_pos hcond, takeWhile_append_of_halts hd hs,
    dropWhile_append_of_halts hd hs]
  rw [if_neg (by simpa using hne)]

/-- A numeral is not taken for one with a radix mark, not even if it starts with the zero that such
a mark follows. -/
lemma NumeralText.markedToken?_append {w s : List Char} (h : NumeralText w) (hs : Apart s)
    {lower upper : Char} {p : Char → Bool} (hl : isNumeralChar lower = false)
    (hu : isNumeralChar upper = false) (hl' : isBlank lower = false) (hu' : isBlank upper = false) :
    markedToken? lower upper p (w ++ s) = none := by
  obtain ⟨c, cs, rfl, -, hcs⟩ := h
  -- The character behind a leading zero belongs to the numeral or is a blank, and the mark is
  -- neither.
  have hmark : ∀ d r, cs ++ s = d :: r → (d == lower || d == upper) = false := by
    intro d r hd
    rw [Bool.or_eq_false_iff, beq_eq_false_iff_ne, beq_eq_false_iff_ne]
    cases cs with
    | nil =>
      have hne := fun {e : Char} (he : isBlank e = false) => hs.ne he r
      exact ⟨by rintro rfl; exact hne hl' hd, by rintro rfl; exact hne hu' hd⟩
    | cons e cs =>
      obtain rfl := (List.cons.inj hd).1
      have he := hcs e (List.mem_cons_self ..)
      exact ⟨by rintro rfl; simp [he] at hl, by rintro rfl; simp [he] at hu⟩
  rw [List.cons_append]
  unfold markedToken?
  split
  · rename_i d r heq
    rw [if_neg (by rw [hmark d r (List.cons.inj heq).2]; exact Bool.false_ne_true)]
  · rfl

/-- An integer literal is read whole, whichever of the three forms it has. -/
theorem integerToken?_append {t s : List Char} (h : IntegerText t) (hs : Apart s) :
    integerToken? (t ++ s) = some (t, s) := by
  unfold integerToken?
  cases h with
  | @hexadecimal mark digits hm hne hd =>
    have htoken := Grammar.markedToken?_append hm hne hd (inky_isHexChar.halts hs)
    rw [List.cons_append, List.cons_append, htoken]
    rfl
  | @binary mark digits hm hne hd =>
    have htoken := Grammar.markedToken?_append hm hne hd (inky_isBinaryChar.halts hs)
    -- The mark of a binary literal is none of a hexadecimal one.
    have hhex : markedToken? 'x' 'X' isHexChar ('0' :: mark :: (digits ++ s)) = none := by
      rcases hm with rfl | rfl <;> rfl
    rw [List.cons_append, List.cons_append, htoken, hhex]
    rfl
  | plain hw =>
    rw [hw.markedToken?_append hs (by decide) (by decide) (by decide) (by decide),
      hw.markedToken?_append hs (by decide) (by decide) (by decide) (by decide),
      numeral?_append hw (inky_isNumeralChar.halts hs)]
    rfl

/-! ## Strings -/

/-- What stands between the quotes of a string literal: characters other than quotes, backslashes
and line ends, and pairs of a backslash and any character but a line feed. -/
inductive StringBody : List Char → Prop where
  | nil : StringBody []
  | plain {c : Char} {s : List Char} :
      c ∉ ['"', '\\', '\r', '\n'] → StringBody s → StringBody (c :: s)
  | escaped {c : Char} {s : List Char} : c ≠ '\n' → StringBody s → StringBody ('\\' :: c :: s)

/-- A string literal with its quotes. -/
def StringText (s : List Char) : Prop :=
  ∃ body, s = '"' :: (body ++ ['"']) ∧ StringBody body

/-- A character that starts no escape, neither a whole one nor one that the text cuts short, is no
backslash. The cases of the functions that read strings give the two facts and not the
conclusion. -/
theorem ne_backslash {c : Char} {s : List Char} (hend : c = '\\' → s = [] → False)
    (hescape : ∀ d t, c = '\\' → s = d :: t → False) : c ≠ '\\' := by
  intro hc
  cases s with
  | nil => exact hend hc rfl
  | cons d t => exact hescape d t hc rfl

/-- The body of a string literal is read up to the quote that ends it, since a quote inside it
stands behind a backslash. -/
lemma stringBody?_append {body : List Char} (h : StringBody body) (s : List Char) :
    stringBody? (body ++ '"' :: s) = some (body ++ ['"'], s) := by
  induction h with
  | nil => rfl
  | @plain c t hc _ ih =>
    simp only [List.mem_cons, List.not_mem_nil, or_false, not_or] at hc
    obtain ⟨hquote, hslash, hreturn, hfeed⟩ := hc
    rw [List.cons_append, stringBody?, if_neg hquote, if_neg (by simp [hreturn, hfeed]), ih]
    · rfl
    · exact fun heq _ => hslash heq
    · exact fun _ _ heq => absurd heq hslash
  | @escaped c t hc _ ih =>
    rw [List.cons_append, List.cons_append, stringBody?, if_neg hc, ih]
    rfl

/-- A string literal is read whole, whatever follows it. It is the only token that needs no white
space behind it. -/
theorem stringToken?_append {t : List Char} (h : StringText t) (s : List Char) :
    stringToken? (t ++ s) = some (t, s) := by
  obtain ⟨body, rfl, hbody⟩ := h
  rw [List.cons_append, List.append_assoc, stringToken?]
  simp only [List.cons_append, List.nil_append, stringBody?_append hbody, Option.map_some]

end ShapeLint.Grammar
