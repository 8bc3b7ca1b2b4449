import ShapeLint.Proofs.Image

/-!
# Tokens and what follows them

Which token stands at the front of a text does not depend on how the text goes on far behind it. A
text goes on by a `Break` if what is put behind it starts with white space or with a bracket that no
token goes on with, and has no quote in it that would end a string literal. Reading a token and then
putting a break behind the rest is the same as putting it behind the whole text first (`Local`),
whether the token is there or not.
-/

namespace ShapeLint.Grammar

open Reader
open Text (isBlank isDigit isNameStart isNameChar)
open Literal (isFloatSuffix)

/-- The brackets that no token goes on with. An opening parenthesis is none of them, since a name in
front of it becomes a call. -/
def breakChars : List Char :=
  ['[', ']', ')']

/-- A text that can be put behind any other without going on with its last token: it starts with
white space or with one of the brackets, and has no quote in it that would end an open string
literal. -/
structure Break (y : List Char) : Prop where
  head : ∀ c ∈ y.head?, isBlank c = true ∨ c ∈ breakChars
  quoteless : '"' ∉ y

/-- A class of characters without blanks and without the brackets that break tokens, as all classes
are that tokens go on with. -/
def Inside (p : Char → Bool) : Prop :=
  Inky p ∧ ∀ c ∈ breakChars, p c = false

lemma Inside.halts {p : Char → Bool} (hp : Inside p) {y : List Char} (hy : Break y) :
    Halts p y := by
  intro c hc
  rcases hy.head c hc with hblank | hbracket
  · exact hp.1 c (mem_blanks hblank)
  · exact hp.2 c hbracket

/-- A character that is neither blank nor one of the brackets. Symbols and words are made of such
characters. -/
def Inner (c : Char) : Prop :=
  isBlank c = false ∧ c ∉ breakChars

instance (c : Char) : Decidable (Inner c) :=
  inferInstanceAs (Decidable (isBlank c = false ∧ c ∉ breakChars))

lemma Break.ne {y : List Char} (hy : Break y) {c : Char} (hc : Inner c) : y.head? ≠ some c := by
  intro h
  rcases hy.head c h with hb | hb
  · exact Bool.false_ne_true (hc.1.symm.trans hb)
  · exact hc.2 hb

lemma break_nil : Break [] :=
  ⟨fun _ h => (nomatch h), List.not_mem_nil⟩

/-- A class of characters stops at a break as it stops at the end of the text. -/
lemma takeWhile_append_break {p : Char → Bool} {y : List Char} (hy : Halts p y) (s : List Char) :
    (s ++ y).takeWhile p = s.takeWhile p := by
  induction s with
  | nil => exact takeWhile_of_halts hy
  | cons c s ih => rw [List.cons_append, List.takeWhile_cons, List.takeWhile_cons, ih]

lemma dropWhile_append_break {p : Char → Bool} {y : List Char} (hy : Halts p y) (s : List Char) :
    (s ++ y).dropWhile p = s.dropWhile p ++ y := by
  induction s with
  | nil => exact dropWhile_of_halts hy
  | cons c s ih =>
    rw [List.cons_append, List.dropWhile_cons, List.dropWhile_cons, ih]
    split <;> rfl

/-! ## Functions of a text -/

section

variable {α β : Type} {f g : List Char → Option (α × List Char)}

/-- What is read, with a text put behind what is left. -/
def withBehind (y : List Char) (found : α × List Char) : α × List Char :=
  (found.1, found.2 ++ y)

/-- The function reads the same whatever break is put behind the text, and reads nothing from the
text with a break if it reads nothing from the text alone. -/
def Local (f : List Char → Option (α × List Char)) : Prop :=
  ∀ s y, Break y → f (s ++ y) = (f s).map (withBehind y)

lemma Local.at_break (hf : Local f) (hnil : f [] = none) {y : List Char} (hy : Break y) :
    f y = none := by
  have h := hf [] y hy
  rwa [hnil] at h

/-- It is enough to look at texts that start with a character, and at the break itself, from which
nothing must be read. -/
lemma local_of_cons (hbreak : ∀ y, Break y → f y = none)
    (hcons : ∀ c s y, Break y → f (c :: (s ++ y)) = (f (c :: s)).map (withBehind y)) : Local f := by
  intro s y hy
  cases s with
  | nil => rw [List.nil_append, hbreak y hy, hbreak [] break_nil]; rfl
  | cons c s => exact hcons c s y hy

lemma Local.orElse (hf : Local f) (hg : Local g) : Local fun s => f s <|> g s := by
  intro s y hy
  simp only [hf s y hy, hg s y hy]
  cases f s <;> rfl

lemma local_findSome {entries : List β} {f : β → List Char → Option (α × List Char)}
    (h : ∀ b ∈ entries, Local (f b)) :
    Local fun s => entries.findSome? fun b => f b s := by
  intro s y hy
  induction entries with
  | nil => rfl
  | cons b entries ih =>
    obtain ⟨hb, hentries⟩ := List.forall_mem_cons.mp h
    have hrest := ih hentries
    simp only [List.findSome?_cons, hb s y hy, hrest]
    cases f b s <;> rfl

/-! ## Words -/

/-- A word of inner characters that is not at the front of a text does not come to be there by a
break: the rest of it would have to stand in the break. -/
lemma isPrefixOf_append_break {w : List Char} (hw : ∀ c ∈ w, Inner c) {y : List Char} (hy : Break y)
    (s : List Char) :
    w.isPrefixOf (s ++ y) = w.isPrefixOf s := by
  induction w generalizing s with
  | nil => rw [List.isPrefixOf_nil_left, List.isPrefixOf_nil_left]
  | cons c w ih =>
    obtain ⟨hc, hw⟩ := List.forall_mem_cons.mp hw
    cases s with
    | cons d s => rw [List.cons_append, List.isPrefixOf_cons_cons, List.isPrefixOf_cons_cons, ih hw]
    | nil =>
      cases y with
      | nil => rfl
      | cons d y =>
        -- the text has ended inside of the word, and the break does not go on with it
        have hne : c ≠ d := fun h => hy.ne hc (by rw [h]; rfl)
        rw [List.nil_append, List.isPrefixOf_cons_cons, beq_eq_false_iff_ne.mpr hne, Bool.false_and]
        rfl

/-- A word that is found under a condition on what stands there and right behind it, if the
condition does not see the break either. -/
lemma local_word {w : String} {a : α} (next : List Char → Bool) (hw : ∀ c ∈ w.toList, Inner c)
    (hnext : ∀ s y, Break y → next (s ++ y) = next s) :
    Local fun s => if w.toList.isPrefixOf s && next (s.drop w.length) then some (a, s.drop w.length)
      else none := by
  intro s y hy
  dsimp only
  rw [isPrefixOf_append_break hw hy]
  by_cases hfits : w.toList.isPrefixOf s = true
  · obtain ⟨t, rfl⟩ := List.isPrefixOf_iff_prefix.mp hfits
    rw [List.append_assoc, ← String.length_toList, List.drop_left, List.drop_left, hnext t y hy]
    split <;> rfl
  · rw [eq_false_of_ne_true hfits, Bool.false_and, Bool.false_and, if_neg Bool.false_ne_true,
      if_neg Bool.false_ne_true]
    rfl

lemma endsWord_append_break {y : List Char} (hy : Break y) (s : List Char) :
    endsWord (s ++ y) = endsWord s := by
  cases s with
  | cons c s => rfl
  | nil => exact endsWord_iff.mpr (Inside.halts ⟨inky_isNameChar, by decide⟩ hy)

lemma local_wordToken {words : List String} (h : ∀ w ∈ words, ∀ c ∈ w.toList, Inner c) :
    Local (wordToken? words) :=
  local_findSome fun w hw => local_word endsWord (h w hw) fun s _ hy => endsWord_append_break hy s

lemma local_leadingWord {words : List String} (h : ∀ w ∈ words, ∀ c ∈ w.toList, Inner c) :
    Local (leadingWord? words) := by
  refine local_findSome fun w hw => ?_
  have hfound : Local fun s =>
      if w.toList.isPrefixOf s && true then some (w, s.drop w.length) else none :=
    local_word (fun _ => true) (h w hw) fun _ _ _ => rfl
  simpa only [Bool.and_true] using hfound

lemma afterWord?_append_break {w : List Char} (hw : ∀ c ∈ w, Inner c) {y : List Char} (hy : Break y)
    (s : List Char) :
    afterWord? w (s ++ y) = (afterWord? w s).map (· ++ y) := by
  induction w generalizing s with
  | nil => rfl
  | cons c w ih =>
    obtain ⟨hc, hw⟩ := List.forall_mem_cons.mp hw
    cases s with
    | cons d s =>
      rw [List.cons_append, afterWord?, afterWord?, ih hw]
      split <;> rfl
    | nil =>
      cases y with
      | nil => rfl
      | cons d y =>
        have hne : c ≠ d := fun h => hy.ne hc (by rw [h]; rfl)
        simp [afterWord?, hne]

lemma local_afterWord {w : String} (hw : ∀ c ∈ w.toList, Inner c) :
    Local fun s => (afterWord? w.toList s).map fun rest => ((), rest) := by
  intro s y hy
  simp only [afterWord?_append_break hw hy]
  cases afterWord? w.toList s <;> rfl

/-- Operators are local, with the character that must not follow some of them: a break does not
start with that character. -/
lemma local_operator {table : List (String × Option Char × BinaryOperator)}
    (h : ∀ entry ∈ table, (∀ c ∈ entry.1.toList, Inner c) ∧ ∀ c ∈ entry.2.1.toList, Inner c) :
    Local fun s => table.findSome? fun entry =>
      if fits s entry then some (entry.2.2, s.drop entry.1.length) else none := by
  refine local_findSome fun entry hentry => ?_
  obtain ⟨hsymbol, hfollow⟩ := h entry hentry
  refine local_word (fun rest => entry.2.1.isNone || rest.head? != entry.2.1) hsymbol fun s y hy =>
    ?_
  cases s with
  | cons c s => rfl
  | nil =>
    cases hf : entry.2.1 with
    | none => rfl
    | some c =>
      have hne : y.head? ≠ some c := hy.ne (hfollow c (Option.mem_toList.mpr hf))
      rw [List.nil_append, bne_iff_ne.mpr hne]
      rfl

lemma local_nameToken : Local nameToken? := by
  refine local_of_cons (fun y hy => ?_) fun c s y hy => ?_
  · cases y with
    | nil => rfl
    | cons c y =>
      have hc : isNameStart c = false := by
        have hchar : isNameChar c = false := Inside.halts ⟨inky_isNameChar, by decide⟩ hy c rfl
        exact eq_false_of_ne_true fun h =>
          Bool.false_ne_true (hchar.symm.trans (isNameChar_of_isNameStart h))
      rw [nameToken?, hc, if_neg Bool.false_ne_true]
  · have hhalts : Halts isNameChar y := Inside.halts ⟨inky_isNameChar, by decide⟩ hy
    rw [nameToken?, nameToken?, takeWhile_append_break hhalts, dropWhile_append_break hhalts]
    split <;> rfl

/-! ## Literals -/

section Literals

variable {p q : List Char → Option (List Char × List Char)}

lemma Local.followed (hp : Local p) (hq : Local q) : Local (followed p q) := by
  intro s y hy
  unfold Grammar.followed
  rw [hp s y hy]
  cases p s with
  | none => rfl
  | some a =>
    rw [Option.map_some]
    dsimp only [withBehind]
    rw [hq a.2 y hy]
    cases q a.2 <;> rfl

lemma Local.maybe (hp : Local p) : Local (maybe p) := by
  intro s y hy
  unfold Grammar.maybe optionally
  rw [hp s y hy]
  cases p s <;> rfl

lemma inside_isNumeralChar : Inside isNumeralChar :=
  ⟨inky_isNumeralChar, by decide⟩

lemma inside_isDigit : Inside isDigit :=
  ⟨inky_isDigit, by decide⟩

lemma local_fraction : Local fraction? := by
  intro s y hy
  rw [fraction?, fraction?, takeWhile_append_break (inside_isNumeralChar.halts hy),
    dropWhile_append_break (inside_isNumeralChar.halts hy)]
  rfl

lemma local_numeral : Local numeral? := by
  refine local_of_cons (fun y hy => ?_) fun c s y hy => ?_
  · cases y with
    | nil => rfl
    | cons c y => rw [numeral?, inside_isDigit.halts hy c rfl, if_neg Bool.false_ne_true]
  · rw [numeral?, numeral?, takeWhile_append_break (inside_isNumeralChar.halts hy),
      dropWhile_append_break (inside_isNumeralChar.halts hy)]
    split <;> rfl

lemma local_point : Local point? := by
  refine local_of_cons (fun y hy => point?_of_halts ?_) fun c s y hy => ?_
  · exact Inside.halts ⟨inky_eq (by decide), by decide⟩ hy
  · by_cases hc : c = '.'
    · subst hc
      rfl
    · have hnone (t : List Char) : point? (c :: t) = none :=
        point?_of_halts (halts_cons (p := fun d => d == '.') (beq_eq_false_iff_ne.mpr hc) t)
      rw [hnone, hnone]
      rfl

lemma local_floatSuffix : Local floatSuffix? := by
  refine local_of_cons (fun y hy => floatSuffix?_of_halts ?_) fun c s y hy => ?_
  · exact Inside.halts ⟨inky_isFloatSuffix, by decide⟩ hy
  · rw [floatSuffix?, floatSuffix?]
    split <;> rfl

/-- A sign that is not there is not in the break either, since breaks start with no sign. -/
lemma sign_append_break {y : List Char} (hy : Break y) (s : List Char) :
    sign (s ++ y) = ((sign s).1, (sign s).2 ++ y) := by
  cases s with
  | nil =>
    -- The text is empty, and the break begins with no sign.
    have hplus : ∀ t, y ≠ '+' :: t := by
      rintro t rfl
      exact hy.ne (by decide : Inner '+') rfl
    have hminus : ∀ t, y ≠ '-' :: t := by
      rintro t rfl
      exact hy.ne (by decide : Inner '-') rfl
    rw [List.nil_append]
    unfold sign
    split
    case h_1 t => exact absurd rfl (hplus t)
    case h_2 t => exact absurd rfl (hminus t)
    case h_3 => rfl
  | cons c s =>
    by_cases hplus : c = '+'
    · subst hplus
      rfl
    by_cases hminus : c = '-'
    · subst hminus
      rfl
    have hnone (t : List Char) : sign (c :: t) = ([], c :: t) := by simp [sign, hplus, hminus]
    rw [List.cons_append, hnone, hnone]
    rfl

/-- An exponent is local. That its letter may stand at the end of the text, where an exponent fails
for want of digits, does no harm: a break starts with no digit. -/
lemma local_exponent : Local exponent? := by
  refine local_of_cons (fun y hy => exponent?_of_halts ?_) fun c s y hy => ?_
  · exact Inside.halts ⟨inky_isExponentMark, by decide⟩ hy
  · rw [exponent?, exponent?]
    dsimp only
    rw [sign_append_break hy, takeWhile_append_break (inside_isDigit.halts hy),
      dropWhile_append_break (inside_isDigit.halts hy)]
    split
    · split <;> rfl
    · rfl

/-- Floating point literals are local, as their parts are. -/
lemma local_doubleToken : Local doubleToken? := by
  have hending := local_exponent.maybe.followed local_floatSuffix.maybe
  have hbehind := local_numeral.followed (local_point.followed (local_fraction.followed hending))
  have hinFront := local_point.followed (local_numeral.followed hending)
  have hexponent := local_numeral.followed (local_exponent.followed local_floatSuffix.maybe)
  have hsuffix := local_numeral.followed local_floatSuffix
  exact hbehind.orElse (hinFront.orElse (hexponent.orElse hsuffix))

/-- Digits behind a radix mark are local. The mark and the digits are inner characters, and a zero
at the end of the text is followed by neither in a break. -/
lemma local_markedToken {lower upper : Char} {class_ : Char → Bool} (hl : Inner lower)
    (hu : Inner upper) (hclass : Inside class_) : Local (markedToken? lower upper class_) := by
  -- a break behind a leading zero does not start with the mark
  have hzero (y : List Char) (hy : Break y) :
      markedToken? lower upper class_ ('0' :: y) = none := by
    cases y with
    | nil => rfl
    | cons c y =>
      have hne : (c == lower || c == upper) = false := by
        have hlower : c ≠ lower := fun h => hy.ne hl (by rw [← h]; rfl)
        have hupper : c ≠ upper := fun h => hy.ne hu (by rw [← h]; rfl)
        rw [beq_eq_false_iff_ne.mpr hlower, beq_eq_false_iff_ne.mpr hupper]
        rfl
      rw [markedToken?, hne, if_neg Bool.false_ne_true]
  -- all else starts with no zero
  have hother (c : Char) (hc : c ≠ '0') (t : List Char) :
      markedToken? lower upper class_ (c :: t) = none := by
    simp [markedToken?, hc]
  refine local_of_cons (fun y hy => ?_) fun c s y hy => ?_
  · cases y with
    | nil => rfl
    | cons c y => exact hother c (fun h => hy.ne (by decide : Inner '0') (by rw [h]; rfl)) y
  · by_cases hc : c = '0'
    · subst hc
      cases s with
      | nil => rw [List.nil_append, hzero y hy, hzero [] break_nil]; rfl
      | cons d s =>
        rw [List.cons_append, markedToken?, markedToken?]
        dsimp only
        rw [takeWhile_append_break (hclass.halts hy), dropWhile_append_break (hclass.halts hy)]
        split
        · split <;> rfl
        · rfl
    · rw [hother c hc, hother c hc]
      rfl

lemma local_integerToken : Local integerToken? := by
  have hhex :=
    @local_markedToken 'x' 'X' isHexChar (by decide) (by decide) ⟨inky_isHexChar, by decide⟩
  have hbinary :=
    @local_markedToken 'b' 'B' isBinaryChar (by decide) (by decide) ⟨inky_isBinaryChar, by decide⟩
  exact hhex.orElse (hbinary.orElse local_numeral)

lemma stringBody?_cons {c : Char} (hc : c ≠ '\\') (s : List Char) :
    stringBody? (c :: s) =
      if c = '"' then some (['"'], s)
      else if c = '\r' ∨ c = '\n' then none
      else (stringBody? s).map fun found => (c :: found.1, found.2) := by
  simp [stringBody?, hc]

/-- A string literal that has not ended before a break does not end in it, and so is not read. -/
lemma stringBody?_of_quoteless {y : List Char} (hy : '"' ∉ y) : stringBody? y = none := by
  fun_induction stringBody? y with
  | case1 => rfl
  | case2 => rfl
  | case3 => rfl
  | case4 c s hc ih =>
    rw [ih fun h => hy (List.mem_cons_of_mem _ (List.mem_cons_of_mem _ h))]
    rfl
  | case5 => exact absurd (List.mem_cons_self ..) hy
  | case6 => rfl
  | case7 c s hend hescape hquote hline ih =>
    rw [ih fun h => hy (List.mem_cons_of_mem _ h)]
    rfl

/-- The body of a string literal ends where it ended without the break, or not at all. -/
lemma stringBody?_append_break {y : List Char} (hy : Break y) (s : List Char) :
    stringBody? (s ++ y) = (stringBody? s).map (withBehind y) := by
  fun_induction stringBody? s with
  | case1 => exact stringBody?_of_quoteless hy.quoteless
  -- a backslash at the end of the text takes the first character of the break along, which is no
  -- quote
  | case2 =>
    refine stringBody?_of_quoteless fun h => ?_
    rcases List.mem_cons.mp h with h | h
    · exact absurd h (by decide)
    · exact hy.quoteless h
  | case3 s => simp [stringBody?]
  | case4 c s hc ih =>
    rw [List.cons_append, List.cons_append, stringBody?, if_neg hc, ih]
    cases stringBody? s <;> rfl
  | case5 s =>
    rw [List.cons_append, stringBody?_cons (by decide), if_pos rfl]
    rfl
  | case6 c s hend hescape hquote hline =>
    rw [List.cons_append, stringBody?_cons (ne_backslash hend hescape), if_neg hquote, if_pos hline]
    rfl
  | case7 c s hend hescape hquote hline ih =>
    rw [List.cons_append, stringBody?_cons (ne_backslash hend hescape), if_neg hquote, if_neg hline,
      ih]
    cases stringBody? s <;> rfl

lemma local_stringToken : Local stringToken? := by
  have hother (c : Char) (hc : c ≠ '"') (t : List Char) : stringToken? (c :: t) = none := by
    simp [stringToken?, hc]
  refine local_of_cons (fun y hy => ?_) fun c s y hy => ?_
  · cases y with
    | nil => rfl
    | cons c y => exact hother c (fun h => hy.quoteless (by rw [h]; exact List.mem_cons_self ..)) y
  · by_cases hc : c = '"'
    · subst hc
      rw [stringToken?, stringToken?, stringBody?_append_break hy]
      cases stringBody? s <;> rfl
    · rw [hother c hc, hother c hc]
      rfl

end Literals

end

end ShapeLint.Grammar
