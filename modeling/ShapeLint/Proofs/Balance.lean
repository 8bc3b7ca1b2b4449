import ShapeLint.Proofs.Image

/-!
# Brackets of what is read

Whatever a pattern is read from has as many closing brackets as opening ones (`excess`). Brackets
inside of string literals do not count, so a scan that knows whether it is inside of one takes them
out (`outside`). What a part of a text adds to the count is the same whatever follows it: a part
that a reader takes never ends inside of a string literal (`Complete`).

Nesting is bounded along the way. Reading goes down at an opening bracket and at a prefix operator
only, so a text with few of them (`nesting`) is not nested too deeply where there is room for as
many levels (`Room.Holds`), however it is read and however much of the room each level takes.

`Balances` carries both through the readers, one lemma for each way of putting readers together. The
induction on the room closes the knot that `operandWithin` ties.
-/

namespace ShapeLint

/-! ## Room for so many levels -/

namespace Room

variable {Step : Type}

/-- There is room for so many levels, one inside the other, by whatever steps one goes down. Each
step may take another share of the room, so the number is the least that is left over all ways
down. -/
def Holds (n : Nat) : Room Step → Prop
  | .none => n = 0
  | .more inside => ∀ step, (inside step).Holds (n - 1)

lemma holds_zero (room : Room Step) : room.Holds 0 := by
  induction room with
  | none => rfl
  | more inside ih => exact ih

lemma Holds.mono {room : Room Step} {n m : Nat} (h : room.Holds n) (hm : m ≤ n) : room.Holds m := by
  induction room generalizing n m with
  | none =>
    obtain rfl : n = 0 := h
    exact Nat.le_zero.mp hm
  | more inside ih => exact fun step => ih step (h step) (Nat.sub_le_sub_right hm 1)

/-- A stack has room for as many levels as go into it at the highest cost that a step has. -/
lemma holds_onStack {cost : Step → Nat} {most : Nat} (hmost : 0 < most)
    (hcost : ∀ step, cost step ≤ most) {n places : Nat} (h : n * most ≤ places) :
    (onStack cost places).Holds n := by
  -- each level takes at most the highest cost from the places
  induction n generalizing places with
  | zero => exact holds_zero _
  | succ n ih =>
    obtain ⟨places, rfl⟩ : ∃ k, places = k + 1 :=
      Nat.exists_eq_add_one.mpr (Nat.lt_of_lt_of_le (Nat.mul_pos n.succ_pos hmost) h)
    rw [onStack]
    intro step
    have hstep := hcost step
    refine ih ?_
    rw [Nat.add_one_mul] at h
    omega

end Room

namespace Grammar

open Reader
open Text (isBlank isDigit isNameChar)
open Literal (isFloatSuffix)

/-- The program runs where there is room for thirty levels of any kind. Signs cost less than
brackets, so of those there may be many more. -/
theorem holds_stackRoom : stackRoom.Holds 30 := by
  have hplaces : ∀ opening, Opening.places opening ≤ 32 := fun opening => by
    cases opening <;> decide
  exact Room.holds_onStack (by decide) hplaces (by decide)

/-! ## Counting brackets -/

/-- The characters that open or close something. -/
def bracketChars : List Char :=
  ['(', ')', '[', ']', '"']

/-- The characters of a text outside of string literals; whether the text starts inside of one is
given. Inside, a backslash takes the character behind it along, so that an escaped quote does not
lead out. -/
def outside : Bool → List Char → List Char
  | _, [] => []
  | false, c :: s => if c = '"' then outside true s else c :: outside false s
  | true, '\\' :: _ :: s => outside true s
  | true, c :: s => outside (c != '"') s

/-- How many brackets are opened in a text. -/
def opened (s : List Char) : Nat :=
  s.countP fun c => ['(', '['].contains c

/-- How many brackets are closed in a text. -/
def closed (s : List Char) : Nat :=
  s.countP fun c => [')', ']'].contains c

/-- How many more brackets are opened than closed, outside of string literals. Round and square
brackets are counted together: the readers pair them, and for a count of what is left open the kinds
do not matter. -/
def excess (s : List Char) : Int :=
  opened (outside false s) - closed (outside false s)

/-- How many levels a text can have: it goes down at an opening bracket or at a sign, so it has at
most as many levels as it has of these outside of string literals. -/
def nesting (s : List Char) : Nat :=
  (outside false s).countP fun c => ['(', '[', '+', '-', '!'].contains c

/-- No string literal goes on behind the part, so that what is outside of string literals in the
part and behind it can be told separately. -/
def Complete (w : List Char) : Prop :=
  ∀ rest, outside false (w ++ rest) = outside false w ++ outside false rest

/-- Parts without an open string literal can be put one behind the other. -/
lemma Complete.append {v w : List Char} (hv : Complete v) (hw : Complete w) :
    Complete (v ++ w) := by
  intro rest
  rw [List.append_assoc, hv, hw, hv, List.append_assoc]

/-- What is opened and closed in two parts adds up, if no string literal goes from the first into
the second. -/
lemma Complete.excess_append {w : List Char} (hw : Complete w) (rest : List Char) :
    excess (w ++ rest) = excess w + excess rest := by
  simp only [excess, hw rest, opened, closed, List.countP_append]
  omega

lemma Complete.nesting_append {w : List Char} (hw : Complete w) (rest : List Char) :
    nesting (w ++ rest) = nesting w + nesting rest := by
  rw [nesting, hw, List.countP_append, nesting, nesting]

/-- A text without quotes is outside of string literals as a whole, and leaves it to what follows to
open one. -/
lemma outside_append {w : List Char} (hw : '"' ∉ w) (rest : List Char) :
    outside false (w ++ rest) = w ++ outside false rest := by
  induction w with
  | nil => rfl
  | cons c w ih =>
    obtain ⟨hc, hw⟩ := not_or.mp (List.mem_cons.not.mp hw)
    rw [List.cons_append, outside, if_neg (Ne.symm hc), ih hw, List.cons_append]

lemma outside_of_quoteless {w : List Char} (hw : '"' ∉ w) : outside false w = w := by
  have happend := outside_append hw []
  rwa [List.append_nil, outside, List.append_nil] at happend

lemma complete_of_quoteless {w : List Char} (hw : '"' ∉ w) : Complete w := by
  intro rest
  rw [outside_append hw, outside_of_quoteless hw]

/-- The part is complete, opens so many brackets more than it closes and nests at least so much.
Readers take such parts from a text, and the three facts have to be carried along together, since
only complete parts can be counted one by one. -/
structure Part (k : Nat) (d : Int) (w : List Char) : Prop where
  complete : Complete w
  excess_eq : excess w = d
  nests : k ≤ nesting w

lemma Part.append {k l : Nat} {d e : Int} {v w : List Char} (hv : Part k d v) (hw : Part l e w) :
    Part (k + l) (d + e) (v ++ w) where
  complete := hv.complete.append hw.complete
  excess_eq := by rw [hv.complete.excess_append, hv.excess_eq, hw.excess_eq]
  nests := by
    rw [hv.complete.nesting_append]
    exact Nat.add_le_add hv.nests hw.nests

lemma Part.mono {k l : Nat} {d : Int} {w : List Char} (h : Part k d w) (hl : l ≤ k) : Part l d w :=
  ⟨h.complete, h.excess_eq, Nat.le_trans hl h.nests⟩

lemma part_nil : Part 0 0 [] :=
  ⟨fun _ => rfl, rfl, Nat.le_refl 0⟩

/-- A part without quotes counts with all of its characters, so the count can be decided where the
characters are known. -/
lemma part_of_quoteless {k : Nat} {d : Int} {w : List Char} (hw : '"' ∉ w)
    (hd : (opened w : Int) - closed w = d)
    (hk : k ≤ w.countP fun c => ['(', '[', '+', '-', '!'].contains c) : Part k d w where
  complete := complete_of_quoteless hw
  excess_eq := by rw [excess, outside_of_quoteless hw, hd]
  nests := by rwa [nesting, outside_of_quoteless hw]

/-- Characters that are no brackets and no quotes open and close nothing. All tokens but strings,
brackets and signs are parts of this kind. -/
lemma part_neutral {w : List Char} (hw : ∀ c ∈ w, c ∉ bracketChars) : Part 0 0 w := by
  have hopened : opened w = 0 := List.countP_eq_zero.mpr fun c hc hopen => by
    have hno := hw c hc
    simp only [bracketChars, List.mem_cons, List.not_mem_nil, or_false, not_or] at hno
    simp [hno] at hopen
  have hclosed : closed w = 0 := List.countP_eq_zero.mpr fun c hc hclose => by
    have hno := hw c hc
    simp only [bracketChars, List.mem_cons, List.not_mem_nil, or_false, not_or] at hno
    simp [hno] at hclose
  refine part_of_quoteless (fun hmem => hw _ hmem (by decide)) ?_ (Nat.zero_le _)
  rw [hopened, hclosed]
  rfl

lemma outside_inside {c : Char} (hc : c ≠ '\\') (s : List Char) :
    outside true (c :: s) = outside (c != '"') s := by
  simp [outside, hc]

/-- The body of a string literal leads out of it, at its last character and not before. -/
lemma outside_stringBody {s body rest : List Char} (h : stringBody? s = some (body, rest)) :
    s = body ++ rest ∧ ∀ t, outside true (body ++ t) = outside false t := by
  -- case by case as the body is read: an escape is skipped by both functions, and a quote ends both
  fun_induction stringBody? s generalizing body with
  | case1 => cases h
  | case2 => cases h
  | case3 => cases h
  | case4 c s hc ih =>
    obtain ⟨⟨body', rest'⟩, hbody, heq⟩ := Option.map_eq_some_iff.mp h
    obtain ⟨rfl, rfl⟩ := Prod.mk.inj heq
    obtain ⟨rfl, houtside⟩ := ih hbody
    exact ⟨rfl, houtside⟩
  | case5 s =>
    obtain ⟨rfl, rfl⟩ := Prod.mk.inj (Option.some.inj h)
    exact ⟨rfl, fun t => rfl⟩
  | case6 => cases h
  | case7 c s hend hescape hquote hline ih =>
    obtain ⟨⟨body', rest'⟩, hbody, heq⟩ := Option.map_eq_some_iff.mp h
    obtain ⟨rfl, rfl⟩ := Prod.mk.inj heq
    obtain ⟨rfl, houtside⟩ := ih hbody
    refine ⟨rfl, fun t => ?_⟩
    rw [List.cons_append, outside_inside (ne_backslash hend hescape), bne_iff_ne.mpr hquote,
      houtside]

/-- Nothing of a string literal is outside of it, not even its quotes. -/
lemma outside_stringToken {s t rest : List Char} (h : stringToken? s = some (t, rest)) :
    ∃ w, s = w ++ rest ∧ ∀ u, outside false (w ++ u) = outside false u := by
  unfold stringToken? at h
  split at h
  case h_1 s =>
    obtain ⟨⟨body, rest'⟩, hbody, heq⟩ := Option.map_eq_some_iff.mp h
    obtain ⟨-, rfl⟩ := Prod.mk.inj heq
    obtain ⟨rfl, houtside⟩ := outside_stringBody hbody
    exact ⟨'"' :: body, rfl, fun u => by rw [List.cons_append, outside, if_pos rfl, houtside]⟩
  case h_2 => cases h

/-- A string literal opens and closes nothing, whatever stands in it. -/
theorem part_stringToken {s t rest : List Char} (h : stringToken? s = some (t, rest)) :
    ∃ w, s = w ++ rest ∧ Part 0 0 w := by
  obtain ⟨w, hs, hall⟩ := outside_stringToken h
  have hnone : outside false w = [] := by
    have hnil := hall []
    rwa [List.append_nil] at hnil
  refine ⟨w, hs, fun u => ?_, ?_, Nat.zero_le _⟩
  · rw [hall, hnone, List.nil_append]
  · rw [excess, hnone]
    rfl

lemma nesting_stringText {t : List Char} (h : StringText t) : nesting t = 0 := by
  have htoken := stringToken?_append h []
  rw [List.append_nil] at htoken
  obtain ⟨w, hw, hall⟩ := outside_stringToken htoken
  have hnone := hall []
  rw [← hw] at hnone
  rw [nesting, hnone]
  rfl

/-- An integer literal has no levels, as it has neither brackets nor signs. -/
lemma nesting_integerText {t : List Char} (h : IntegerText t) : nesting t = 0 := by
  rw [nesting, outside_of_quoteless (h.not_mem (by decide)), List.countP_eq_zero]
  intro c hmem hc
  exact h.not_mem (List.mem_cons_of_mem _ (by simpa using hc)) hmem

/-! ## Putting readers together -/

section

variable {α β : Type} {n m k : Nat} {d e : Int} {p q : Reader α} {f : α → Reader β}

/-- What the reader takes from a text opens so many brackets more than it closes and nests at least
so much, and a text that is nested too deeply for it nests at least so much. The last number bounds
from below how deeply a text is nested that sinks, so it is the room that the reader has. -/
def Balances (n k : Nat) (d : Int) (p : Reader α) : Prop :=
  ∀ mark s, (p mark s).Meets (fun _ rest _ => ∃ w, s = w ++ rest ∧ Part k d w) (fun _ => True)
    (n ≤ nesting s)

/-- What follows may nest less, by as much as the text in front has nested. This is the one place
where a level is spent: behind an opening bracket or a sign there is room for one level less. -/
lemma Balances.descend (hp : Balances n k d p) (hf : ∀ a, Balances m 0 e (f a)) (hn : n ≤ m + k) :
    Balances n 0 (d + e) (p >>= f) := by
  intro mark s
  refine meets_bind.mpr ((hp mark s).imp ?_ (fun _ h => h) fun h => h)
  rintro a rest mark' ⟨v, rfl, hv⟩
  refine (hf a mark' rest).imp ?_ (fun _ h => h) fun h => ?_
  · rintro b rest' mark'' ⟨w, rfl, hw⟩
    exact ⟨v ++ w, (List.append_assoc ..).symm, (hv.append hw).mono (Nat.zero_le _)⟩
  · -- the text behind sinks, so it nests as deeply as its reader has room for, and the part in
    -- front adds what it nests itself
    have hv' := hv.nests
    rw [hv.complete.nesting_append]
    omega

/-- A part that opens as much as it closes may stand in front of anything. -/
lemma Balances.bind (hp : Balances n k 0 p) (hf : ∀ a, Balances n 0 e (f a)) :
    Balances n 0 e (p >>= f) := by
  have hbind := hp.descend hf (Nat.le_add_right n k)
  rwa [Int.zero_add] at hbind

lemma Balances.mono (hp : Balances n k d p) : Balances n 0 d p := by
  intro mark s
  refine (hp mark s).imp ?_ (fun _ h => h) fun h => h
  rintro a rest mark' ⟨w, rfl, hw⟩
  exact ⟨w, rfl, hw.mono (Nat.zero_le _)⟩

lemma balances_pure (a : α) : Balances n 0 0 (pure a : Reader α) :=
  fun _ _ => ⟨[], rfl, part_nil⟩

/-- A reader that gives a value at its end takes what it took before. -/
lemma Balances.close (hp : Balances n 0 d p) (b : β) : Balances n 0 d (p >>= fun _ => pure b) := by
  have hbind := hp.descend (fun _ => balances_pure b) (Nat.le_refl n)
  rwa [Int.add_zero] at hbind

lemma balances_left : Balances n 0 0 left :=
  fun _ _ => ⟨[], rfl, part_nil⟩

lemma Balances.orElse (hp : Balances n k d p) (hq : Balances n k d q) :
    Balances n k d (orElse p q) := by
  intro mark s
  exact meets_orElse.mpr ((hp mark s).imp (fun _ _ _ h => h) (fun mark' _ => hq mark' s) fun h => h)

lemma balances_firstOf {ps : List (Reader α)} (h : ∀ p ∈ ps, Balances n k d p) :
    Balances n k d (firstOf ps) := by
  induction ps with
  | nil => exact fun _ _ => trivial
  | cons p ps ih =>
    obtain ⟨hp, hps⟩ := List.forall_mem_cons.mp h
    exact hp.orElse (ih hps)

lemma Balances.optional (hp : Balances n k 0 p) : Balances n 0 0 (optional p) := by
  intro mark s
  refine meets_optional.mpr ((hp mark s).imp ?_ (fun _ _ => ⟨[], rfl, part_nil⟩) fun h => h)
  rintro a rest mark' ⟨w, rfl, hw⟩
  exact ⟨w, rfl, hw.mono (Nat.zero_le _)⟩

/-- After an option that is there, what follows may nest less. The sign in front of an operand is
such an option: with it the operand is read one level down, and without it not. -/
lemma Balances.optional_bind {f : Option α → Reader β} (hp : Balances n k 0 p)
    (hnone : Balances n 0 e (f none)) (hsome : ∀ a, Balances m 0 e (f (some a))) (hn : n ≤ m + k) :
    Balances n 0 e (Reader.optional p >>= f) := by
  have htaken : Balances n 0 e (p >>= fun a => f (some a)) := by
    have hdescend := hp.descend hsome hn
    rwa [Int.zero_add] at hdescend
  intro mark s
  refine meets_bind.mpr (meets_optional.mpr ?_)
  exact (meets_bind.mp (htaken mark s)).imp (fun _ _ _ h => h)
    (fun mark' _ => hnone mark' s) fun h => h

/-- A repetition of parts that open as much as they close does so too. The invariant is that the
text up to each item is such a part. -/
lemma Balances.many (hp : Balances n k 0 p) : Balances n 0 0 (many p) := by
  intro mark s
  refine meets_many (fun _ t => ∃ w, s = w ++ t ∧ Part 0 0 w) ?_ ⟨[], rfl, part_nil⟩
  rintro mark' t ⟨v, rfl, hv⟩
  refine (hp mark' t).imp ?_ (fun _ _ => ⟨v, rfl, hv⟩) fun h => ?_
  · rintro a rest mark'' ⟨w, rfl, hw⟩
    exact ⟨v ++ w, (List.append_assoc ..).symm, (hv.append hw).mono (Nat.zero_le _)⟩
  · rw [hv.complete.nesting_append]
    omega

/-- Looking ahead takes nothing, whatever the reader that looks would take. -/
lemma Balances.butNot (hp : Balances n k d p) : Balances n 0 0 (butNot p) := by
  intro mark s
  exact meets_butNot.mpr
    ((hp mark s).imp (fun _ _ _ _ => trivial) (fun _ _ => ⟨[], rfl, part_nil⟩) fun h => h)

lemma Balances.rule (hp : Balances n k d p) : Balances n k d (rule p) := by
  intro mark s
  exact meets_rule.mpr ((hp mark s).imp (fun _ _ _ h => h) (fun _ _ => trivial) fun h => h)

lemma balances_lexeme {f : List Char → Option (α × List Char)}
    (h : ∀ {s a rest}, f s = some (a, rest) → ∃ w, s = w ++ rest ∧ Part k d w) :
    Balances n k d (lexeme f) :=
  fun _ _ => meets_lexeme (fun _ _ hf => h hf) fun _ => trivial

end

/-! ## Tokens -/

section

variable {α : Type} {n : Nat}

/-- A token function that takes only characters that are no brackets and no quotes. -/
def TakesNeutral (f : List Char → Option (α × List Char)) : Prop :=
  ∀ s a rest, f s = some (a, rest) → ∃ w, s = w ++ rest ∧ ∀ c ∈ w, c ∉ bracketChars

lemma TakesNeutral.balances {f : List Char → Option (α × List Char)} (h : TakesNeutral f) :
    Balances n 0 0 (lexeme f) := by
  refine balances_lexeme fun hf => ?_
  obtain ⟨w, hs, hw⟩ := h _ _ _ hf
  exact ⟨w, hs, part_neutral hw⟩

lemma balances_word {k : Nat} {d : Int} {w : String} (h : Part k d w.toList) :
    Balances n k d (word w) :=
  fun _ _ => meets_word (fun _ hs => ⟨w.toList, hs, h⟩) trivial

/-- A word without brackets and quotes. -/
lemma balances_plainWord {w : String} (h : ∀ c ∈ w.toList, c ∉ bracketChars) :
    Balances n 0 0 (word w) :=
  balances_word (part_neutral h)

/-- A class of characters without brackets and quotes has none of them in it; there are five to be
tried, so this is decided for each class. -/
lemma not_mem_bracketChars {p : Char → Bool} (hp : ∀ b ∈ bracketChars, p b = false) {c : Char}
    (hc : p c = true) :
    c ∉ bracketChars := by
  intro hmem
  rw [hp c hmem] at hc
  cases hc

lemma not_mem_of_mem_takeWhile {p : Char → Bool} (hp : ∀ b ∈ bracketChars, p b = false)
    (s : List Char) :
    ∀ c ∈ s.takeWhile p, c ∉ bracketChars :=
  fun _ hc => not_mem_bracketChars hp (List.mem_takeWhile_imp hc)

lemma balances_skip : Balances n 0 0 skip := by
  intro mark s
  refine ⟨s.takeWhile isBlank, List.takeWhile_append_dropWhile.symm, part_neutral ?_⟩
  exact not_mem_of_mem_takeWhile (by decide) s

lemma takesNeutral_nameToken : TakesNeutral nameToken? := by
  intro s name rest h
  obtain ⟨hword, hs, -⟩ := isWord_of_nameToken? h
  refine ⟨name, hs, fun c hc => not_mem_bracketChars (by decide) (hword.all c ?_)⟩
  rwa [String.toList_ofList]

lemma takesNeutral_findSome {β : Type} {entries : List β}
    {f : β → List Char → Option (α × List Char)} (h : ∀ b ∈ entries, TakesNeutral (f b)) :
    TakesNeutral fun s => entries.findSome? fun b => f b s := by
  intro s a rest hfound
  obtain ⟨b, hb, hfb⟩ := List.exists_of_findSome?_eq_some hfound
  exact h b hb s a rest hfb

/-- A word that is found under a condition, which it meets only where it stands. -/
lemma takesNeutral_word {w : String} {a : α} {fitting : List Char → Bool}
    (hfits : ∀ s, fitting s = true → w.toList <+: s) (hw : ∀ c ∈ w.toList, c ∉ bracketChars) :
    TakesNeutral fun s => if fitting s then some (a, s.drop w.length) else none := by
  intro s b rest h
  dsimp only at h
  split at h
  case isTrue hfit =>
    obtain ⟨-, rfl⟩ := Prod.mk.inj (Option.some.inj h)
    obtain ⟨t, rfl⟩ := hfits s hfit
    exact ⟨w.toList, by rw [← String.length_toList, List.drop_left], hw⟩
  case isFalse => cases h

lemma takesNeutral_wordToken {words : List String}
    (h : ∀ w ∈ words, ∀ c ∈ w.toList, c ∉ bracketChars) :
    TakesNeutral (wordToken? words) := by
  refine takesNeutral_findSome fun w hw => takesNeutral_word (fun s hfit => ?_) (h w hw)
  exact List.isPrefixOf_iff_prefix.mp (Bool.and_eq_true_iff.mp hfit).1

lemma takesNeutral_leadingWord {words : List String}
    (h : ∀ w ∈ words, ∀ c ∈ w.toList, c ∉ bracketChars) :
    TakesNeutral (leadingWord? words) :=
  takesNeutral_findSome fun w hw =>
    takesNeutral_word (fun _ hfit => List.isPrefixOf_iff_prefix.mp hfit) (h w hw)

lemma balances_operator {table : List (String × Option Char × BinaryOperator)}
    (h : ∀ entry ∈ table, ∀ c ∈ entry.1.toList, c ∉ bracketChars) :
    Balances n 0 0 (operator table) := by
  rw [operator_eq]
  refine (TakesNeutral.balances (takesNeutral_findSome fun entry hentry =>
    takesNeutral_word (fun s hfit => ?_) (h entry hentry))).rule
  exact List.isPrefixOf_iff_prefix.mp (Bool.and_eq_true_iff.mp hfit).1

/-! Numbers are taken part by part. -/

section Numbers

variable {p q : List Char → Option (List Char × List Char)}

/-- Numbers are put together from digits, points, exponents and suffixes, and each of these is
neutral. -/
lemma TakesNeutral.followed (hp : TakesNeutral p) (hq : TakesNeutral q) :
    TakesNeutral (followed p q) := by
  intro s t rest h
  obtain ⟨a, b, u, -, ha, hb⟩ := followed_inv h
  obtain ⟨v, rfl, hv⟩ := hp s a u ha
  obtain ⟨w, rfl, hw⟩ := hq u b rest hb
  exact ⟨v ++ w, (List.append_assoc ..).symm, List.forall_mem_append.mpr ⟨hv, hw⟩⟩

lemma TakesNeutral.maybe (hp : TakesNeutral p) : TakesNeutral (maybe p) := by
  intro s t rest h
  unfold Grammar.maybe optionally at h
  cases hs : p s with
  | none =>
    rw [hs] at h
    obtain ⟨-, rfl⟩ := Prod.mk.inj (Option.some.inj h)
    exact ⟨[], rfl, fun c hc => absurd hc List.not_mem_nil⟩
  | some found =>
    rw [hs] at h
    obtain rfl : found = (t, rest) := Option.some.inj h
    exact hp s t rest hs

lemma TakesNeutral.orElse {f g : List Char → Option (α × List Char)} (hf : TakesNeutral f)
    (hg : TakesNeutral g) :
    TakesNeutral fun s => f s <|> g s := by
  intro s a rest h
  dsimp only at h
  cases hs : f s with
  | none =>
    rw [hs] at h
    exact hg s a rest h
  | some found =>
    rw [hs] at h
    exact hf s a rest (hs.trans h)

lemma takesNeutral_fraction : TakesNeutral fraction? := by
  intro s t rest h
  obtain ⟨-, rfl⟩ := Prod.mk.inj (Option.some.inj h)
  exact ⟨_, List.takeWhile_append_dropWhile.symm, not_mem_of_mem_takeWhile (by decide) s⟩

lemma takesNeutral_numeral : TakesNeutral numeral? := by
  intro s t rest h
  unfold numeral? at h
  split at h
  · cases h
  case h_2 c s =>
    split at h
    case isTrue hc =>
      obtain ⟨-, rfl⟩ := Prod.mk.inj (Option.some.inj h)
      refine ⟨c :: s.takeWhile isNumeralChar,
        by rw [List.cons_append, List.takeWhile_append_dropWhile], ?_⟩
      exact List.forall_mem_cons.mpr
        ⟨not_mem_bracketChars (by decide) hc, not_mem_of_mem_takeWhile (by decide) s⟩
    case isFalse => cases h

lemma takesNeutral_point : TakesNeutral point? := by
  intro s t rest h
  unfold point? at h
  split at h
  case h_1 s =>
    obtain ⟨-, rfl⟩ := Prod.mk.inj (Option.some.inj h)
    exact ⟨['.'], rfl, by decide⟩
  case h_2 => cases h

lemma takesNeutral_floatSuffix : TakesNeutral floatSuffix? := by
  intro s t rest h
  unfold floatSuffix? at h
  split at h
  · cases h
  case h_2 c s =>
    split at h
    case isTrue hc =>
      obtain ⟨-, rfl⟩ := Prod.mk.inj (Option.some.inj h)
      exact ⟨[c], rfl, List.forall_mem_singleton.mpr (not_mem_bracketChars (by decide) hc)⟩
    case isFalse => cases h

lemma sign_eq (s : List Char) : s = (sign s).1 ++ (sign s).2 := by
  unfold sign
  split <;> rfl

lemma neutral_sign (s : List Char) : ∀ c ∈ (sign s).1, c ∉ bracketChars := by
  rcases signText_sign s with h | h | h <;> rw [h] <;> decide

/-- An exponent has its letter, a sign and digits. The sign here is one of the exponent and goes
down nowhere, but it may be counted as a level all the same: the bound only gets larger by it. -/
lemma takesNeutral_exponent : TakesNeutral exponent? := by
  intro s t rest h
  unfold exponent? at h
  split at h
  · cases h
  case h_2 c s =>
    split at h
    case isTrue hc =>
      dsimp only at h
      split at h
      · cases h
      · -- The letter, the sign and the digits are none of them brackets.
        obtain ⟨-, rfl⟩ := Prod.mk.inj (Option.some.inj h)
        refine ⟨c :: ((sign s).1 ++ (sign s).2.takeWhile isDigit), ?_,
          List.forall_mem_cons.mpr ⟨?_, ?_⟩⟩
        · rw [List.cons_append, List.append_assoc, List.takeWhile_append_dropWhile, ← sign_eq]
        · exact not_mem_bracketChars (p := isExponentMark) (by decide) hc
        · exact List.forall_mem_append.mpr ⟨neutral_sign s, not_mem_of_mem_takeWhile (by decide) _⟩
    case isFalse => cases h

lemma takesNeutral_doubleToken : TakesNeutral doubleToken? := by
  have hending := takesNeutral_exponent.maybe.followed takesNeutral_floatSuffix.maybe
  have hbehind := takesNeutral_numeral.followed
    (takesNeutral_point.followed (takesNeutral_fraction.followed hending))
  have hinFront := takesNeutral_point.followed (takesNeutral_numeral.followed hending)
  have hexponent :=
    takesNeutral_numeral.followed (takesNeutral_exponent.followed takesNeutral_floatSuffix.maybe)
  have hsuffix := takesNeutral_numeral.followed takesNeutral_floatSuffix
  exact hbehind.orElse (hinFront.orElse (hexponent.orElse hsuffix))

lemma takesNeutral_markedToken {lower upper : Char} {class_ : Char → Bool}
    (hl : lower ∉ bracketChars) (hu : upper ∉ bracketChars)
    (hclass : ∀ b ∈ bracketChars, class_ b = false) :
    TakesNeutral (markedToken? lower upper class_) := by
  intro s t rest h
  unfold markedToken? at h
  split at h
  case h_1 c s =>
    split at h
    case isTrue hc =>
      dsimp only at h
      split at h
      · cases h
      · obtain ⟨-, rfl⟩ := Prod.mk.inj (Option.some.inj h)
        refine ⟨'0' :: c :: s.takeWhile class_, ?_, ?_⟩
        · rw [List.cons_append, List.cons_append, List.takeWhile_append_dropWhile]
        · rw [Bool.or_eq_true, beq_iff_eq, beq_iff_eq] at hc
          have hmark : c ∉ bracketChars := by
            rcases hc with rfl | rfl
            · exact hl
            · exact hu
          exact List.forall_mem_cons.mpr
            ⟨by decide, List.forall_mem_cons.mpr ⟨hmark, not_mem_of_mem_takeWhile hclass s⟩⟩
    case isFalse => cases h
  case h_2 => cases h

lemma takesNeutral_integerToken : TakesNeutral integerToken? := by
  have hhex := @takesNeutral_markedToken 'x' 'X' isHexChar (by decide) (by decide) (by decide)
  have hbinary := @takesNeutral_markedToken 'b' 'B' isBinaryChar (by decide) (by decide) (by decide)
  exact hhex.orElse (hbinary.orElse takesNeutral_numeral)

end Numbers

end

/-! ## Readers -/

variable {n : Nat}

lemma balances_nameChar : Balances n 0 0 nameChar := by
  refine (TakesNeutral.balances fun s a rest h => ?_).rule
  split at h
  case h_1 c s =>
    split at h
    case isTrue hc =>
      obtain ⟨-, rfl⟩ := Prod.mk.inj (Option.some.inj h)
      exact ⟨[c], rfl, List.forall_mem_singleton.mpr (not_mem_bracketChars (by decide) hc)⟩
    case isFalse => cases h
  case h_2 => cases h

lemma balances_identifier : Balances n 0 0 identifier := by
  have hreserved : Balances n 0 0 (rule (lexeme (wordToken? reservedWords))) :=
    (takesNeutral_wordToken (by decide)).balances.rule
  exact (hreserved.butNot.bind fun _ => takesNeutral_nameToken.balances.rule.bind fun _ =>
    balances_pure _).rule

lemma balances_openParen : Balances n 1 1 (word "(") :=
  balances_word (part_of_quoteless (by decide) (by decide) (by decide))

lemma balances_openBracket : Balances n 1 1 (word "[") :=
  balances_word (part_of_quoteless (by decide) (by decide) (by decide))

lemma balances_closeParen : Balances n 0 (-1) closeParen :=
  (balances_word (part_of_quoteless (by decide) (by decide) (by decide))).rule

lemma balances_closeBracket : Balances n 0 (-1) closeBracket :=
  (balances_word (part_of_quoteless (by decide) (by decide) (by decide))).rule

lemma balances_negation : Balances n 0 0 negation :=
  ((balances_plainWord (by decide)).bind fun _ => balances_skip).rule

lemma balances_contextWord : Balances n 0 0 contextWord := by
  refine (TakesNeutral.balances fun s a rest h => ?_).rule
  obtain ⟨⟨w, t⟩, hfound, heq⟩ := Option.map_eq_some_iff.mp h
  obtain ⟨-, rfl⟩ := Prod.mk.inj heq
  exact takesNeutral_wordToken (by decide) s w t hfound

lemma balances_contextSuffix : Balances n 0 0 contextSuffix := by
  have hinside (negated : Bool) (context : Context) :
      Balances n 0 (-1) (skip >>= fun _ => closeBracket >>= fun _ =>
      (pure (context, negated) : Reader (Context × Bool))) :=
    balances_skip.bind fun _ => balances_closeBracket.close _
  exact (balances_openBracket.descend (fun _ => balances_skip.bind fun _ =>
    balances_negation.optional.bind fun _ =>
    balances_contextWord.bind fun _ => hinside _ _) (Nat.le_add_right n 1)).rule

lemma balances_contextAhead : Balances n 0 (-1) contextAhead := by
  have hclose : Balances n 0 (-1) (word "]") :=
    balances_word (part_of_quoteless (by decide) (by decide) (by decide))
  exact balances_negation.optional.bind fun _ => balances_contextWord.bind fun _ =>
    balances_skip.bind fun _ => hclose

lemma Balances.leaf {α : Type} {p : Reader α} {node : α → Extent → Surface}
    (hp : Balances n 0 0 p) :
    Balances n 0 0 (leaf p node) :=
  (balances_left.bind fun _ => hp.bind fun _ => balances_left.bind fun _ => balances_pure _).rule

lemma balances_anyOfType : Balances n 0 0 anyOfType :=
  Balances.leaf ((balances_plainWord (by decide)).bind fun _ =>
    (takesNeutral_leadingWord (by decide)).balances.rule.bind fun _ =>
      (balances_plainWord (by decide)).bind fun _ => balances_pure _)

lemma balances_literal : Balances n 0 0 literal := by
  refine (balances_firstOf ?_).rule
  simp only [List.forall_mem_cons, List.not_mem_nil, false_imp_iff, implies_true, and_true]
  refine ⟨takesNeutral_doubleToken.balances.leaf, takesNeutral_integerToken.balances.leaf,
    Balances.leaf ?_⟩
  refine balances_lexeme fun h => ?_
  exact part_stringToken h

lemma balances_keyword : Balances n 0 0 keyword :=
  (takesNeutral_wordToken (by decide)).balances.leaf

lemma balances_wildcard : Balances n 0 0 wildcard :=
  Balances.leaf ((balances_plainWord (by decide)).bind fun _ => balances_nameChar.butNot)

/-- A step in front of an operand is a level at least. It has two signs and counts as two, which is
more than is needed. -/
lemma balances_updateOperator : Balances n 1 0 updateOperator := by
  refine (balances_lexeme fun {s a rest} h => ?_).rule
  split at h
  case h_1 =>
    obtain ⟨-, rfl⟩ := Prod.mk.inj (Option.some.inj h)
    exact ⟨['+', '+'], rfl, part_of_quoteless (by decide) (by decide) (by decide)⟩
  case h_2 =>
    obtain ⟨-, rfl⟩ := Prod.mk.inj (Option.some.inj h)
    exact ⟨['-', '-'], rfl, part_of_quoteless (by decide) (by decide) (by decide)⟩
  case h_3 => cases h

lemma balances_unaryOperator : Balances n 1 0 unaryOperator := by
  refine (balances_lexeme fun {s a rest} h => ?_).rule
  split at h
  case h_1 =>
    obtain ⟨-, rfl⟩ := Prod.mk.inj (Option.some.inj h)
    exact ⟨['+'], rfl, part_of_quoteless (by decide) (by decide) (by decide)⟩
  case h_2 =>
    obtain ⟨-, rfl⟩ := Prod.mk.inj (Option.some.inj h)
    exact ⟨['-'], rfl, part_of_quoteless (by decide) (by decide) (by decide)⟩
  case h_3 =>
    obtain ⟨-, rfl⟩ := Prod.mk.inj (Option.some.inj h)
    exact ⟨['!'], rfl, part_of_quoteless (by decide) (by decide) (by decide)⟩
  case h_4 => cases h

/-!  From here on `m` is how much can be nested inside an operand, and that is at most one less than
what can be nested in the operand itself. -/

section

variable {m : Nat} {expression : Reader Surface} (hexpr : Balances m 0 0 expression)
include hexpr

lemma balances_argument : Balances m 0 0 (argument expression) :=
  ((balances_plainWord (by decide)).leaf.orElse hexpr).rule

lemma balances_argumentList : Balances m 0 0 (argumentList expression) := by
  have hfurther : Balances m 0 0 (furtherArgument expression) :=
    balances_skip.bind fun _ => (balances_plainWord (by decide)).bind fun _ =>
      balances_skip.bind fun _ => balances_argument hexpr
  exact ((balances_argument hexpr).bind fun _ => hfurther.many.bind fun _ => balances_pure _).rule

variable (hn : n ≤ m + 1)
include hn

/-- Arguments in parentheses are balanced. What stands between the parentheses is nested one level
deeper, and the closing one takes back what the opening one has added. -/
lemma balances_arguments : Balances n 0 0 (arguments expression) := by
  have hinside :
      Balances m 0 (-1) (skip >>= fun _ => optional (argumentList expression) >>= fun args =>
      skip >>= fun _ => closeParen >>= fun _ => (pure (args.getD []) : Reader (List Surface))) :=
    balances_skip.bind fun _ => (balances_argumentList hexpr).optional.bind fun _ =>
      balances_skip.bind fun _ => balances_closeParen.close _
  exact (balances_skip.bind fun _ => balances_openParen.descend (fun _ => hinside) hn).rule

lemma balances_grouped : Balances n 0 0 (grouped expression) := by
  have hinside : Balances m 0 (-1) (skip >>= fun _ => expression >>= fun e => skip >>= fun _ =>
      closeParen >>= fun _ => (pure e : Reader Surface)) :=
    balances_skip.bind fun _ => hexpr.bind fun _ => balances_skip.bind fun _ =>
      balances_closeParen.close _
  exact (balances_openParen.descend (fun _ => hinside) hn).rule

end

section

variable {m : Nat} {nested : Nested} (hexpr : ∀ opening, Balances m 0 0 (nested.expression opening))
  (hn : n ≤ m + 1)
include hexpr hn

lemma balances_primary : Balances n 0 0 (primary nested) := by
  have hcreation : Balances n 0 0 (creation (nested.expression .creation)) :=
    Balances.leaf ((balances_plainWord (by decide)).bind fun _ =>
      balances_nameChar.butNot.bind fun _ => balances_skip.bind fun _ =>
      balances_identifier.bind fun _ =>
      (balances_arguments (hexpr .creation) hn).bind fun _ => balances_pure _)
  have hcall : Balances n 0 0 (call (nested.expression .call)) :=
    Balances.leaf (balances_identifier.bind fun _ =>
      (balances_arguments (hexpr .call) hn).bind fun _ => balances_pure _)
  refine (balances_firstOf ?_).rule
  simp only [List.forall_mem_cons, List.not_mem_nil, false_imp_iff, implies_true, and_true]
  exact ⟨balances_grouped (hexpr .group) hn, hcreation, balances_anyOfType, balances_literal,
    balances_keyword, balances_wildcard, hcall, balances_identifier.leaf⟩

variable (hahead : nested.ahead.Holds m)
include hahead

/-- An index is balanced, and so is looking ahead for a context, which takes nothing. Looking takes
room too, as much as it may for one level. -/
lemma balances_index : Balances n 0 0 (index nested) := by
  have hlook : Balances m 0 (-1) (within nested.ahead contextAhead) := by
    intro mark s
    refine meets_within (balances_contextAhead mark s) fun hnone => ?_
    rw [hnone] at hahead
    obtain rfl : m = 0 := hahead
    exact Nat.zero_le _
  have hinside :
      Balances m 0 (-1) (skip >>= fun _ => butNot (within nested.ahead contextAhead) >>= fun _ =>
      nested.expression .index >>= fun e => skip >>= fun _ => closeBracket >>= fun _ =>
        left >>= fun after => (pure (.index e after) : Reader Selector)) :=
    balances_skip.bind fun _ => hlook.butNot.bind fun _ => (hexpr .index).bind fun _ =>
      balances_skip.bind fun _ =>
      balances_closeBracket.descend (fun _ => balances_left.bind fun _ => balances_pure _)
        (Nat.le_refl m)
  exact (balances_openBracket.descend (fun _ => hinside) hn).rule

lemma balances_selector : Balances n 0 0 (selector nested) := by
  have hmember : Balances n 0 0 (member (nested.expression .member)) :=
    ((balances_plainWord (by decide)).bind fun _ => balances_skip.bind fun _ =>
      balances_identifier.bind fun _ =>
      (balances_arguments (hexpr .member) hn).optional.bind fun _ => balances_left.bind fun _ =>
        balances_pure _).rule
  exact (balances_skip.bind fun _ => hmember.orElse (balances_index hexpr hn hahead)).rule

lemma balances_selected : Balances n 0 0 (selected nested) := by
  have hstep : Balances n 0 0 stepBehind :=
    (balances_skip.bind fun _ => balances_updateOperator.mono).rule
  refine (balances_left.bind fun _ => (balances_primary hexpr hn).bind fun _ =>
    (balances_selector hexpr hn hahead).many.bind fun _ => hstep.optional.bind fun step => ?_).rule
  cases step with
  | none => exact balances_pure _
  | some up => exact balances_left.bind fun _ => balances_pure _

/-- An operand is balanced, with or without a sign in front of it. Behind a sign, as in brackets,
there is room for one level less. -/
lemma balances_prefixed {operand : Reader Surface} (hoperand : Balances m 0 0 operand) :
    Balances n 0 0 (prefixed operand nested) := by
  refine (balances_left.bind fun before =>
    balances_updateOperator.optional_bind ?_ (fun up => ?_) hn).rule
  · refine balances_unaryOperator.optional_bind (balances_selected hexpr hn hahead)
      (fun op => ?_) hn
    exact balances_skip.bind fun _ => hoperand.bind fun _ => balances_left.bind fun _ =>
      balances_pure _
  · exact balances_skip.bind fun _ => hoperand.bind fun _ => balances_left.bind fun _ =>
      balances_pure _

end

lemma balances_operatorTail {op : Reader BinaryOperator} {operand : Reader Surface}
    (hop : Balances n 0 0 op) (ho : Balances n 0 0 operand) :
    Balances n 0 0 (operatorTail op operand) :=
  (balances_skip.bind fun _ => hop.bind fun _ => balances_skip.bind fun _ => ho.bind fun _ =>
    balances_left.bind fun _ => balances_pure _).rule

lemma balances_typeTestTail : Balances n 0 0 typeTestTail :=
  (balances_skip.bind fun _ => (balances_plainWord (by decide)).bind fun _ =>
    balances_nameChar.butNot.bind fun _ =>
    balances_skip.bind fun _ => balances_identifier.bind fun _ => balances_left.bind fun _ =>
      balances_pure _).rule

lemma balances_chain {operand : Reader Surface} {tail : Reader Tail} (ho : Balances n 0 0 operand)
    (ht : Balances n 0 0 tail) : Balances n 0 0 (chain operand tail) :=
  (ho.bind fun _ => ht.many.bind fun _ => balances_pure _).rule

/-- Expressions are balanced if their operands are, since operators are neutral and go down
nowhere. -/
lemma balances_expressionOver {operand : Reader Surface} (ho : Balances n 0 0 operand) :
    Balances n 0 0 (expressionOver operand) := by
  have hproduct : Balances n 0 0 (multiplicative operand) :=
    balances_chain ho (balances_operatorTail (balances_operator (by decide)) ho)
  have hsum : Balances n 0 0 (additive operand) :=
    balances_chain hproduct (balances_operatorTail (balances_operator (by decide)) hproduct)
  have hshift : Balances n 0 0 (shift operand) :=
    balances_chain hsum (balances_operatorTail (balances_operator (by decide)) hsum)
  have hrelational : Balances n 0 0 (relational operand) :=
    balances_chain hshift (balances_typeTestTail.orElse
      (balances_operatorTail (balances_operator (by decide)) hshift)).rule
  exact balances_chain hrelational
    (balances_operatorTail (balances_operator (by decide)) hrelational)

/-- Operands are balanced, and where there is room for so many levels no text that nests less is
nested too deeply for them. -/
lemma balances_operandWithin {room : Room Opening} (h : room.Holds n) :
    Balances n 0 0 (operandWithin room) := by
  -- on the room, which is one level less inside each opening
  induction room generalizing n with
  | none =>
    obtain rfl : n = 0 := h
    exact fun _ s => Nat.zero_le (nesting s)
  | more inside ih =>
    rw [operandWithin_more]
    exact balances_prefixed (fun opening => balances_expressionOver (ih opening (h opening)))
      (by omega) (h .suffix) (ih .sign (h .sign))

lemma balances_endOfText : Balances n 0 0 endOfText := by
  refine (balances_lexeme fun {s a rest} h => ?_).rule
  split at h
  case isTrue hs =>
    obtain ⟨-, rfl⟩ := Prod.mk.inj (Option.some.inj h)
    exact ⟨[], List.isEmpty_iff.mp hs, part_nil⟩
  case isFalse => cases h

/-- A text that is read as a pattern is balanced up to what is left, and where there is room for so
many levels one that nests less is not nested too deeply. -/
theorem balances_whole {room : Room Opening} (h : room.Holds n) : Balances n 0 0 (whole room) := by
  have hexpr : Balances n 0 0 (expression room) :=
    balances_expressionOver (balances_operandWithin h)
  exact (balances_skip.bind fun _ => hexpr.bind fun _ => balances_skip.bind fun _ =>
    balances_contextSuffix.optional.bind fun _ => balances_skip.bind fun _ =>
    balances_endOfText.bind fun _ => balances_pure _).rule

end Grammar

end ShapeLint
