import Mathlib.Tactic.Lemma
import ShapeLint.Grammar.Expression

/-!
# What readers do

A reader takes a mark and a text. The mark only says where an error would be reported, so everything
that is stated about readers here holds wherever the mark stands. A reader reads a value from the
front of a text (`Reads`), fails there (`Fails`), or finds the text nested too deeply (`Sinks`).

Readers are put together from others, and one lemma for each way of putting them together says what
becomes of the three. `Becomes` is for the repetitions: reading a text with one reader comes to
reading what is left with another. A chain of operators is read by steps of that kind, one for each
tail.

How far a text may be nested is not for the text to say. So what a reader does with a text is said
up to that: `Leads` is the step of `Becomes`, or else the text sinks. Steps of that kind follow each
other as those of `Becomes` do.

What is to hold of every reading, its mark included, is said of the reply: one condition for each
form that it can have (`Reply.Meets`). For each way of putting readers together a lemma takes the
conditions back to the parts.
-/

namespace ShapeLint.Grammar.Reader

variable {α β : Type}

/-- The value is read from the front of the text, and the rest is left. The mark may move meanwhile,
to anywhere: what a reader reads does not depend on where an error would be reported. -/
def Reads (p : Reader α) (s : List Char) (a : α) (rest : List Char) : Prop :=
  ∀ mark, ∃ mark', p mark s = .ok a rest mark'

/-- Nothing is read from the front of the text, wherever the mark stands. An alternative can still
be tried there. -/
def Fails (p : Reader α) (s : List Char) : Prop :=
  ∀ mark, ∃ mark', p mark s = .fail mark'

/-- The text is nested too deeply. No alternative is tried after that, so every reader that begins
with one that sinks does so too. -/
def Sinks (p : Reader α) (s : List Char) : Prop :=
  ∀ mark, p mark s = .deep

/-- Reading the text with the first reader comes to reading the rest with the second, whatever that
gives. Unlike `Reads` it says nothing of the outcome, so that the steps of a chain or a repetition
can be put one after the other before it is known how the last of them ends. -/
def Becomes (p : Reader α) (s : List Char) (q : Reader α) (rest : List Char) : Prop :=
  ∀ mark, ∃ mark', p mark s = q mark' rest

/-! ## Steps -/

/-- Steps follow each other, and the marks in between are forgotten. -/
lemma Becomes.trans {p q r : Reader α} {s t u : List Char} (h : Becomes p s q t)
    (h' : Becomes q t r u) :
    Becomes p s r u := by
  intro mark
  obtain ⟨mark', hp⟩ := h mark
  obtain ⟨mark'', hq⟩ := h' mark'
  exact ⟨mark'', hp.trans hq⟩

lemma Becomes.reads {p q : Reader α} {s t rest : List Char} {a : α} (h : Becomes p s q t)
    (hq : Reads q t a rest) :
    Reads p s a rest := by
  intro mark
  obtain ⟨mark', hp⟩ := h mark
  obtain ⟨mark'', hq⟩ := hq mark'
  exact ⟨mark'', hp.trans hq⟩

lemma Becomes.sinks {p q : Reader α} {s t : List Char} (h : Becomes p s q t) (hq : Sinks q t) :
    Sinks p s := by
  intro mark
  obtain ⟨mark', hp⟩ := h mark
  exact hp.trans (hq mark')

lemma Becomes.fails {p q : Reader α} {s t : List Char} (h : Becomes p s q t) (hq : Fails q t) :
    Fails p s := by
  intro mark
  obtain ⟨mark', hp⟩ := h mark
  obtain ⟨mark'', hq⟩ := hq mark'
  exact ⟨mark'', hp.trans hq⟩

/-! ## One reader after another -/

/-- After a value was read, what follows is read by the reader that was waiting for the value. All
lemmas on one reader after another come from this step. -/
lemma Reads.becomes {p : Reader α} {f : α → Reader β} {s rest : List Char} {a : α}
    (h : Reads p s a rest) :
    Becomes (p >>= f) s (f a) rest := by
  intro mark
  obtain ⟨mark', hp⟩ := h mark
  refine ⟨mark', ?_⟩
  change andThen p f mark s = f a mark' rest
  simp only [andThen, hp]

lemma Reads.bind {p : Reader α} {f : α → Reader β} {s t rest : List Char} {a : α} {b : β}
    (h : Reads p s a t) (hf : Reads (f a) t b rest) : Reads (p >>= f) s b rest :=
  h.becomes.reads hf

lemma Reads.bind_fails {p : Reader α} {f : α → Reader β} {s t : List Char} {a : α}
    (h : Reads p s a t) (hf : Fails (f a) t) : Fails (p >>= f) s :=
  h.becomes.fails hf

lemma Fails.bind {p : Reader α} {f : α → Reader β} {s : List Char} (h : Fails p s) :
    Fails (p >>= f) s := by
  intro mark
  obtain ⟨mark', hp⟩ := h mark
  refine ⟨mark', ?_⟩
  change andThen p f mark s = .fail mark'
  simp only [andThen, hp]

lemma Sinks.bind {p : Reader α} {f : α → Reader β} {s : List Char} (h : Sinks p s) :
    Sinks (p >>= f) s := by
  intro mark
  change andThen p f mark s = .deep
  simp only [andThen, h mark]

lemma reads_pure (a : α) (s : List Char) : Reads (pure a) s a s :=
  fun mark => ⟨mark, rfl⟩

lemma reads_left (s : List Char) : Reads left s s.length s :=
  fun mark => ⟨mark, rfl⟩

/-! ## Choice, options and lookahead -/

lemma Reads.orElse {p q : Reader α} {s rest : List Char} {a : α} (h : Reads p s a rest) :
    Reads (orElse p q) s a rest := by
  intro mark
  obtain ⟨mark', hp⟩ := h mark
  exact ⟨mark', by simp only [Reader.orElse, hp]⟩

lemma Sinks.orElse {p q : Reader α} {s : List Char} (h : Sinks p s) : Sinks (orElse p q) s := by
  intro mark
  simp only [Reader.orElse, h mark]

/-- Where the first alternative fails, the choice is the second one. The mark keeps what the first
has found out, which is why this is a step and no equation of readers. -/
lemma Fails.orElse_becomes {p q : Reader α} {s : List Char} (h : Fails p s) :
    Becomes (orElse p q) s q s := by
  intro mark
  obtain ⟨mark', hp⟩ := h mark
  exact ⟨mark', by simp only [Reader.orElse, hp]⟩

lemma Fails.orElse_reads {p q : Reader α} {s rest : List Char} {a : α} (h : Fails p s)
    (hq : Reads q s a rest) :
    Reads (orElse p q) s a rest :=
  h.orElse_becomes.reads hq

lemma Fails.orElse {p q : Reader α} {s : List Char} (h : Fails p s) (hq : Fails q s) :
    Fails (orElse p q) s :=
  h.orElse_becomes.fails hq

lemma fails_firstOf_nil (s : List Char) : Fails (firstOf ([] : List (Reader α))) s :=
  fun mark => ⟨mark, rfl⟩

lemma Reads.optional {p : Reader α} {s rest : List Char} {a : α} (h : Reads p s a rest) :
    Reads (optional p) s (some a) rest := by
  intro mark
  obtain ⟨mark', hp⟩ := h mark
  exact ⟨mark', by simp only [Reader.optional, hp]⟩

lemma Fails.optional {p : Reader α} {s : List Char} (h : Fails p s) :
    Reads (optional p) s none s := by
  intro mark
  obtain ⟨mark', hp⟩ := h mark
  exact ⟨mark', by simp only [Reader.optional, hp]⟩

lemma Sinks.optional {p : Reader α} {s : List Char} (h : Sinks p s) : Sinks (optional p) s := by
  intro mark
  simp only [Reader.optional, h mark]

lemma Fails.butNot {p : Reader α} {s : List Char} (h : Fails p s) : Reads (butNot p) s () s := by
  intro mark
  obtain ⟨mark', hp⟩ := h mark
  exact ⟨mark', by simp only [Reader.butNot, hp]⟩

lemma Reads.butNot {p : Reader α} {s rest : List Char} {a : α} (h : Reads p s a rest) :
    Fails (butNot p) s := by
  intro mark
  obtain ⟨mark', hp⟩ := h mark
  exact ⟨mark', by simp only [Reader.butNot, hp]⟩

/-! ## Rules and words -/

lemma Reads.rule {p : Reader α} {s rest : List Char} {a : α} (h : Reads p s a rest) :
    Reads (rule p) s a rest := by
  intro mark
  obtain ⟨mark', hp⟩ := h mark
  exact ⟨mark', by simp only [Reader.rule, hp]⟩

lemma Fails.rule {p : Reader α} {s : List Char} (h : Fails p s) : Fails (rule p) s := by
  intro mark
  obtain ⟨mark', hp⟩ := h mark
  exact ⟨min mark' s.length, by simp only [Reader.rule, hp]⟩

lemma Sinks.rule {p : Reader α} {s : List Char} (h : Sinks p s) : Sinks (rule p) s := by
  intro mark
  simp only [Reader.rule, h mark]

lemma reads_lexeme {f : List Char → Option (α × List Char)} {s rest : List Char} {a : α}
    (h : f s = some (a, rest)) :
    Reads (lexeme f) s a rest := by
  intro mark
  exact ⟨mark, by simp only [lexeme, h]⟩

lemma fails_lexeme {f : List Char → Option (α × List Char)} {s : List Char} (h : f s = none) :
    Fails (lexeme f) s := by
  intro mark
  exact ⟨mark, by simp only [lexeme, h]⟩

lemma afterWord?_append (w s : List Char) : afterWord? w (w ++ s) = some s := by
  induction w with
  | nil => rfl
  | cons c w ih => simp only [List.cons_append, afterWord?, if_true, ih]

/-- What a word at the front of a text leaves is the text without that word, so a word that is read
takes exactly its own characters. -/
theorem afterWord?_eq_some {w s rest : List Char} (h : afterWord? w s = some rest) :
    s = w ++ rest := by
  fun_induction afterWord? w s with
  | case1 s => exact Option.some.inj h
  | case2 => cases h
  | case3 w d s ih => rw [List.cons_append, ih h]
  | case4 => cases h

lemma reads_word (w : String) (s : List Char) : Reads (word w) (w.toList ++ s) () s :=
  reads_lexeme (by rw [afterWord?_append]; rfl)

lemma fails_word {w : String} {s : List Char} (h : afterWord? w.toList s = none) :
    Fails (word w) s :=
  fails_lexeme (by rw [h]; rfl)

/-! ## Repetition -/

lemma Fails.many {p : Reader α} {s : List Char} (h : Fails p s) : Reads (many p) s [] s := by
  intro mark
  obtain ⟨mark', hp⟩ := h mark
  exact ⟨mark', by rw [Reader.many, hp]⟩

lemma Sinks.many {p : Reader α} {s : List Char} (h : Sinks p s) : Sinks (many p) s := by
  intro mark
  rw [Reader.many, h mark]

/-- A repetition whose first item reads something goes on behind that item. That the item is not
empty is what ends the recursion, and it is asked of each step of a repetition below. -/
lemma many_of_ok {p : Reader α} {s t : List Char} {a : α} {mark mark' : Nat}
    (h : p mark s = .ok a t mark') (hlt : t.length < s.length) :
    many p mark s =
      match many p mark' t with
      | .ok as rest mark => .ok (a :: as) rest mark
      | reply => reply := by
  rw [Reader.many, h]
  exact if_pos hlt

lemma Reads.many_cons {p : Reader α} {s t rest : List Char} {a : α} {as : List α}
    (h : Reads p s a t) (hlt : t.length < s.length) (hr : Reads (many p) t as rest) :
    Reads (many p) s (a :: as) rest := by
  intro mark
  obtain ⟨mark', hp⟩ := h mark
  obtain ⟨mark'', hm⟩ := hr mark'
  exact ⟨mark'', by rw [many_of_ok hp hlt, hm]⟩

lemma Reads.many_sinks {p : Reader α} {s t : List Char} {a : α} (h : Reads p s a t)
    (hlt : t.length < s.length) (hr : Sinks (many p) t) : Sinks (many p) s := by
  intro mark
  obtain ⟨mark', hp⟩ := h mark
  rw [many_of_ok hp hlt, hr mark']

/-- A fold over the items of a repetition takes the first item in and goes on from there. A chain of
operators is such a fold, with the operand in front of it as the start. -/
lemma Reads.many_foldl {γ : Type} {p : Reader α} {s t : List Char} {a : α} {g : β → α → β} {b : β}
    {k : β → Reader γ} (h : Reads p s a t) (hlt : t.length < s.length) :
    Becomes (many p >>= fun as => k (as.foldl g b)) s
      (many p >>= fun as => k (as.foldl g (g b a))) t := by
  intro mark
  obtain ⟨mark', hp⟩ := h mark
  refine ⟨mark', ?_⟩
  change andThen (many p) (fun as => k (as.foldl g b)) mark s =
    andThen (many p) (fun as => k (as.foldl g (g b a))) mark' t
  simp only [andThen, many_of_ok hp hlt]
  -- whatever the further items come to, the fold over all of them starts with the first
  -- whatever the further items come to, the fold over all of them starts with the first
  cases many p mark' t <;> rfl

/-! ## Reading where there is room -/

/-- Reading the text with the first reader comes to reading the rest with the second, or the text is
nested too deeply. How much room there is stays open, so this is what can be said of a text
alone. -/
def Leads (p : Reader α) (s : List Char) (q : Reader α) (rest : List Char) : Prop :=
  Becomes p s q rest ∨ Sinks p s

/-- To read a value is to come to the reader that has it already. -/
lemma Reads.leads {p : Reader α} {s rest : List Char} {a : α} (h : Reads p s a rest) :
    Leads p s (pure a) rest :=
  .inl h

lemma Becomes.leads {p q : Reader α} {s rest : List Char} (h : Becomes p s q rest) :
    Leads p s q rest :=
  .inl h

lemma Sinks.leads {p q : Reader α} {s rest : List Char} (h : Sinks p s) : Leads p s q rest :=
  .inr h

lemma Becomes.trans_leads {p q r : Reader α} {s t u : List Char} (h : Becomes p s q t)
    (h' : Leads q t r u) :
    Leads p s r u :=
  h'.imp h.trans h.sinks

/-- Steps of this kind follow each other: if the first sinks, all of them do. -/
lemma Leads.trans {p q r : Reader α} {s t u : List Char} (h : Leads p s q t) (h' : Leads q t r u) :
    Leads p s r u :=
  h.elim (fun hp => hp.trans_leads h') .inr

lemma Leads.trans_becomes {p q r : Reader α} {s t u : List Char} (h : Leads p s q t)
    (h' : Becomes q t r u) :
    Leads p s r u :=
  h.trans h'.leads

lemma Leads.trans_reads {p q : Reader α} {s t u : List Char} {a : α} (h : Leads p s q t)
    (h' : Reads q t a u) :
    Leads p s (pure a) u :=
  h.trans_becomes h'

lemma Leads.bind {p : Reader α} {f : α → Reader β} {s rest : List Char} {a : α}
    (h : Leads p s (pure a) rest) :
    Leads (p >>= f) s (f a) rest :=
  h.imp Reads.becomes Sinks.bind

lemma Leads.rule {p : Reader α} {s rest : List Char} {a : α} (h : Leads p s (pure a) rest) :
    Leads (rule p) s (pure a) rest :=
  h.imp Reads.rule Sinks.rule

lemma Leads.orElse {p q : Reader α} {s rest : List Char} {a : α} (h : Leads p s (pure a) rest) :
    Leads (orElse p q) s (pure a) rest :=
  h.imp Reads.orElse Sinks.orElse

lemma Leads.optional {p : Reader α} {s rest : List Char} {a : α} (h : Leads p s (pure a) rest) :
    Leads (optional p) s (pure (some a)) rest :=
  h.imp Reads.optional Sinks.optional

/-- The items of a repetition are read one after another as long as there is room. Each item has to
take something, as in `many_of_ok`. -/
lemma Leads.many_cons {p : Reader α} {s t rest : List Char} {a : α} {as : List α}
    (h : Leads p s (pure a) t) (hlt : t.length < s.length) (hr : Leads (many p) t (pure as) rest) :
    Leads (many p) s (pure (a :: as)) rest := by
  rcases h with h | h
  · exact hr.imp (Reads.many_cons h hlt) (Reads.many_sinks h hlt)
  · exact h.many.leads

/-- A fold over the items of a repetition takes the first item in if that can be read, and the
repetition sinks with the item if it cannot. -/
lemma Leads.many_foldl {γ : Type} {p : Reader α} {s t : List Char} {a : α} {g : β → α → β} {b : β}
    {k : β → Reader γ} (h : Leads p s (pure a) t) (hlt : t.length < s.length) :
    Leads (many p >>= fun as => k (as.foldl g b)) s
      (many p >>= fun as => k (as.foldl g (g b a))) t :=
  h.imp (fun h => Reads.many_foldl h hlt) fun h => h.many.bind

/-! ## Looking where there is room -/

/-- Looking ahead takes room itself. What fails where there is room sinks where there is none, so a
lookahead is no proof that a text can be read. -/
lemma Fails.within {Step : Type} {p : Reader α} {s : List Char} (h : Fails p s) (room : Room Step) :
    Fails (within room p) s ∨ Sinks (within room p) s := by
  cases room with
  | none => exact .inr fun _ => rfl
  | more => exact .inl h

lemma Sinks.butNot {p : Reader α} {s : List Char} (h : Sinks p s) : Sinks (butNot p) s := by
  intro mark
  simp only [Reader.butNot, h mark]

end ShapeLint.Grammar.Reader

namespace ShapeLint.Grammar

open Reader

/-! ## Conditions on replies -/

/-- The reply meets the condition for its form: one for what is read, one for the mark of a failure
and one for a text that is nested too deeply. -/
def Reply.Meets {α : Type} (ok : α → List Char → Nat → Prop) (fail : Nat → Prop) (deep : Prop) :
    Reply α → Prop
  | .ok a rest mark => ok a rest mark
  | .fail mark => fail mark
  | .deep => deep

/-- A condition on replies is decided if the condition for each form is. -/
instance {α : Type} (ok : α → List Char → Nat → Prop) (fail : Nat → Prop) (deep : Prop)
    [∀ a rest mark, Decidable (ok a rest mark)] [∀ mark, Decidable (fail mark)] [Decidable deep]
    (r : Reply α) :
    Decidable (r.Meets ok fail deep) :=
  match r with
  | .ok a rest mark => inferInstanceAs (Decidable (ok a rest mark))
  | .fail mark => inferInstanceAs (Decidable (fail mark))
  | .deep => inferInstanceAs (Decidable deep)

/-- Where only a failure at one mark is allowed, that is the reply. The refusals of a text are
proved as conditions and read off as equations by this. -/
lemma eq_fail_of_meets {α : Type} {r : Reply α} {mark : Nat}
    (h : r.Meets (fun _ _ _ => False) (fun mark' => mark' = mark) False) : r = .fail mark := by
  cases r with
  | ok a rest mark' => exact h.elim
  | fail mark' => exact congrArg Reply.fail h
  | deep => exact h.elim

section

variable {α β : Type} {ok : α → List Char → Nat → Prop} {fail : Nat → Prop} {deep : Prop}
  {p q : Reader α} {mark : Nat} {s : List Char}

lemma Reply.Meets.imp {ok' : α → List Char → Nat → Prop} {fail' : Nat → Prop}
    {deep' : Prop} {r : Reply α} (h : r.Meets ok fail deep)
    (hok : ∀ a rest mark, ok a rest mark → ok' a rest mark) (hfail : ∀ mark, fail mark → fail' mark)
    (hdeep : deep → deep') : r.Meets ok' fail' deep' := by
  cases r with
  | ok a rest mark => exact hok a rest mark h
  | fail mark => exact hfail mark h
  | deep => exact hdeep h

lemma Reply.Meets.imp_fail {fail' : Nat → Prop} {r : Reply α} (h : r.Meets ok fail deep)
    (hfail : ∀ mark, fail mark → fail' mark) : r.Meets ok fail' deep :=
  h.imp (fun _ _ _ hok => hok) hfail fun hdeep => hdeep

/-- What is said of readings whatever the mark gives a condition on the reply, as long as the
condition does not depend on the mark. -/
lemma Reader.Reads.meets {rest : List Char} {a : α} (h : Reads p s a rest)
    (hok : ∀ mark, ok a rest mark) :
    (p mark s).Meets ok fail deep := by
  obtain ⟨mark', hp⟩ := h mark
  rw [hp]
  exact hok mark'

/-- The condition on one reader after another is a condition on the first, with that on the second
inside. Together with those for choices, options and rules below it takes a condition on a reader
back to its words and lexemes. -/
lemma meets_bind {f : α → Reader β} {ok : β → List Char → Nat → Prop} :
    ((p >>= f) mark s).Meets ok fail deep ↔
      (p mark s).Meets (fun a rest mark => (f a mark rest).Meets ok fail deep) fail deep := by
  change (andThen p f mark s).Meets ok fail deep ↔ _
  unfold andThen
  cases p mark s <;> rfl

lemma bind_assoc {γ : Type} (p : Reader α) (f : α → Reader β) (g : β → Reader γ) :
    (p >>= f) >>= g = p >>= fun a => f a >>= g := by
  funext mark s
  change andThen (andThen p f) g mark s = andThen p (fun a => andThen (f a) g) mark s
  unfold andThen
  cases p mark s <;> rfl

/-- What is read by one reader after another has been read by both, and the second went on where the
first stopped. -/
theorem exists_of_bind_ok {f : α → Reader β} {b : β} {rest : List Char} {mark' : Nat}
    (h : (p >>= f) mark s = .ok b rest mark') :
    ∃ a t m, p mark s = .ok a t m ∧ f a m t = .ok b rest mark' := by
  change andThen p f mark s = .ok b rest mark' at h
  unfold andThen at h
  split at h
  case h_1 a t m hp => exact ⟨a, t, m, hp, h⟩
  case h_2 => cases h
  case h_3 => cases h

lemma rule_eq_ok {a : α} {rest : List Char} {mark' : Nat} :
    rule p mark s = .ok a rest mark' ↔ p mark s = .ok a rest mark' := by
  unfold rule
  cases p mark s <;> simp

/-- A rule that fails where nothing is left moves the mark to the end of the text. So a text that
breaks off is reported at its end. -/
theorem rule_nil_of_fails (h : Fails p []) : rule p mark [] = .fail 0 := by
  obtain ⟨mark', hp⟩ := h mark
  simp only [rule, hp, List.length_nil, Nat.min_zero]

/-- Where an option is not there, nothing is taken from the text. -/
theorem eq_of_optional_none {rest : List Char} {mark' : Nat}
    (h : optional p mark s = .ok none rest mark') : rest = s := by
  unfold Reader.optional at h
  split at h
  case h_1 => cases h
  case h_2 => exact (Reply.ok.inj h).2.1.symm
  case h_3 => cases h

/-- Where an option is there, it was read as it would be by itself. -/
lemma eq_of_optional_some {a : α} {rest : List Char} {mark' : Nat}
    (h : optional p mark s = .ok (some a) rest mark') :
    p mark s = .ok a rest mark' := by
  unfold Reader.optional at h
  split at h
  case h_1 b t m hp =>
    obtain ⟨hvalue, rfl, rfl⟩ := Reply.ok.inj h
    rw [hp, Option.some.inj hvalue]
  case h_2 => cases h
  case h_3 => cases h

lemma meets_orElse :
    (orElse p q mark s).Meets ok fail deep ↔
      (p mark s).Meets ok (fun mark => (q mark s).Meets ok fail deep) deep := by
  unfold orElse
  cases p mark s <;> rfl

lemma meets_optional {ok : Option α → List Char → Nat → Prop} :
    (optional p mark s).Meets ok fail deep ↔
      (p mark s).Meets (fun a => ok (some a)) (fun mark => ok none s mark) deep := by
  unfold Reader.optional
  cases p mark s <;> rfl

lemma meets_butNot {ok : Unit → List Char → Nat → Prop} :
    (butNot p mark s).Meets ok fail deep ↔
      (p mark s).Meets (fun _ _ mark => fail mark) (fun mark => ok () s mark) deep := by
  unfold butNot
  cases p mark s <;> rfl

/-- A reader that needs room meets a condition if it does so with room, and if the condition allows
too deep a text where there is none. -/
lemma meets_within {Step : Type} {room : Room Step} (h : (p mark s).Meets ok fail deep)
    (hroom : room = .none → deep) :
    (within room p mark s).Meets ok fail deep := by
  cases room with
  | none => exact hroom rfl
  | more => exact h

lemma meets_rule :
    (rule p mark s).Meets ok fail deep ↔
    (p mark s).Meets ok (fun mark => fail (min mark s.length)) deep := by
  unfold rule
  cases p mark s <;> rfl

lemma meets_lexeme {f : List Char → Option (α × List Char)}
    (hsome : ∀ a rest, f s = some (a, rest) → ok a rest mark) (hnone : f s = none → fail mark) :
    (lexeme f mark s).Meets ok fail deep := by
  unfold lexeme
  cases hf : f s with
  | none => exact hnone hf
  | some found => exact hsome found.1 found.2 hf

/-- A word that is read stands at the front of the text; nothing else has to be known of it, and
where it is missing the mark stays. -/
lemma meets_word {w : String} {ok : Unit → List Char → Nat → Prop}
    (hsome : ∀ rest, s = w.toList ++ rest → ok () rest mark) (hnone : fail mark) :
    (word w mark s).Meets ok fail deep := by
  refine meets_lexeme (fun _ rest h => ?_) fun _ => hnone
  obtain ⟨rest', hrest, heq⟩ := Option.map_eq_some_iff.mp h
  obtain ⟨-, rfl⟩ := Prod.mk.inj heq
  exact hsome rest' (afterWord?_eq_some hrest)

/-- What every item of a repetition keeps, whether it is read or not, the repetition keeps. A
repetition does not fail, so nothing is asked of a failure. -/
theorem meets_many (keeps : Nat → List Char → Prop)
    (h : ∀ mark s, keeps mark s →
      (p mark s).Meets (fun _ rest mark => keeps mark rest) (fun mark => keeps mark s) deep)
    (hkeeps : keeps mark s) :
    (many p mark s).Meets (fun _ rest mark => keeps mark rest) fail deep := by
  -- along the recursion of `many`: the item ends the repetition in the first two cases and in the
  -- last, and in the others the induction hypothesis speaks of what follows it
  -- along the recursion of `many`: the item ends the repetition in the first two cases and in the
  -- last, and in the others the induction hypothesis speaks of what follows it
  fun_induction Reader.many p mark s with
  | case1 mark s hp =>
    have hitem := h mark s hkeeps
    rwa [hp] at hitem
  | case2 mark s mark' hp =>
    have hitem := h mark s hkeeps
    rwa [hp] at hitem
  | case3 mark s a t mark' hp hlt as rest mark'' hmany ih =>
    have hitem := h mark s hkeeps
    rw [hp] at hitem
    have hothers := ih hitem
    rwa [hmany] at hothers
  | case4 mark s a t mark' hp hlt hno ih =>
    have hitem := h mark s hkeeps
    rw [hp] at hitem
    have hothers := ih hitem
    cases hmany : many p mark' t with
    | ok as rest mark'' => exact absurd hmany (hno as rest mark'')
    | fail mark'' =>
      rw [hmany] at hothers
      exact hothers
    | deep =>
      rw [hmany] at hothers
      exact hothers
  | case5 mark s a t mark' hp hge =>
    have hitem := h mark s hkeeps
    rwa [hp] at hitem

end

/-! ## Operands -/

/-- What can be read inside an operand where there is so much room inside each opening: an
expression in brackets, an argument or an index, and the context that an index is told apart
from. -/
def nestedWithin (inside : Opening → Room Opening) : Nested where
  expression := fun opening => expressionOver (operandWithin (inside opening))
  ahead := inside .suffix

/-- An operand for which there is room is one that may have a sign in front. Each sign goes down by
one step, and the brackets behind it by steps of their own. -/
lemma operandWithin_more (inside : Opening → Room Opening) :
    operandWithin (.more inside) = prefixed (operandWithin (inside .sign)) (nestedWithin inside) :=
  rfl

lemma sinks_operandWithin_none (s : List Char) : Sinks (operandWithin .none) s :=
  fun _ => rfl

end ShapeLint.Grammar
