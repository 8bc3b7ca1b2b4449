import ShapeLint.Proofs.Balance

/-!
# Where an error is reported

A text that cannot be read is reported at the furthest place where a rule has failed, and the
message names what stands there. If white space stands there, the message has nothing to name and
says that the pattern has ended, although it may go on. So it matters in front of what rules can
fail last. A place is `Firm` if no white space stands there, or if it is one of two exceptions: it
lies behind a colon, where a word has to follow at once, or behind `new` and a type name, where the
arguments are one rule together with the white space in front of them. The text is always reported
at a firm place.

Not every rule fails at a firm place. Arguments and type tests are looked for together with the
white space in front of them, and what is tried if they are missing fails further on, behind that
white space. So in between the mark is only `Held`: it is firm, or it is not further on than the
place that has been reached. How a reader fails decides what can be said of the readers that it is
part of. A `Sharp` one fails with a firm mark, a `Ruled` one with a firm mark or one at its own
start, a `Neat` one with a firm mark or the mark that it was given, and a `Mild` one in one of these
ways.
-/

namespace ShapeLint.Grammar

open Reader
open Text (isBlank isNameChar)

/-- The text ends in a colon. -/
def EndsInColon (s : List Char) : Prop :=
  ∃ front, s = front ++ [':']

/-- The text ends in the word of a creation and a name, with white space in between. -/
def EndsInCreation (s : List Char) : Prop :=
  ∃ front gap name, Gap gap ∧ IsName name ∧ s = front ++ ("new".toList ++ (gap ++ name.toList))

/-- What is left of the text at a place has no white space in front, or what is in front of the
place makes an exception. A message about a firm place can name what stands there. -/
def Firm (text : List Char) (left : Nat) : Prop :=
  ∃ before rest, text = before ++ rest ∧ rest.length = left ∧
    (Halts isBlank rest ∨ EndsInColon before ∨ EndsInCreation before)

/-- The mark stands at a firm place, or not further on than where the rest starts. In the second
case it is not the mark that will be reported, if a rule fails at the rest or behind it. -/
def Held (text : List Char) (mark : Nat) (rest : List Char) : Prop :=
  Firm text mark ∨ rest.length ≤ mark

section

variable {text s t : List Char} {mark : Nat}

/-- A place without white space behind it is firm. -/
lemma firm_of_halts (hs : s <:+ text) (h : Halts isBlank s) : Firm text s.length := by
  obtain ⟨before, rfl⟩ := hs
  exact ⟨before, s, rfl, rfl, .inl h⟩

/-- A held mark stays so as reading goes on. -/
lemma Held.of_suffix (h : Held text mark s) (ht : t <:+ s) : Held text mark t := by
  rcases h with hfirm | hle
  · exact .inl hfirm
  · exact .inr (Nat.le_trans ht.length_le hle)

/-- A mark that is held and further on than where the rest starts is at a firm place. -/
lemma Held.firm_of_lt (h : Held text mark s) (hlt : mark < s.length) : Firm text mark := by
  rcases h with hfirm | hle
  · exact hfirm
  · exact absurd hlt (Nat.not_lt.mpr hle)

end

/-! ## Ways to fail -/

/-- The mark is as it was, at a firm place or at the start of the text. A rule that fails at its own
start has moved the mark slightly. -/
def Slight (text : List Char) (mark : Nat) (s : List Char) (mark' : Nat) : Prop :=
  mark' = mark ∨ Firm text mark' ∨ mark' = s.length

section

variable {α β : Type}

/-- Reading goes on with the mark held, and if it fails, the given mark, the text and the new mark
are related so. The ways to fail below differ only in that relation. -/
def Minds (text : List Char) (F : Nat → List Char → Nat → Prop) (p : Reader α) : Prop :=
  ∀ mark s, s <:+ text → Held text mark s →
    (p mark s).Meets (fun _ rest mark' => rest <:+ s ∧ Held text mark' rest) (F mark s) True

/-- The reader fails at a firm place, which is not in front of its own start. So does what starts
with white space and then is a rule. -/
abbrev Sharp (text : List Char) (p : Reader α) : Prop :=
  Minds text (fun _ s mark' => Firm text mark' ∧ mark' ≤ s.length) p

/-- The reader fails at a firm place or at its own start, as every rule of the grammar does. -/
abbrev Ruled (text : List Char) (p : Reader α) : Prop :=
  Minds text (fun _ s mark' => (Firm text mark' ∨ mark' = s.length) ∧ mark' ≤ s.length) p

/-- The reader fails at a firm place or with the mark as it was. Tokens are of this kind, because
they are no rules. -/
abbrev Neat (text : List Char) (p : Reader α) : Prop :=
  Minds text (fun mark _ mark' => mark' = mark ∨ Firm text mark') p

/-- The reader fails at a firm place, at its own start or with the mark as it was. It is the weakest
of the four, and enough to be made a rule of. -/
abbrev Mild (text : List Char) (p : Reader α) : Prop :=
  Minds text (Slight text) p

variable {text s t : List Char} {mark mark' : Nat} {F G : Nat → List Char → Nat → Prop}
  {p q : Reader α} {f : α → Reader β}

lemma Minds.mono (h : Minds text F p) (hFG : ∀ mark s mark', F mark s mark' → G mark s mark') :
    Minds text G p :=
  fun mark s hs hheld => (h mark s hs hheld).imp_fail (hFG mark s)

lemma Sharp.ruled (h : Sharp text p) : Ruled text p :=
  Minds.mono h fun _ _ _ hfail => ⟨.inl hfail.1, hfail.2⟩

lemma Ruled.mild (h : Ruled text p) : Mild text p :=
  Minds.mono h fun _ _ _ hfail => .inr hfail.1

lemma Neat.mild (h : Neat text p) : Mild text p :=
  Minds.mono h fun _ _ _ hfail => hfail.imp id .inl

/-- What a reader behind the start of a text leaves is left of that text too. -/
lemma Minds.behind (h : Minds text F p) (hs : s <:+ text) (ht : t <:+ s)
    (hheld : Held text mark t) :
    (p mark t).Meets (fun _ rest mark' => rest <:+ s ∧ Held text mark' rest) (F mark t) True := by
  refine (h mark t (ht.trans hs) hheld).imp ?_ (fun _ hfail => hfail) fun _ => trivial
  rintro a rest mark' ⟨hrest, hheld'⟩
  exact ⟨hrest.trans ht, hheld'⟩

/-- A token as a rule moves the mark to its own start if that is further on. -/
lemma slight_min (text : List Char) (mark : Nat) (s : List Char) :
    Slight text mark s (min mark s.length) := by
  rcases Nat.le_total mark s.length with hle | hge
  · exact .inl (Nat.min_eq_left hle)
  · exact .inr (.inr (Nat.min_eq_right hge))

/-- A mark that was held and is moved slightly is still held. -/
lemma Slight.held (h : Slight text mark s mark') (hheld : Held text mark s) :
    Held text mark' s := by
  rcases h with rfl | hfirm | rfl
  · exact hheld
  · exact .inl hfirm
  · exact .inr (Nat.le_refl _)

lemma Slight.trans {mark'' : Nat} (h : Slight text mark s mark') (h' : Slight text mark' s mark'') :
    Slight text mark s mark'' := by
  rcases h' with rfl | hmoved
  · exact h
  · exact .inr hmoved

/-- A reader that is tried where another has moved the mark slightly leaves it no worse. -/
lemma Mild.again (h : Mild text p) (hs : s <:+ text) (hheld : Held text mark s)
    (hmark : Slight text mark s mark') :
    (p mark' s).Meets (fun _ rest mark'' => rest <:+ s ∧ Held text mark'' rest)
    (Slight text mark s) True :=
  (h mark' s hs (hmark.held hheld)).imp_fail fun _ hfail => hmark.trans hfail

/-! ## Readers that do not fail -/

lemma minds_pure (a : α) : Minds text F (pure a : Reader α) :=
  fun _ _ _ hheld => ⟨List.suffix_refl _, hheld⟩

lemma minds_left_bind {f : Nat → Reader β} (h : ∀ n, Minds text F (f n)) :
    Minds text F (left >>= f) :=
  fun mark s hs hheld => h s.length mark s hs hheld

lemma minds_skip : Minds text F skip :=
  fun _ _ _ hheld =>
    ⟨List.dropWhile_suffix isBlank, hheld.of_suffix (List.dropWhile_suffix isBlank)⟩

/-- What is missing from an option does not fail, so nothing is asked of how the reader fails but
that the mark is held. -/
lemma Mild.optional (h : Mild text p) : Minds text F (optional p) := by
  intro mark s hs hheld
  refine meets_optional.mpr ((h mark s hs hheld).imp (fun _ _ _ hok => hok) ?_ fun _ => trivial)
  exact fun mark' hfail => ⟨List.suffix_refl s, hfail.held hheld⟩

/-- A repetition does not fail either. That the mark is held is the invariant of its loop. -/
lemma Mild.many (h : Mild text p) : Minds text F (many p) := by
  intro mark s hs hheld
  refine meets_many (fun mark t => t <:+ s ∧ Held text mark t) ?_ ⟨List.suffix_refl s, hheld⟩
  rintro mark' t ⟨ht, hheld'⟩
  exact (h.behind hs ht hheld').imp_fail fun mark'' hfail => ⟨ht, hfail.held hheld'⟩

/-! ## Putting readers together -/

/-- What fails at firm places can follow any reader, and the two fail as the first one does. -/
lemma Minds.bind (hp : Minds text F p) (hf : ∀ a, Sharp text (f a))
    (hF : ∀ mark s mark', Firm text mark' → mark' ≤ s.length → F mark s mark') :
    Minds text F (p >>= f) := by
  intro mark s hs hheld
  refine meets_bind.mpr ((hp mark s hs hheld).imp ?_ (fun _ hfail => hfail) fun _ => trivial)
  rintro a rest mark' ⟨hrest, hheld'⟩
  refine ((hf a).behind hs hrest hheld').imp_fail ?_
  rintro mark'' ⟨hfirm, hle⟩
  exact hF mark s mark'' hfirm (Nat.le_trans hle hrest.length_le)

lemma Sharp.bind (hp : Sharp text p) (hf : ∀ a, Sharp text (f a)) : Sharp text (p >>= f) :=
  Minds.bind hp hf fun _ _ _ hfirm hle => ⟨hfirm, hle⟩

lemma Ruled.bind (hp : Ruled text p) (hf : ∀ a, Sharp text (f a)) : Ruled text (p >>= f) :=
  Minds.bind hp hf fun _ _ _ hfirm hle => ⟨.inl hfirm, hle⟩

lemma Neat.bind (hp : Neat text p) (hf : ∀ a, Sharp text (f a)) : Neat text (p >>= f) :=
  Minds.bind hp hf fun _ _ _ hfirm _ => .inr hfirm

/-- A rule fails at its own start unless something has failed further on. -/
lemma Mild.rule (h : Mild text p) : Ruled text (rule p) := by
  intro mark s hs hheld
  refine meets_rule.mpr ((h mark s hs hheld).imp_fail fun mark' hfail => ⟨?_, Nat.min_le_right ..⟩)
  rcases Nat.lt_or_ge mark' s.length with hlt | hge
  · rw [Nat.min_eq_left (Nat.le_of_lt hlt)]
    exact .inl ((hfail.held hheld).firm_of_lt hlt)
  · exact .inr (Nat.min_eq_right hge)

/-- A rule does not move a mark that is further on than its start. -/
lemma Sharp.rule (h : Sharp text p) : Sharp text (rule p) := by
  intro mark s hs hheld
  refine meets_rule.mpr ((h mark s hs hheld).imp_fail ?_)
  rintro mark' ⟨hfirm, hle⟩
  rw [Nat.min_eq_left hle]
  exact ⟨hfirm, hle⟩

/-- Behind white space a place is firm. -/
lemma firm_behind_blanks (hs : s <:+ text) : Firm text (s.dropWhile isBlank).length :=
  firm_of_halts ((List.dropWhile_suffix isBlank).trans hs) (halts_dropWhile isBlank s)

/-- Behind white space a rule fails at a firm place, since its own start is one. -/
lemma sharp_skip_bind {f : Unit → Reader β} (hf : ∀ a, Ruled text (f a)) :
    Sharp text (skip >>= f) := by
  intro mark s hs hheld
  have hsuffix : s.dropWhile isBlank <:+ s := List.dropWhile_suffix isBlank
  refine ((hf ()).behind hs hsuffix (hheld.of_suffix hsuffix)).imp_fail ?_
  rintro mark' ⟨hfirm | rfl, hle⟩
  · exact ⟨hfirm, Nat.le_trans hle hsuffix.length_le⟩
  · exact ⟨firm_behind_blanks hs, hsuffix.length_le⟩

/-- White space does not move the mark, so behind it the mark may be as it was. -/
lemma neat_skip_bind {f : Unit → Reader β} (hf : ∀ a, Mild text (f a)) :
    Neat text (skip >>= f) := by
  intro mark s hs hheld
  have hsuffix : s.dropWhile isBlank <:+ s := List.dropWhile_suffix isBlank
  refine ((hf ()).behind hs hsuffix (hheld.of_suffix hsuffix)).imp_fail ?_
  rintro mark' (rfl | hfirm | rfl)
  · exact .inl rfl
  · exact .inr hfirm
  · exact .inr (firm_behind_blanks hs)

/-- The second alternative is tried at the same place, with a mark that is firm or at that place. -/
lemma Ruled.orElse (hp : Ruled text p) (hq : Mild text q) : Mild text (orElse p q) := by
  intro mark s hs hheld
  refine meets_orElse.mpr ((hp mark s hs hheld).imp (fun _ _ _ hok => hok) ?_ fun _ => trivial)
  exact fun mark' hfail => hq.again hs hheld (.inr hfail.1)

/-- So are further alternatives, one after the other. -/
lemma mild_firstOf {ps : List (Reader α)} (h : ∀ p ∈ ps, Ruled text p) :
    Mild text (firstOf ps) := by
  induction ps with
  | nil => exact fun _ _ _ _ => .inl rfl
  | cons p ps ih =>
    obtain ⟨hp, hps⟩ := List.forall_mem_cons.mp h
    exact hp.orElse (ih hps)

/-- Where an option is missing, what follows starts at the same place. -/
lemma Ruled.optional_bind {f : Option α → Reader β} (hp : Ruled text p) (hnone : Mild text (f none))
    (hsome : ∀ a, Sharp text (f (some a))) : Mild text (Reader.optional p >>= f) := by
  intro mark s hs hheld
  refine meets_bind.mpr (meets_optional.mpr ((hp mark s hs hheld).imp ?_ ?_ fun _ => trivial))
  · rintro a rest mark' ⟨hrest, hheld'⟩
    exact ((hsome a).behind hs hrest hheld').imp_fail fun _ hfail => .inr (.inl hfail.1)
  · exact fun mark' hfail => hnone.again hs hheld (.inr hfail.1)

/-! ## Tokens and looking ahead -/

section

variable {γ : Type} {g : List Char → Option (γ × List Char)} {k : Nat} {d : Int}

/-- A token leaves the mark as it is, so what follows it may fail with the mark as it was. That a
token takes a part of the text off is all that is used of it. -/
lemma neat_lexeme_bind {f : γ → Reader β} (hg : Balances 0 k d (lexeme g))
    (hf : ∀ a, Neat text (f a)) :
    Neat text (lexeme g >>= f) := by
  intro mark s hs hheld
  refine meets_bind.mpr (meets_lexeme (fun a rest htoken => ?_) fun _ => .inl rfl)
  have htaken := hg mark s
  rw [lexeme, htoken] at htaken
  obtain ⟨w, rfl, -⟩ := htaken
  have hrest : rest <:+ w ++ rest := List.suffix_append ..
  exact (hf a).behind hs hrest (hheld.of_suffix hrest)

lemma neat_lexeme (hg : Balances 0 k d (lexeme g)) : Neat text (lexeme g) := by
  intro mark s hs hheld
  exact (meets_bind.mp (neat_lexeme_bind hg (fun a => minds_pure a) mark s hs hheld)).imp
    (fun _ _ _ hok => hok) (fun _ hfail => hfail) fun _ => trivial

/-- A rule for a token fails at its own start. -/
lemma ruled_token (h : Balances 0 k d (rule (lexeme g))) : Ruled text (rule (lexeme g)) := by
  have hlexeme : Balances 0 k d (lexeme g) := fun mark s => meets_rule.mp (h mark s)
  exact (neat_lexeme hlexeme).mild.rule

/-- A word that is looked for ahead moves the mark to its start at most, and finding it does not
move the mark. -/
lemma neat_butNot : Neat text (butNot (rule (lexeme g))) := by
  intro mark s _ hheld
  refine meets_butNot.mpr (meets_rule.mpr (meets_lexeme (fun _ _ _ => .inl rfl) fun _ => ?_))
  exact ⟨List.suffix_refl s, (slight_min text mark s).held hheld⟩

end

/-- Looking with the reader moves the mark slightly, whether it finds something or not. -/
def Looks (text : List Char) (p : Reader α) : Prop :=
  ∀ mark s, s <:+ text → Held text mark s →
    (p mark s).Meets (fun _ _ mark' => Slight text mark s mark') (Slight text mark s) True

lemma looks_token {g : List Char → Option (α × List Char)} : Looks text (rule (lexeme g)) :=
  fun mark s _ _ =>
    meets_rule.mpr (meets_lexeme (fun _ _ _ => .inl rfl) fun _ => slight_min text mark s)

lemma Looks.within {Step : Type} (hp : Looks text p) (room : Room Step) :
    Looks text (within room p) :=
  fun mark s hs hheld => meets_within (hp mark s hs hheld) fun _ => trivial

/-- Looking ahead takes nothing, so what follows starts at the same place. -/
lemma Looks.butNot_bind {f : Unit → Reader β} (hp : Looks text p) (hf : ∀ u, Mild text (f u)) :
    Mild text (butNot p >>= f) := by
  intro mark s hs hheld
  refine meets_bind.mpr
    (meets_butNot.mpr ((hp mark s hs hheld).imp (fun _ _ _ hmark => hmark) ?_ fun _ => trivial))
  exact fun mark' hmark => (hf ()).again hs hheld hmark

end

variable {text : List Char}

lemma meets_leaf {α : Type} {p : Reader α} {node : α → Extent → Surface}
    {ok : Surface → List Char → Nat → Prop} {fail : Nat → Prop} {deep : Prop} {mark : Nat}
    {s : List Char} :
    (leaf p node mark s).Meets ok fail deep ↔
      (p mark s).Meets (fun a rest mark => ok (node a ⟨s.length, rest.length⟩) rest mark)
        (fun mark => fail (min mark s.length)) deep :=
  meets_rule.trans
    (meets_bind (p := p) (f := fun a => left >>= fun after => pure (node a ⟨s.length, after⟩)))

/-- A leaf is a rule, and its span does not matter for how it fails. -/
lemma Neat.leaf {α : Type} {p : Reader α} {node : α → Extent → Surface} (h : Neat text p) :
    Ruled text (leaf p node) :=
  Mild.rule (minds_left_bind fun _ => (h.bind fun _ => minds_left_bind fun _ => minds_pure _).mild)

/-- A name is a rule that first looks whether a reserved word stands there. -/
lemma ruled_identifier : Ruled text identifier :=
  (looks_token.butNot_bind fun _ =>
    ((neat_lexeme takesNeutral_nameToken.balances).mild.rule.bind fun _ => minds_pure _).mild).rule

/-- Reading a name leaves the mark where looking for a reserved word has moved it: to the start of
the name. -/
lemma identifier_eq {name : String} (h : IsName name) {rest : List Char}
    (hrest : Halts isNameChar rest) (mark : Nat) :
    identifier mark (name.toList ++ rest) =
      .ok name rest (min mark (name.toList ++ rest).length) := by
  have hfree : wordToken? reservedWords (name.toList ++ rest) = none := by
    rw [wordToken?_append (by decide) h.1.all hrest, if_neg h.2]
  have hname := nameToken?_append h.1 hrest
  change rule (andThen (butNot (rule (lexeme (wordToken? reservedWords)))) fun _ =>
    andThen (rule (lexeme nameToken?)) fun name =>
      pure (String.ofList name)) mark (name.toList ++ rest) = _
  simp only [rule, andThen, butNot, lexeme, hfree, hname]
  rw [String.ofList_toList]
  rfl

/-- What is read as a name is one, and the mark has been moved to its start if that is further on.
-/
lemma exists_of_identifier {name : String} {s rest : List Char} {mark mark' : Nat}
    (h : identifier mark s = .ok name rest mark') :
    IsName name ∧ Halts isNameChar rest ∧ s = name.toList ++ rest ∧ mark' = min mark s.length := by
  obtain ⟨hname, rest', rfl, hhalts⟩ := yieldsAt_identifier s mark name rest mark' h
  rw [identifier_eq hname hhalts] at h
  obtain ⟨-, rfl, rfl⟩ := Reply.ok.inj h
  exact ⟨hname, hhalts, rfl, rfl⟩

lemma ruled_updateOperator : Ruled text updateOperator :=
  ruled_token balances_updateOperator

lemma ruled_unaryOperator : Ruled text unaryOperator :=
  ruled_token balances_unaryOperator

lemma ruled_operator {table : List (String × Option Char × BinaryOperator)}
    (h : ∀ entry ∈ table, ∀ c ∈ entry.1.toList, c ∉ bracketChars) : Ruled text (operator table) :=
  ruled_token (balances_operator h)

lemma ruled_endOfText : Ruled text endOfText :=
  ruled_token balances_endOfText

lemma ruled_closeParen : Ruled text closeParen :=
  ruled_token balances_closeParen

lemma ruled_closeBracket : Ruled text closeBracket :=
  ruled_token balances_closeBracket

lemma neat_word {w : String} (h : ∀ c ∈ w.toList, c ∉ bracketChars) : Neat text (word w) :=
  neat_lexeme (balances_plainWord h)

/-- Looking whether a word has ended moves the mark only where it has. -/
lemma butNot_nameChar_eq (mark : Nat) (s : List Char) :
    butNot nameChar mark s = if endsWord s then .ok () s (min mark s.length) else .fail mark := by
  cases s with
  | nil => rfl
  | cons c s =>
    simp only [butNot, nameChar, rule, lexeme, endsWord]
    by_cases hc : isNameChar c = true
    · simp [hc]
    · simp [hc]

/-! ## Context suffixes -/

lemma ruled_contextWord : Ruled text contextWord :=
  ruled_token balances_contextWord

/-- Behind the mark of a negation no white space is left, and the mark stands as it did. -/
lemma meets_negation (text : List Char) (mark : Nat) (s : List Char) :
    (negation mark s).Meets (fun _ rest mark' => rest <:+ s ∧ mark' = mark ∧ Halts isBlank rest)
      (Slight text mark s) True := by
  refine meets_rule.mpr (meets_bind.mpr (meets_word ?_ (slight_min text mark s)))
  rintro rest rfl
  exact ⟨(List.dropWhile_suffix isBlank).trans (List.suffix_append ..), rfl,
    halts_dropWhile isBlank _⟩

/-- Whether there is a negation or not, what follows is a rule at the start of the text or at a firm
place. -/
lemma mild_negation_bind {β : Type} {f : Option Unit → Reader β}
    (hf : ∀ negated, Ruled text (f negated)) :
    Mild text (optional negation >>= f) := by
  intro mark s hs hheld
  refine meets_bind.mpr
    (meets_optional.mpr ((meets_negation text mark s).imp ?_ ?_ fun _ => trivial))
  · rintro a rest mark' ⟨hrest, rfl, hsolid⟩
    refine ((hf (some a)).behind hs hrest (hheld.of_suffix hrest)).imp_fail ?_
    rintro mark'' ⟨hfirm | rfl, -⟩
    · exact .inr (.inl hfirm)
    · exact .inr (.inl (firm_of_halts (hrest.trans hs) hsolid))
  · exact fun mark' hmark => (hf none).mild.again hs hheld hmark

/-- A context suffix is a rule; of what stands inside only the word for the context can fail at the
start of the inside, and white space in front of that has been skipped. -/
lemma ruled_contextSuffix : Ruled text contextSuffix := by
  have hinside : Neat text (skip >>= fun _ => optional negation >>= fun negated =>
      contextWord >>= fun context => skip >>= fun _ => closeBracket >>= fun _ =>
          (pure (context, negated.isSome) : Reader (Context × Bool))) :=
    neat_skip_bind fun _ => mild_negation_bind fun _ => ruled_contextWord.bind fun _ =>
      sharp_skip_bind fun _ => ruled_closeBracket.bind fun _ => minds_pure _
  exact (neat_lexeme_bind balances_openBracket fun _ => hinside).mild.rule

/-- Looking ahead for a context suffix moves the mark slightly. -/
lemma looks_contextAhead : Looks text contextAhead := by
  -- Only the word for the context is a rule here: the mark moves to its start at most.
  have hword (mark : Nat) (s : List Char) :
      ((contextWord >>= fun _ => skip >>= fun _ => word "]") mark s).Meets
        (fun _ _ mark' => Slight text mark s mark') (Slight text mark s) True := by
    refine meets_bind.mpr
      (meets_rule.mpr (meets_lexeme (fun _ t _ => ?_) fun _ => slight_min text mark s))
    have hclose : (word "]" mark (t.dropWhile isBlank)).Meets
        (fun _ _ mark' => Slight text mark s mark') (Slight text mark s) True :=
      meets_lexeme (fun _ _ _ => .inl rfl) fun _ => .inl rfl
    exact hclose
  intro mark s hs hheld
  refine meets_bind.mpr
    (meets_optional.mpr ((meets_negation text mark s).imp ?_ ?_ fun _ => trivial))
  · rintro a rest mark' ⟨hrest, rfl, hsolid⟩
    have hslight (mark'' : Nat) (h : Slight text mark' rest mark'') :
        Slight text mark' s mark'' := by
      rcases h with heq | hfirm | rfl
      · exact .inl heq
      · exact .inr (.inl hfirm)
      · exact .inr (.inl (firm_of_halts (hrest.trans hs) hsolid))
    exact (hword mark' rest).imp (fun _ _ => hslight) hslight fun _ => trivial
  · intro mark' hmark
    exact (hword mark' s).imp (fun _ _ _ => hmark.trans) (fun _ => hmark.trans) fun _ => trivial

/-! ## Primaries without brackets -/

/-- Behind a colon the word for a type has to follow at once, so a failure to read it is at a firm
place. -/
lemma ruled_anyOfType : Ruled text anyOfType := by
  refine Neat.leaf ?_
  intro mark s hs hheld
  refine meets_bind.mpr (meets_word ?_ (.inl rfl))
  rintro rest rfl
  have hsuffix : rest <:+ ":".toList ++ rest := List.suffix_append ..
  refine meets_bind.mpr (meets_rule.mpr (meets_lexeme (fun type u htype => ?_) fun _ => ?_))
  · obtain ⟨w, rfl, -⟩ := takesNeutral_leadingWord (by decide) rest type u htype
    have hu : u <:+ ":".toList ++ (w ++ u) := (List.suffix_append ..).trans hsuffix
    have hclose : Neat text (word ":" >>= fun _ => (pure type : Reader String)) :=
      (neat_word (by decide)).bind fun _ => minds_pure _
    exact hclose.behind hs hu (hheld.of_suffix hu)
  · -- the mark is at the word behind the colon now, or was further on before
    right
    rcases Nat.le_total mark rest.length with hle | hge
    · rw [Nat.min_eq_left hle]
      exact hheld.firm_of_lt (Nat.lt_of_le_of_lt hle (Nat.lt_succ_self _))
    · rw [Nat.min_eq_right hge]
      obtain ⟨front, rfl⟩ := hs
      exact ⟨front ++ [':'], rest, (List.append_assoc ..).symm, rfl, .inr (.inl ⟨front, rfl⟩)⟩

/-- Each literal is a leaf made of one token. -/
lemma ruled_literal : Ruled text literal := by
  refine (mild_firstOf ?_).rule
  simp only [List.forall_mem_cons, List.not_mem_nil, false_imp_iff, implies_true, and_true]
  have hstring : Balances 0 0 0 (lexeme stringToken?) := balances_lexeme part_stringToken
  exact ⟨(neat_lexeme takesNeutral_doubleToken.balances).leaf,
    (neat_lexeme takesNeutral_integerToken.balances).leaf,
    (neat_lexeme hstring).leaf⟩

lemma ruled_keyword : Ruled text keyword :=
  (neat_lexeme (takesNeutral_wordToken (by decide)).balances).leaf

lemma ruled_wildcard : Ruled text wildcard :=
  (neat_lexeme_bind (balances_plainWord (by decide)) fun _ => neat_butNot).leaf

lemma ruled_reference : Ruled text reference :=
  Mild.rule (minds_left_bind fun _ =>
    (ruled_identifier.bind fun _ => minds_left_bind fun _ => minds_pure _).mild)

/-- White space separates `new` from the name behind it. -/
lemma gap_of_halts {name : String} {t v : List Char} (ht : Halts isNameChar t) (hname : IsWord name)
    (heq : t.dropWhile isBlank = name.toList ++ v) : Gap (t.takeWhile isBlank) := by
  refine ⟨fun hempty => ?_, fun c hc => List.mem_takeWhile_imp hc⟩
  obtain ⟨c, cs, hw, hc, -⟩ := hname
  have hhead : t = c :: (cs ++ v) := by
    rw [← List.takeWhile_append_dropWhile (p := isBlank) (l := t), hempty, heq, hw]
    rfl
  have hend : isNameChar c = false := ht c (by rw [hhead]; rfl)
  rw [isNameChar_of_isNameStart hc] at hend
  cases hend

/-- The place behind `new` and a type name makes an exception. -/
lemma firm_behind_creation {name : String} {t v : List Char} (hs : "new".toList ++ t <:+ text)
    (ht : Halts isNameChar t) (hname : IsName name) (heq : t.dropWhile isBlank = name.toList ++ v) :
    Firm text v.length := by
  obtain ⟨front, rfl⟩ := hs
  have hsplit : t = t.takeWhile isBlank ++ (name.toList ++ v) := by
    rw [← heq, List.takeWhile_append_dropWhile]
  refine ⟨front ++ ("new".toList ++ (t.takeWhile isBlank ++ name.toList)), v, ?_, rfl,
    .inr (.inr ?_)⟩
  · simp only [List.append_assoc]
    rw [← hsplit]
  · exact ⟨front, t.takeWhile isBlank, name, gap_of_halts ht hname.1 heq, hname, rfl⟩

/-! ## Brackets

From here on `expression` reads what stands in brackets, and it is a rule. -/

section

variable {expression : Reader Surface} (hexpr : Ruled text expression)
include hexpr

/-- An argument is a mark or an expression, both of which are rules. -/
lemma ruled_argument : Ruled text (argument expression) :=
  ((neat_word (by decide)).leaf.orElse hexpr.mild).rule

/-- Arguments fail at the first one, as all the others are an option. -/
lemma ruled_argumentList : Ruled text (argumentList expression) := by
  have hfurther : Neat text (furtherArgument expression) :=
    neat_skip_bind fun _ =>
      ((neat_word (by decide)).bind fun _ => sharp_skip_bind fun _ => ruled_argument hexpr).mild
  exact ((ruled_argument hexpr).bind fun _ => Sharp.bind hfurther.mild.many fun _ =>
    minds_pure _).mild.rule

/-- The bracket is looked for together with the white space in front of it. So arguments fail at
their own start, in front of that white space, although behind the bracket they fail at firm
places. -/
lemma ruled_arguments : Ruled text (arguments expression) := by
  have hclose (args : Option (List Surface)) : Sharp text (skip >>= fun _ => closeParen >>= fun _ =>
      (pure (args.getD []) : Reader (List Surface))) :=
    sharp_skip_bind fun _ => ruled_closeParen.bind fun _ => minds_pure _
  have hinside : Sharp text (skip >>= fun _ => optional (argumentList expression) >>= fun args =>
      skip >>= fun _ => closeParen >>= fun _ => (pure (args.getD []) : Reader (List Surface))) :=
    Sharp.bind minds_skip fun _ => Sharp.bind (ruled_argumentList hexpr).mild.optional hclose
  exact (neat_skip_bind fun _ =>
    (Neat.bind (neat_lexeme balances_openParen) fun _ => hinside).mild).mild.rule

lemma ruled_grouped : Ruled text (grouped expression) := by
  have hinside : Sharp text (skip >>= fun _ => expression >>= fun e => skip >>= fun _ =>
      closeParen >>= fun _ => (pure e : Reader Surface)) :=
    sharp_skip_bind fun _ => hexpr.bind fun _ => sharp_skip_bind fun _ =>
      ruled_closeParen.bind fun _ => minds_pure _
  exact (Neat.bind (neat_lexeme balances_openParen) fun _ => hinside).mild.rule

/-- A member is a rule. It fails at the dot or behind it at a firm place. -/
lemma ruled_member : Ruled text (member expression) :=
  ((neat_word (by decide)).bind fun _ => sharp_skip_bind fun _ => ruled_identifier.bind fun _ =>
    Sharp.bind (ruled_arguments hexpr).mild.optional fun _ => minds_left_bind fun _ =>
      minds_pure _).mild.rule

/-- Behind `new` and a type name the arguments have to follow, so a failure to read them is at a
firm place. -/
lemma ruled_creation : Ruled text (creation expression) := by
  refine Neat.leaf ?_
  intro mark s hs hheld
  refine meets_bind.mpr (meets_word ?_ (.inl rfl))
  rintro t rfl
  refine meets_bind.mpr ?_
  -- after `new` the word must have ended, or this is some other name
  rw [butNot_nameChar_eq]
  split
  case isFalse => exact .inl rfl
  case isTrue hword =>
    have ht : t <:+ "new".toList ++ t := List.suffix_append ..
    have hu : t.dropWhile isBlank <:+ t := List.dropWhile_suffix isBlank
    have hheld' : Held text (min mark t.length) (t.dropWhile isBlank) :=
      ((slight_min text mark t).held (hheld.of_suffix ht)).of_suffix hu
    have hname := ruled_identifier.behind hs (hu.trans ht) hheld'
    change ((identifier >>= _) (min mark t.length) (t.dropWhile isBlank)).Meets _ _ _
    refine meets_bind.mpr ?_
    cases hread : identifier (min mark t.length) (t.dropWhile isBlank) with
    | deep => trivial
    | fail mark' =>
      rw [hread] at hname
      rcases hname.1 with hfirm | rfl
      · exact .inr hfirm
      · exact .inr (firm_behind_blanks (ht.trans hs))
    | ok name v mark' =>
      rw [hread] at hname
      obtain ⟨hisName, -, heq, -⟩ := exists_of_identifier hread
      have hargs : Ruled text (arguments expression >>= fun args =>
          (pure (name, args) : Reader (String × List Surface))) :=
        (ruled_arguments hexpr).bind fun _ => minds_pure _
      refine (hargs.behind hs hname.1 hname.2).imp_fail ?_
      rintro mark'' ⟨hfirm | rfl, -⟩
      · exact .inr hfirm
      · -- the arguments fail in front of the white space, which is one of the two exceptions
        exact .inr (firm_behind_creation hs (endsWord_iff.mp hword) hisName heq)

/-- Where a name is there but no arguments behind it, the name is read on its own, up to the place
where they failed. -/
lemma mild_names : Mild text (firstOf [call expression, reference]) := by
  have hreference : Mild text (firstOf [reference]) :=
    mild_firstOf (List.forall_mem_singleton.mpr ruled_reference)
  intro mark s hs hheld
  refine meets_orElse.mpr (meets_leaf.mpr (meets_bind.mpr ?_))
  have hname := ruled_identifier mark s hs hheld
  cases hread : identifier mark s with
  | deep => trivial
  | fail mark' =>
    rw [hread] at hname
    obtain ⟨hfail, hle⟩ := hname
    change (firstOf [reference] (min mark' s.length) s).Meets _ _ _
    rw [Nat.min_eq_left hle]
    exact hreference.again hs hheld (.inr hfail)
  | ok name rest mark' =>
    rw [hread] at hname
    obtain ⟨hrest, hheld'⟩ := hname
    obtain ⟨hisName, hhalts, rfl, -⟩ := exists_of_identifier hread
    have hargs : Ruled text (arguments expression >>= fun args =>
        (pure (name, args) : Reader (String × List Surface))) :=
      (ruled_arguments hexpr).bind fun _ => minds_pure _
    refine (hargs.behind hs hrest hheld').imp_fail ?_
    rintro mark'' ⟨hfail, hle⟩
    have hle' : mark'' ≤ (name.toList ++ rest).length := Nat.le_trans hle hrest.length_le
    rw [Nat.min_eq_left hle']
    -- the name is read once more, without arguments, and the mark stays where these failed
    refine meets_orElse.mpr (meets_leaf.mpr ?_)
    rw [identifier_eq hisName hhalts, Nat.min_eq_left hle']
    exact ⟨hrest, hfail.imp id fun h => Nat.le_of_eq h.symm⟩

end

section

variable {nested : Nested} (hnested : ∀ opening, Ruled text (nested.expression opening))
include hnested

lemma ruled_index : Ruled text (index nested) := by
  have hinside : Neat text (skip >>= fun _ => butNot (within nested.ahead contextAhead) >>= fun _ =>
      nested.expression .index >>= fun e => skip >>= fun _ => closeBracket >>= fun _ =>
        left >>= fun after => (pure (.index e after) : Reader Selector)) :=
    neat_skip_bind fun _ => (looks_contextAhead.within _).butNot_bind fun _ =>
      ((hnested .index).bind fun _ => sharp_skip_bind fun _ => ruled_closeBracket.bind fun _ =>
        minds_left_bind fun _ => minds_pure _).mild
  exact (neat_lexeme_bind balances_openBracket fun _ => hinside).mild.rule

/-- Every alternative of a primary is a rule but the last two, which both start with a name and are
taken together. -/
lemma ruled_primary : Ruled text (primary nested) := by
  have hwords :
      Mild text (firstOf [literal, keyword, wildcard, call (nested.expression .call), reference]) :=
    ruled_literal.orElse (ruled_keyword.orElse (ruled_wildcard.orElse (mild_names (hnested .call))))
  exact Mild.rule ((ruled_grouped (hnested .group)).orElse
    ((ruled_creation (hnested .creation)).orElse (ruled_anyOfType.orElse hwords)))

lemma ruled_selector : Ruled text (selector nested) :=
  (neat_skip_bind fun _ =>
    (ruled_member (hnested .member)).orElse (ruled_index hnested).mild).mild.rule

lemma ruled_selected : Ruled text (selected nested) := by
  have hstep : Ruled text stepBehind :=
    (neat_skip_bind fun _ => ruled_updateOperator.mild).mild.rule
  refine Mild.rule (minds_left_bind fun _ => ((ruled_primary hnested).bind fun _ =>
    Sharp.bind (ruled_selector hnested).mild.many fun _ =>
      Sharp.bind hstep.mild.optional fun step => ?_).mild)
  cases step with
  | none => exact minds_pure _
  | some up => exact minds_left_bind fun _ => minds_pure _

/-- Where neither a step nor a sign is found, what follows starts at the same place. Behind one of
them white space is skipped. -/
lemma ruled_prefixed {operand : Reader Surface} (hoperand : Ruled text operand) :
    Ruled text (prefixed operand nested) := by
  refine Mild.rule (minds_left_bind fun before =>
    ruled_updateOperator.optional_bind ?_ fun up => ?_)
  · refine ruled_unaryOperator.optional_bind (ruled_selected hnested).mild fun op => ?_
    exact sharp_skip_bind fun _ => hoperand.bind fun _ => minds_left_bind fun _ => minds_pure _
  · exact sharp_skip_bind fun _ => hoperand.bind fun _ => minds_left_bind fun _ => minds_pure _

end

/-! ## Operators -/

lemma ruled_operatorTail {op : Reader BinaryOperator} {operand : Reader Surface}
    (hop : Ruled text op) (ho : Ruled text operand) : Ruled text (operatorTail op operand) :=
  (sharp_skip_bind fun _ => hop.bind fun _ => sharp_skip_bind fun _ => ho.bind fun _ =>
    minds_left_bind fun _ => minds_pure _).ruled.mild.rule

/-- A type test is looked for together with the white space in front of it, so it fails at its own
start. -/
lemma ruled_typeTestTail : Ruled text typeTestTail :=
  (neat_skip_bind fun _ =>
    (neat_lexeme_bind (balances_plainWord (by decide)) fun _ =>
      neat_butNot.bind fun _ => sharp_skip_bind fun _ => ruled_identifier.bind fun _ =>
      minds_left_bind fun _ => minds_pure _).mild).mild.rule

lemma ruled_chain {operand : Reader Surface} {tail : Reader Tail} (ho : Ruled text operand)
    (ht : Mild text tail) :
    Ruled text (chain operand tail) :=
  (ho.bind fun _ => Sharp.bind ht.many fun _ => minds_pure _).mild.rule

lemma ruled_operators {operand : Reader Surface}
    {table : List (String × Option Char × BinaryOperator)}
    (htable : ∀ entry ∈ table, ∀ c ∈ entry.1.toList, c ∉ bracketChars) (ho : Ruled text operand) :
    Ruled text (chain operand (operatorTail (operator table) operand)) :=
  ruled_chain ho (ruled_operatorTail (ruled_operator htable) ho).mild

lemma ruled_expressionOver {operand : Reader Surface} (ho : Ruled text operand) :
    Ruled text (expressionOver operand) := by
  have hshift : Ruled text (shift operand) :=
    ruled_operators (by decide) (ruled_operators (by decide) (ruled_operators (by decide) ho))
  have hrelational : Ruled text (relational operand) :=
    ruled_chain hshift (ruled_typeTestTail.orElse
      (ruled_operatorTail (ruled_operator (by decide)) hshift).mild).rule.mild
  exact ruled_operators (by decide) hrelational

/-- The induction is on the room. -/
lemma ruled_operandWithin (room : Room Opening) : Ruled text (operandWithin room) := by
  induction room with
  | none => exact fun _ _ _ _ => trivial
  | more inside ih =>
    rw [operandWithin_more]
    exact ruled_prefixed (fun o => ruled_expressionOver (ih o)) (ih .sign)

/-- A text that is no pattern is reported at a firm place. White space is skipped in front of the
pattern and behind it, and nothing in between fails in front of white space last. -/
lemma sharp_whole (room : Room Opening) : Sharp text (whole room) := by
  have hexpr : Ruled text (expression room) := ruled_expressionOver (ruled_operandWithin room)
  exact Sharp.rule (sharp_skip_bind fun _ => hexpr.bind fun _ => Sharp.bind minds_skip fun _ =>
    Sharp.bind ruled_contextSuffix.mild.optional fun _ => sharp_skip_bind fun _ =>
      ruled_endOfText.bind fun _ => minds_pure _)

/-- The place where a text that is no pattern is reported. -/
lemma firm_of_whole {room : Room Opening} {mark : Nat}
    (h : whole room text.length text = .fail mark) : Firm text mark := by
  have hwhole := sharp_whole room text.length text (List.suffix_refl text) (.inr (Nat.le_refl _))
  rw [h] at hwhole
  exact hwhole.1

end ShapeLint.Grammar

namespace ShapeLint.Pattern

open Grammar
  (Opening EndsInColon EndsInCreation Halts eq_fail_of_meets stackRoom whole firm_of_whole)
open Text (isBlank isSpace)

/-! ## What the message names -/

/-- There is no token at a place if the text has ended there or a space stands there. -/
lemma tokenAt_eq_nil_iff {s : List Char} : tokenAt s = [] ↔ ∀ c ∈ s.head?, isSpace c = true := by
  cases s with
  | nil => simp [tokenAt]
  | cons c s => simp [tokenAt, tokenWidth]

lemma starts_tokenAt (s : List Char) : tokenAt s <+: s := by
  have htoken : tokenAt s <+: s.take tokenWidth := List.takeWhile_prefix _
  have hstart : s.take tokenWidth <+: s := List.take_prefix ..
  exact htoken.trans hstart

/-- A token has no spaces in it. -/
lemma isSpace_of_mem_tokenAt {s : List Char} {c : Char} (h : c ∈ tokenAt s) :
    isSpace c = false := by
  simpa using List.mem_takeWhile_imp h

lemma message_of_unexpected {e : CompileError} (h : e.cause = .unexpected) :
    e.message = if e.token.isEmpty then "unexpected end of pattern"
      else "unexpected " ++ Text.quoted (String.ofList e.token) ++ " in pattern" := by
  rw [CompileError.message, h]

/-- The text goes on, but a space stands in front of it: an information separator, which separates
no tokens of a pattern, or white space behind a colon or behind a creation without arguments. The
message says that the pattern has ended there, and it has not. -/
def Masked (before rest : List Char) : Prop :=
  (∃ c ∈ rest, isSpace c = false) ∧
    ∃ c ∈ rest.head?, isSpace c = true ∧
      (isBlank c = true → EndsInColon before ∨ EndsInCreation before)

/-- Where a space stands at a firm place and the text goes on, it is masked. -/
lemma masked_of_head {before rest : List Char}
    (hfirm : Halts isBlank rest ∨ EndsInColon before ∨ EndsInCreation before)
    (hhead : ∀ c ∈ rest.head?, isSpace c = true) (hgoes : ∃ c ∈ rest, isSpace c = false) :
    Masked before rest := by
  refine ⟨hgoes, ?_⟩
  obtain ⟨d, hd, -⟩ := hgoes
  cases rest with
  | nil => cases hd
  | cons c rest =>
    refine ⟨c, rfl, hhead c rfl, fun hblank => ?_⟩
    rcases hfirm with hhalts | hbefore
    · rw [hhalts c rfl] at hblank
      cases hblank
    · exact hbefore

/-- What a failure says of the place between two parts of a text: that nothing was expected there,
where it is, and what stands behind it. -/
structure Reports (e : CompileError) (before rest : List Char) : Prop where
  cause_eq : e.cause = .unexpected
  start_eq : e.start = before.length
  stop_eq : e.stop = before.length
  /-- The pattern ends for it if there is only white space left, or if the text is masked. -/
  token_eq_nil_iff : e.token = [] ↔ (∀ c ∈ rest, isSpace c = true) ∨ Masked before rest
  message_of_nil : e.token = [] → e.message = "unexpected end of pattern"
  /-- Otherwise it names the start of what is left. -/
  message_of_token : e.token ≠ [] → e.token <+: rest ∧ (∀ c ∈ e.token, isSpace c = false) ∧
    e.message = "unexpected " ++ Text.quoted (String.ofList e.token) ++ " in pattern"

/-- The failure of a text that is no pattern reports the place that has been marked. -/
lemma reports_unexpectedAt {room : Room Opening} {text : List Char} {mark : Nat}
    (h : whole room text.length text = .fail mark) :
    ∃ before rest, text = before ++ rest ∧ Reports (unexpectedAt text mark) before rest := by
  obtain ⟨before, rest, htext, rfl, hfirm⟩ := firm_of_whole h
  have hlength : text.length - rest.length = before.length := by simp [htext]
  have htoken : (unexpectedAt text rest.length).token = tokenAt rest := by
    simp only [unexpectedAt, hlength]
    rw [htext, List.drop_left]
  have hmessage := message_of_unexpected (e := unexpectedAt text rest.length) rfl
  rw [htoken] at hmessage
  refine ⟨before, rest, htext, rfl, hlength, hlength, ?_, fun hnil => ?_, fun hne => ?_⟩
  · -- a firm place without a token has only white space behind it, or is masked
    rw [htoken, tokenAt_eq_nil_iff]
    constructor
    · intro hhead
      by_cases hgoes : ∃ c ∈ rest, isSpace c = false
      · exact .inr (masked_of_head hfirm hhead hgoes)
      · exact .inl fun c hc => Bool.of_not_eq_false fun hspace => hgoes ⟨c, hc, hspace⟩
    · rintro (hall | ⟨-, c, hc, hspace, -⟩) d hd
      · exact hall d (List.mem_of_mem_head? hd)
      · rwa [← Option.mem_unique hc hd]
  · rw [htoken] at hnil
    rw [hmessage, if_pos (List.isEmpty_iff.mpr hnil)]
  · rw [htoken] at hne ⊢
    refine ⟨starts_tokenAt rest, fun c hc => isSpace_of_mem_tokenAt hc, ?_⟩
    rw [hmessage, if_neg (fun hempty => hne (List.isEmpty_iff.mp hempty))]

/-- **What the error of a text that is no pattern names.** The message says that the pattern has
ended if only white space is left at the place where the text is reported, or if the text is masked
there, and otherwise it names what is left. -/
theorem compile_of_whole_fail {room : Room Opening} {t : String} {mark : Nat}
    (h : whole room t.toList.length t.toList = .fail mark) :
    ∃ e before rest, compileIn room t = .error (e.fault t.toList) ∧ t.toList = before ++ rest ∧
      Reports e before rest := by
  obtain ⟨before, rest, htext, hreports⟩ := reports_unexpectedAt h
  refine ⟨unexpectedAt t.toList mark, before, rest, ?_, htext, hreports⟩
  rw [compileIn, compileChars, h]
  rfl

/-- The bracket that is not opened is named, although white space stands in front of it. -/
theorem compile_of_whole_fail_bracket :
    whole stackRoom "a.b ) c".toList.length "a.b ) c".toList = .fail 3 ∧
    ∃ e before rest, compile "a.b ) c" = .error (e.fault "a.b ) c".toList) ∧
      "a.b ) c".toList = before ++ rest ∧ Reports e before rest := by
  have h : whole stackRoom "a.b ) c".toList.length "a.b ) c".toList = .fail 3 :=
    eq_fail_of_meets (by decide +kernel)
  exact ⟨h, compile_of_whole_fail h⟩

/-- Behind the type name of a creation the message says that the pattern has ended, although it goes
on. So that the text has really ended cannot be read off the message. -/
theorem not_token_eq_nil_iff : ¬ ∀ (t : String) (mark : Nat) (e : CompileError),
    whole stackRoom t.toList.length t.toList = .fail mark →
      compileChars stackRoom t.toList = .error e →
      (e.token = [] ↔ ∀ c ∈ t.toList.drop e.start, isSpace c = true) := by
  intro h
  have hfail : whole stackRoom "new Foo x".toList.length "new Foo x".toList = .fail 2 :=
    eq_fail_of_meets (by decide +kernel)
  have herror :
      compileChars stackRoom "new Foo x".toList = .error (unexpectedAt "new Foo x".toList 2) := by
    rw [compileChars, hfail]
    rfl
  have hspace : isSpace 'x' = true :=
    (h _ 2 _ hfail herror).mp (by decide +kernel) 'x' (by decide +kernel)
  cases hspace

end ShapeLint.Pattern
