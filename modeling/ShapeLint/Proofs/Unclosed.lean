import ShapeLint.Proofs.Balance
import ShapeLint.Proofs.Suffix

/-!
# Unclosed brackets

A text that only lacks closing brackets is reported at its end. It is read side by side with the
text that has the brackets: as long as both readings go on alike, the longer one is not at its end
when the shorter one is, so it could never come to an end with all brackets in place. Hence the
shorter reading is lost, and that is to say, a rule has failed at the end of the text, or the text
is nested too deeply (`compile_unclosed`).

The two readings can part at the bracket of an index. What stands behind it may be a context suffix
that lacks its closing bracket: the longer reading knows that from looking ahead, and the shorter
one goes on to read an index. But then it comes to the end of the text looking for a selector behind
the word for the context. An index takes more room than a context suffix, so on a stack of any size
there is a text that is nested too deeply for want of its bracket (`not_compile_unclosed`).
-/

namespace ShapeLint

open Grammar Grammar.Reader
open Text (isBlank isNameChar)

namespace Grammar

/-! ## Context phrases at the end of a text -/

/-- The phrase of a context suffix and white space, and nothing behind it: what a text ends in whose
context suffix lacks its bracket. -/
def OpenPhrase (u : List Char) : Prop :=
  ∃ context negated v b, LoosePhrase context negated v ∧ (∀ c ∈ b, isBlank c = true) ∧ u = v ++ b

/-- The phrase of a context suffix and the white space behind it, without the bracket that looking
ahead asks for. The two readings go on alike up to there. -/
def phraseAhead : Reader Unit := do
  let _ ← optional negation
  let _ ← contextWord
  skip

lemma contextAhead_eq : contextAhead = phraseAhead >>= fun _ => word "]" := by
  rw [phraseAhead, bind_assoc]
  refine congrArg (optional negation >>= ·) (funext fun _ => ?_)
  rw [bind_assoc]

lemma exists_of_contextWord {mark mark' : Nat} {s rest : List Char} {context : Context}
    (h : contextWord mark s = .ok context rest mark') :
    ∃ w, ContextWord context w ∧ s = w.toList ++ rest := by
  have hlexeme := rule_eq_ok.mp h
  unfold lexeme at hlexeme
  split at hlexeme
  case h_1 context' rest' hfound =>
    obtain ⟨rfl, rfl, -⟩ := Reply.ok.inj hlexeme
    obtain ⟨⟨w, t⟩, htoken, heq⟩ := Option.map_eq_some_iff.mp hfound
    obtain ⟨rfl, rfl⟩ := Prod.mk.inj heq
    obtain ⟨hmem, hs⟩ := eq_append_of_wordToken? htoken
    refine ⟨w, ?_, hs⟩
    simp only [List.mem_cons, List.not_mem_nil, or_false] at hmem
    rcases hmem with rfl | rfl
    · exact .conditional
    · exact .discarded
  case h_2 => cases hlexeme

lemma exists_of_word {w : String} {mark mark' : Nat} {s rest : List Char} {u : Unit}
    (h : word w mark s = .ok u rest mark') : s = w.toList ++ rest := by
  have hword : (word w mark s).Meets (fun _ rest _ => s = w.toList ++ rest) (fun _ => True) True :=
    meets_word (fun _ hs => hs) trivial
  rwa [h] at hword

/-- What is read as a phrase to the end of the text is one. -/
lemma openPhrase_of_phraseAhead {mark mark' : Nat} {u : List Char} {x : Unit}
    (h : phraseAhead mark u = .ok x [] mark') :
    OpenPhrase u := by
  obtain ⟨negated, t, m, hnegation, h⟩ := exists_of_bind_ok h
  obtain ⟨context, b, m', hword, hskip⟩ := exists_of_bind_ok h
  obtain ⟨-, hb, -⟩ := Reply.ok.inj hskip
  obtain ⟨w, hw, rfl⟩ := exists_of_contextWord hword
  have hblank : ∀ c ∈ b, isBlank c = true := List.dropWhile_eq_nil_iff.mp hb
  -- The phrase is the word, or the mark of negation and the blanks up to the word.
  cases negated with
  | none =>
    obtain rfl := eq_of_optional_none hnegation
    exact ⟨context, false, w.toList, b, .plain hw, hblank, rfl⟩
  | some _ =>
    obtain ⟨_, t, _, hmark, hskip⟩ :=
      exists_of_bind_ok (rule_eq_ok.mp (eq_of_optional_some hnegation))
    obtain ⟨-, ht, -⟩ := Reply.ok.inj hskip
    refine ⟨context, true, '!' :: (t.takeWhile isBlank ++ w.toList), b, ?_, hblank, ?_⟩
    · exact .negated hw fun c hc => List.mem_takeWhile_imp hc
    · rw [exists_of_word hmark, List.cons_append, List.append_assoc, ← ht,
        List.takeWhile_append_dropWhile]
      rfl

lemma fails_arguments_blank {b : List Char} (hb : ∀ c ∈ b, isBlank c = true)
    (expression : Reader Surface) :
    Fails (arguments expression) b := by
  have hskip := reads_skip (s := []) hb (by simp [Halts])
  rw [List.append_nil] at hskip
  exact (hskip.bind_fails (fails_word_nil (by rfl)).bind).rule

/-- No selector is found in white space at the end, and that is found out at the very end: both the
member and the index fail there, so the mark is moved to the end of the text. -/
lemma many_selector_blank {b : List Char} (hb : ∀ c ∈ b, isBlank c = true) (nested : Nested)
    (mark : Nat) :
    many (selector nested) mark b = .ok [] b 0 := by
  have hmember (m : Nat) : member (nested.expression .member) m [] = .fail 0 :=
    rule_nil_of_fails (fails_word_nil (by rfl)).bind
  have hindex (m : Nat) : index nested m [] = .fail 0 :=
    rule_nil_of_fails (fails_word_nil (by rfl)).bind
  have hbody : (skip >>= fun _ => orElse (member (nested.expression .member)) (index nested)) mark
      b = .fail 0 := by
    change orElse (member (nested.expression .member)) (index nested) mark
      (b.dropWhile isBlank) = .fail 0
    rw [List.dropWhile_eq_nil_iff.mpr hb]
    simp only [orElse, hmember, hindex]
  have hselector : selector nested mark b = .fail 0 := by
    rw [selector, rule, hbody]
    simp only [Nat.zero_min]
  rw [Reader.many, hselector]

namespace Sequel

variable {σ : Sequel}

lemma stays_bind {α β : Type} {p : Reader α} {f : α → Reader β} (hp : σ.Stays p)
    (hf : ∀ a, σ.Stays (f a)) :
    σ.Stays (p >>= f) :=
  fun hclosing s => lost_bind (hp hclosing s) hf

/-- What is known of every place that the shorter reading comes to is known where the two stand at
the same place. -/
lemma Walks.at_of_ok {α β : Type} {φ : α → β} {p : Reader α} {q : Reader β} {u : List Char}
    {R : List Char → Prop} (h : σ.Walks φ p q)
    (hR : ∀ mark a rest mark', p mark u = .ok a rest mark' → R rest) :
    σ.Tracks (σ.At u) (fun t t' => σ.Here t t' ∧ R t) φ p q := by
  refine ⟨?_, h.stays⟩
  rintro mark mark' s s' ⟨rfl, hs'⟩
  have hagree := h.agree mark mark' s s' hs'
  generalize hr : p mark s = r, hr' : q mark' s' = r' at hagree
  cases hagree with
  | lost h => exact .lost h
  | sunk => exact .sunk
  | ok hhere => exact .ok ⟨hhere, hR _ _ _ _ hr⟩
  | fail => exact .fail

lemma lost_of_becomes {α : Type} {p q : Reader α} {s rest : List Char} (h : Becomes p s q rest)
    (hq : ∀ mark, σ.Lost (q mark rest)) (mark : Nat) : σ.Lost (p mark s) := by
  obtain ⟨mark', heq⟩ := h mark
  rw [heq]
  exact hq mark'

/-- Unless the shorter reading is lost, the longer one reads nothing. A whole pattern is of this
kind if the sequel closes brackets, since the longer reading is not at its end where the shorter one
is. -/
structure Outlasts {α β : Type} (σ : Sequel) (P : List Char → List Char → Prop) (p : Reader α)
    (q : Reader β) : Prop where
  ne_ok : ∀ mark mark' s s', P s s' → σ.Lost (p mark s) ∨ ∀ b rest m, q mark' s' ≠ .ok b rest m
  stays : σ.Stays p

/-- What outlasts may stand behind anything that is read alike. -/
lemma Tracks.outlasts_bind {α β γ δ : Type} {P Q : List Char → List Char → Prop} {φ : α → β}
    {p : Reader α} {q : Reader β} {f : α → Reader γ} {g : β → Reader δ} (hp : σ.Tracks P Q φ p q)
    (hf : ∀ a, σ.Outlasts Q (f a) (g (φ a))) :
    σ.Outlasts P (p >>= f) (q >>= g) := by
  have hlost {mark s} (h : σ.Lost (p mark s)) : σ.Lost ((p >>= f) mark s) :=
    lost_bind h fun a => (hf a).stays
  refine ⟨fun mark mark' s s' hP => ?_, fun hclosing s => hlost (hp.stays hclosing s)⟩
  have h := hp.agree mark mark' s s' hP
  change σ.Lost (andThen p f mark s) ∨ ∀ b rest m, andThen q g mark' s' ≠ .ok b rest m
  generalize hr : p mark s = r, hr' : q mark' s' = r' at h
  -- Only if both have read on does it matter what the second readers do.
  cases h with
  | lost h => exact .inl (hlost (hr ▸ h))
  | sunk =>
    refine .inr fun _ _ _ hok => ?_
    simp only [andThen, hr'] at hok
    cases hok
  | ok hQ =>
    simp only [andThen, hr, hr']
    exact (hf _).ne_ok _ _ _ _ hQ
  | fail =>
    refine .inr fun _ _ _ hok => ?_
    simp only [andThen, hr'] at hok
    cases hok

lemma Outlasts.rule {α β : Type} {P : List Char → List Char → Prop} {p : Reader α} {q : Reader β}
    (h : σ.Outlasts P p q) : σ.Outlasts P (rule p) (rule q) := by
  refine ⟨fun mark mark' s s' hP => ?_, fun hclosing s => lost_rule (h.stays hclosing s)⟩
  refine (h.ne_ok mark mark' s s' hP).imp lost_rule fun hnot b rest m hok => ?_
  exact hnot b rest m (rule_eq_ok.mp hok)

section

variable (hclosing : σ.closing)
include hclosing

/-- Behind the word for a context that the text ends with, a selector is looked for at the end. So
the reading is lost although the word itself is read as a name. -/
lemma lost_selected {context : Context} {w : String} (hw : ContextWord context w) {b : List Char}
    (hb : ∀ c ∈ b, isBlank c = true) (nested : Nested) (mark : Nat) :
    σ.Lost (selected nested mark (w.toList ++ b)) := by
  have hname : IsName w ∧ w ≠ "_" := by cases hw <;> decide
  obtain ⟨x, hprimary⟩ : ∃ x, Reads (primary nested) (w.toList ++ b) (.reference w x) b :=
    reads_reference hname.1 hname.2 (apart_of_all hb) (fails_arguments_blank hb _)
  refine lost_rule
    (lost_of_becomes (reads_left _).becomes (lost_of_becomes hprimary.becomes fun mark => ?_) mark)
  refine lost_bind ?_ fun selectors => stays_bind ?_ fun step => ?_
  · rw [many_selector_blank hb nested mark]
    exact ⟨hclosing, rfl⟩
  · exact fun hclosing s => lost_optional (follows_stepBehind.here.stays hclosing s)
  · cases step with
    | none => exact stays_pure _
    | some up => exact stays_bind stays_left fun _ => stays_pure _

lemma lost_contextWord {context : Context} {w : String} (hw : ContextWord context w) {b : List Char}
    (hb : ∀ c ∈ b, isBlank c = true) (room : Room Opening) (mark : Nat) :
    σ.Lost (operandWithin room mark (w.toList ++ b)) := by
  cases room with
  | none => trivial
  | more inside =>
    have hupdate : Fails updateOperator (w.toList ++ b) := by
      cases hw <;> exact fails_updateOperator_of_head (by decide) (by decide) _
    have hunary : Fails unaryOperator (w.toList ++ b) := by
      cases hw <;> exact fails_unaryOperator_of_head (by decide) (by decide) (by decide) _
    rw [operandWithin_more]
    exact lost_rule (lost_of_becomes (reads_left _).becomes
      (lost_of_becomes hupdate.optional.becomes (lost_of_becomes hunary.optional.becomes
        (lost_selected hclosing hw hb _))) mark)

/-- A context phrase that the text ends with is lost as an operand: the mark of negation is read as
a sign, and the word behind it as a name. -/
lemma lost_operandWithin {u : List Char} (hu : OpenPhrase u) (room : Room Opening) (mark : Nat) :
    σ.Lost (operandWithin room mark u) := by
  obtain ⟨context, negated, v, b, hv, hb, rfl⟩ := hu
  cases hv with
  | plain hw => exact lost_contextWord hclosing hw hb room mark
  | @negated w g hw hg =>
    -- Without a mark of negation the phrase is a name; with one, a name behind a sign, for which
    -- there may be no room.
    cases room with
    | none => trivial
    | more inside =>
      have hupdate : Fails updateOperator ('!' :: (g ++ w.toList) ++ b) :=
        fails_updateOperator_of_head (by decide) (by decide) _
      have hunary : Reads unaryOperator ('!' :: (g ++ w.toList) ++ b) .not (g ++ w.toList ++ b) :=
        reads_unaryOperator .not _
      have hskip : Reads skip (g ++ w.toList ++ b) () (w.toList ++ b) := by
        rw [List.append_assoc]
        refine reads_skip hg ?_
        cases hw <;> exact halts_cons (by decide) _
      rw [operandWithin_more]
      refine lost_rule (lost_of_becomes (reads_left _).becomes
        (lost_of_becomes hupdate.optional.becomes (lost_of_becomes hunary.optional.becomes
          (lost_of_becomes hskip.becomes fun mark => ?_))) mark)
      exact lost_bind (lost_contextWord hclosing hw hb (inside .sign) mark) fun _ =>
        stays_bind stays_left fun _ => stays_pure _

end

/-! ## Chains of operators -/

lemma lost_chain {operand : Reader Surface} {tail : Reader Tail} {mark : Nat} {s : List Char}
    (h : σ.Lost (operand mark s)) (htail : σ.Stays tail) : σ.Lost (chain operand tail mark s) :=
  lost_rule (lost_bind h fun _ => stays_bind (stays_many htail) fun _ => stays_pure _)

lemma lost_expressionOver {operand : Reader Surface}
    (hoperand : σ.Follows σ.onward operand operand) {mark : Nat} {s : List Char}
    (h : σ.Lost (operand mark s)) : σ.Lost (expressionOver operand mark s) := by
  refine Precedence.reader_induction (motive := fun p => σ.Lost (p mark s)) h ?_ .equality
  intro l hl htighter
  rw [l.reader_eq_chain hl]
  exact lost_chain htighter (follows_tail l (follows_reader hoperand l.tighter)).here.stays

end Sequel

/-! ## Closing brackets -/

/-- A text of closing brackets, of either kind and in any order. -/
def Closing (c : List Char) : Prop :=
  ∀ x ∈ c, x = ')' ∨ x = ']'

/-! A pattern has as many closing brackets as opening ones. -/

lemma eq_nil_of_whole {room : Room Opening} {mark mark' : Nat} {t rest : List Char}
    {a : Surface × Option (Context × Bool)} (h : whole room mark t = .ok a rest mark') :
    rest = [] := by
  obtain ⟨_, _, _, -, h⟩ := exists_of_bind_ok (rule_eq_ok.mp h)
  obtain ⟨_, _, _, -, h⟩ := exists_of_bind_ok h
  obtain ⟨_, _, _, -, h⟩ := exists_of_bind_ok h
  obtain ⟨_, _, _, -, h⟩ := exists_of_bind_ok h
  obtain ⟨_, _, _, -, h⟩ := exists_of_bind_ok h
  obtain ⟨_, u, _, hend, h⟩ := exists_of_bind_ok h
  obtain ⟨-, rfl, -⟩ := Reply.ok.inj h
  exact (eq_nil_of_endOfText hend).2

/-- A text that is a pattern opens as many brackets as it closes, and no string literal is left open
in it. -/
lemma part_of_whole {room : Room Opening} {mark mark' : Nat} {t rest : List Char}
    {a : Surface × Option (Context × Bool)} (h : whole room mark t = .ok a rest mark') :
    Part 0 0 t := by
  have hbalance := balances_whole room.holds_zero mark t
  rw [h] at hbalance
  obtain ⟨w, ht, hw⟩ := hbalance
  rwa [ht, eq_nil_of_whole h, List.append_nil]

namespace Closing

variable {c : List Char}

lemma halts (h : Closing c) : Halts isBlank c := by
  intro x hx
  rcases h x (List.mem_of_mem_head? hx) with rfl | rfl <;> decide

lemma isBreak (h : Closing c) : Break c := by
  refine ⟨fun x hx => .inr ?_, fun hmem => ?_⟩
  · rcases h x (List.mem_of_mem_head? hx) with rfl | rfl <;> decide
  · exact absurd (h _ hmem) (by decide)

/-- Closing brackets as something that a text goes on with. They close brackets of the text, so the
shorter reading can be lost at its end. -/
def sequel (h : Closing c) : Sequel where
  text := c
  closing := True
  isBreak := h.isBreak
  isBreak_inner := by
    rw [dropWhile_of_halts h.halts]
    exact h.isBreak
  closes := fun hnot => absurd trivial hnot

lemma inner_eq (h : Closing c) : h.sequel.inner = c :=
  dropWhile_of_halts h.halts

/-- There is no white space to be beyond, as no bracket is blank. -/
lemma here_of_near (h : Closing c) {s s' : List Char} (hnear : h.sequel.Near s s') :
    h.sequel.Here s s' := by
  rcases hnear with hhere | ⟨rfl, rfl⟩
  · exact hhere
  · exact h.inner_eq

lemma head_ne (h : Closing c) {x : Char} (hx : x ≠ ')' ∧ x ≠ ']') :
    h.sequel.inner.head? ≠ some x := by
  rw [h.inner_eq]
  intro hhead
  rcases h x (List.mem_of_mem_head? hhead) with hparen | hbracket
  · exact hx.1 hparen
  · exact hx.2 hbracket

lemma walks_skip (h : Closing c) : h.sequel.Walks id skip skip :=
  ⟨fun mark mark' s s' hhere =>
      (Sequel.tracks_skip.agree mark mark' s s' hhere).mono fun _ _ => h.here_of_near,
    Sequel.stays_skip⟩

/-- Where no context phrase ends the text, looking ahead for a context suffix finds the same in both
readings. -/
lemma tracks_contextAhead (h : Closing c) {u : List Char} (hu : ¬ OpenPhrase u) :
    h.sequel.Tracks (h.sequel.At u) h.sequel.Here id contextAhead contextAhead := by
  have hphrase : h.sequel.Follows id phraseAhead phraseAhead :=
    Sequel.Follows.negation_bind fun _ => Sequel.follows_contextWord.bind fun _ => h.walks_skip
  -- behind the phrase the text has not ended, so the bracket is looked for inside of it
  have hbefore : h.sequel.Tracks (h.sequel.At u)
      (fun t t' => h.sequel.Here t t' ∧ t ≠ []) id phraseAhead phraseAhead := by
    refine hphrase.here.at_of_ok ?_
    rintro mark x _ mark' hread rfl
    exact hu (openPhrase_of_phraseAhead hread)
  rw [contextAhead_eq]
  refine hbefore.bind fun _ => ⟨?_, Sequel.stays_lexeme⟩
  rintro mark mark' t t' ⟨hhere, hne⟩
  obtain ⟨d, t, rfl⟩ := List.exists_cons_of_ne_nil hne
  exact (Sequel.tracks_bracket rfl d t).agree mark mark' _ _ ⟨rfl, hhere⟩

lemma not_openPhrase_nil : ¬ OpenPhrase [] := by
  rintro ⟨context, negated, v, b, hv, -, hnil⟩
  obtain ⟨d, t, rfl, -⟩ := hv.solid
  cases hnil

lemma fails_contextAhead {u : List Char} (hu : OpenPhrase u) : Fails contextAhead u := by
  obtain ⟨context, negated, v, b, hv, hb, rfl⟩ := hu
  have hskip := reads_skip (s := []) hb (by simp [Halts])
  rw [List.append_nil] at hskip
  refine (hv.becomes (inky_isNameChar.halts (apart_of_all hb)) _).fails ?_
  exact hskip.bind_fails (fails_word_nil (by rfl))

/-- Behind the bracket of an index a context phrase that ends the text is lost, and everything else
is read alike. -/
lemma tracks_guarded (h : Closing c) {α : Type} {χ : α → α} {f g : Unit → Reader α}
    (hf : h.sequel.Walks χ (f ()) (g ()))
    (hlost : ∀ u mark, OpenPhrase u → h.sequel.Lost (f () mark u)) :
    h.sequel.Walks χ (butNot contextAhead >>= f) (butNot contextAhead >>= g) := by
  refine ⟨fun mark mark' u u' hhere => ?_, ?_⟩
  · -- with an open phrase the longer reading may see a context suffix where the shorter one sees an
    -- index, but the latter is lost; otherwise both see the same
    by_cases hu : OpenPhrase u
    · exact .lost (Sequel.lost_of_becomes (fails_contextAhead hu).butNot.becomes
        (fun mark => hlost u mark hu) mark)
    · have hafter : h.sequel.Tracks (h.sequel.At u) h.sequel.Here χ (f ()) (g ()) := by
        refine hf.mono_left ?_
        rintro s s' ⟨rfl, rfl⟩
        rfl
      exact ((h.tracks_contextAhead hu).butNot.bind fun _ => hafter).agree mark mark' u u'
        ⟨rfl, hhere⟩
  · refine Sequel.stays_bind (fun hclosing s => ?_) fun _ => hf.stays
    exact Sequel.lost_butNot ((h.tracks_contextAhead not_openPhrase_nil).stays hclosing s)

/-- The same where there may be no room to look ahead. -/
lemma tracks_guarded_within (h : Closing c) {α : Type} {χ : α → α} {f g : Unit → Reader α}
    (hf : h.sequel.Walks χ (f ()) (g ()))
    (hlost : ∀ u mark, OpenPhrase u → h.sequel.Lost (f () mark u)) (room : Room Opening) :
    h.sequel.Walks χ (butNot (within room contextAhead) >>= f)
      (butNot (within room contextAhead) >>= g) := by
  cases room with
  | none => exact ⟨fun _ _ _ _ _ => .sunk, fun _ _ => trivial⟩
  | more => exact h.tracks_guarded hf hlost

lemma follows_index (h : Closing c) {inside : Opening → Room Opening}
    (hoperand : h.sequel.Follows h.sequel.onward (operandWithin (inside .index))
      (operandWithin (inside .index))) :
    h.sequel.Follows (Selector.moved c.length) (index (nestedWithin inside))
      (index (nestedWithin inside)) := by
  have hexpr := Sequel.follows_expressionOver hoperand
  have hopen : h.sequel.Follows id (word "[") (word "[") :=
    Sequel.follows_bracket rfl (by decide) (h.head_ne (by decide))
  -- The guard decides: what is no open phrase is followed as an index, and an open phrase is lost.
  refine Sequel.Follows.rule (hopen.bind fun _ => h.walks_skip.bind fun _ =>
    h.tracks_guarded_within ?_ (fun u mark hu => ?_) (inside .suffix))
  · exact hexpr.here.bind fun _ => Sequel.walks_skip_bind fun _ =>
      Sequel.follows_closeBracket.bind fun _ => Sequel.walks_left.bind fun _ =>
      Sequel.tracks_pure rfl
  · have hlost := Sequel.lost_expressionOver hoperand
      (Sequel.lost_operandWithin trivial hu (inside .index) mark)
    refine Sequel.lost_bind hlost fun _ => ?_
    exact Sequel.stays_bind Sequel.stays_skip fun _ =>
      Sequel.stays_bind Sequel.follows_closeBracket.here.stays fun _ =>
      Sequel.stays_bind Sequel.stays_left fun _ => Sequel.stays_pure _

lemma follows_expression (h : Closing c) (room : Room Opening) :
    h.sequel.Follows h.sequel.onward (expression room) (expression room) :=
  Sequel.follows_expressionOver
    (Sequel.follows_operandWithin (fun _ hoperand => h.follows_index (hoperand .index)) room)

lemma follows_contextSuffix (h : Closing c) : h.sequel.Follows id contextSuffix contextSuffix := by
  have hopen : h.sequel.Follows id (word "[") (word "[") :=
    Sequel.follows_bracket rfl (by decide) (h.head_ne (by decide))
  exact Sequel.Follows.rule (hopen.bind fun _ => Sequel.walks_skip_bind fun _ =>
    Sequel.Follows.negation_bind fun _ => Sequel.follows_contextWord.bind fun _ =>
    Sequel.walks_skip_bind fun _ => Sequel.follows_closeBracket.bind fun _ =>
    Sequel.tracks_pure rfl)

/-! ## Whole patterns -/

/-- The longer text does not end where the shorter one does, so unless the shorter reading is lost
the longer one finds no end. -/
lemma outlasts_whole (h : Closing c) (hne : c ≠ []) (room : Room Opening) :
    h.sequel.Outlasts h.sequel.Here (whole room) (whole room) := by
  -- More text follows on the right side, so the end of the text is not reached there.
  have hend (a : Surface × Option (Context × Bool)) (b : Surface × Option (Context × Bool)) :
      h.sequel.Outlasts h.sequel.Here (endOfText >>= fun _ => pure a)
        (endOfText >>= fun _ => pure b) := by
    refine ⟨fun mark mark' s s' hhere => .inr fun _ _ _ hok => ?_, ?_⟩
    · have hs' : s' = s ++ c := hhere
      have hfails : Fails endOfText s' := by
        refine Fails.rule (fails_lexeme (if_neg ?_))
        rw [List.isEmpty_iff, hs', List.append_eq_nil_iff]
        exact fun hnil => hne hnil.2
      obtain ⟨m, hfail⟩ := hfails.bind mark'
      cases hok.symm.trans hfail
    · exact Sequel.stays_bind
        (fun hclosing s => Sequel.lost_rule (Sequel.stays_lexeme hclosing s))
        fun _ => Sequel.stays_pure a
  exact Sequel.Outlasts.rule (h.walks_skip.outlasts_bind fun _ =>
    (h.follows_expression room).here.outlasts_bind fun _ => h.walks_skip.outlasts_bind fun _ =>
    h.follows_contextSuffix.here.optional.outlasts_bind fun _ =>
    h.walks_skip.outlasts_bind fun _ => hend _ _)

/-- Closing brackets are missing as many opening ones. -/
lemma excess_eq (h : Closing c) : excess c = -c.length := by
  have hopened : opened c = 0 := List.countP_eq_zero.mpr fun x hx => by
    rcases h x hx with rfl | rfl <;> decide
  have hclosed : closed c = c.length := List.countP_eq_length.mpr fun x hx => by
    rcases h x hx with rfl | rfl <;> decide
  rw [excess, outside_of_quoteless h.isBreak.2, hopened, hclosed]
  omega

/-- A text and the same text with more closing brackets are not both patterns, since a pattern has
as many of them as opening ones. -/
lemma not_whole_ok (h : Closing c) (hne : c ≠ []) {room : Room Opening} {mark mark' m m' : Nat}
    {t rest rest' : List Char} {a a' : Surface × Option (Context × Bool)}
    (hlonger : whole room mark (t ++ c) = .ok a rest mark') : whole room m t ≠ .ok a' rest' m' := by
  intro hshorter
  have hlong := (part_of_whole hlonger).excess_eq
  have hshort := part_of_whole hshorter
  rw [hshort.complete.excess_append, hshort.excess_eq, h.excess_eq] at hlong
  have hpos : 0 < c.length := List.length_pos_iff.mpr hne
  omega

end Closing

end Grammar

namespace Pattern

open Grammar

/-- The fault of a text that ends too early: nothing is found at its end, and the span is the place
behind its last character. -/
def endFault (text : String) : Fault :=
  Fault.withExcerpt
    { kind := .pattern text "" none
      diagnostic :=
        { code := .patternSyntax, message := "unexpected end of pattern",
          span := Span.atOffset text.toList text.length } }

lemma ofOffsets_self (s : List Char) (offset : Nat) :
    Span.ofOffsets s offset offset = Span.atOffset s offset := by
  rw [Span.ofOffsets, Span.between, Span.atOffset, Span.of, Span.of, if_pos rfl, if_pos rfl]
  rw [if_neg (by simp [Text.position]), if_neg (by simp [Text.position])]

/-- A mark at the end of the text is reported as an unexpected end. -/
lemma fault_unexpectedAt_zero (text : String) :
    (unexpectedAt text.toList 0).fault text.toList = endFault text := by
  have htoken : tokenAt (text.toList.drop (text.toList.length - 0)) = [] := by
    rw [Nat.sub_zero, List.drop_length]
    rfl
  have hspan : Span.ofOffsets text.toList (text.toList.length - 0) (text.toList.length - 0) =
      Span.atOffset text.toList text.length := by
    rw [ofOffsets_self, Nat.sub_zero, String.length_toList]
  change (unexpectedAt text.toList 0).patternFault text.toList = endFault text
  rw [CompileError.patternFault, CompileError.span, CompileError.message, CompileError.code,
    unexpectedAt, htoken, hspan, String.ofList_toList]
  rfl

/-- **An unclosed bracket is reported at the end.** A text that only lacks closing brackets, and
compiles with them, fails at its end, or it is nested too deeply without them. It is not where there
is room for one level more than it has opening brackets and signs. -/
theorem compile_unclosed {room : Room Opening} {t : String} {c : List Char} (hc : Closing c)
    (hne : c ≠ []) {k : Kind} (h : compileIn room (t ++ String.ofList c) = .ok k) :
    compileIn room t = .error (endFault t) ∨
      compileIn room t = .error (depthFault t) ∧ ¬ room.Holds (nesting t.toList + 1) := by
  obtain ⟨e, suffix, rest, mark, hread, -, -⟩ := exists_of_compileIn h
  rw [String.toList_append, String.toList_ofList] at hread
  -- the longer text is read, so the shorter reading must be lost
  have hlost : hc.sequel.Lost (whole room t.toList.length t.toList) :=
    ((hc.outlasts_whole hne room).ne_ok t.toList.length _ t.toList _ rfl).resolve_right fun hnot =>
      hnot _ _ _ hread
  rw [compileIn, compileChars]
  cases hwhole : whole room t.toList.length t.toList with
  | ok a rest' m => exact absurd hwhole (hc.not_whole_ok hne hread)
  | fail m =>
    rw [hwhole] at hlost
    obtain ⟨-, rfl⟩ := hlost
    exact .inl (congrArg Except.error (fault_unexpectedAt_zero t))
  | deep => exact .inr ⟨rfl, not_holds_of_deep hwhole⟩

/-- With its bracket the text has a context suffix, and without it an index that is not closed. -/
theorem compile_unclosed_suffix : ∃ k, compile ("f(a[0]) [ ! conditional" ++ "]") = .ok k ∧
    compile "f(a[0]) [ ! conditional" = .error (endFault "f(a[0]) [ ! conditional") := by
  obtain ⟨k, hk, -⟩ := exists_of_any_toOption
    (show (compile ("f(a[0]) [ ! conditional" ++ "]")).toOption.any (·.negated) =
      true by decide +kernel)
  have hclosing : Closing "]".toList := by
    intro x hx
    exact .inr (List.mem_singleton.mp hx)
  have hk' : compile ("f(a[0]) [ ! conditional" ++ String.ofList "]".toList) = .ok k := by
    rwa [String.ofList_toList]
  have hroom : stackRoom.Holds (nesting "f(a[0]) [ ! conditional".toList + 1) :=
    holds_stackRoom.mono (by decide)
  exact ⟨k, hk, (compile_unclosed hclosing (by simp) hk').resolve_right fun hdeep => hdeep.2 hroom⟩

/-! ## At the end of the room -/

/-- A negated name is nested too deeply where there is no room for a sign. -/
lemma sinks_negated {room : Room Opening}
    (h : ∀ inside, room = .more inside → inside .sign = .none) :
    Sinks (operandWithin room) "! conditional ".toList := by
  cases room with
  | none => exact sinks_operandWithin_none _
  | more inside =>
    have hupdate : Fails updateOperator "! conditional ".toList :=
      fails_updateOperator_of_head (by decide) (by decide) _
    have hunary : Reads unaryOperator "! conditional ".toList .not " conditional ".toList :=
      reads_unaryOperator .not _
    have hskip : Reads skip " conditional ".toList () "conditional ".toList :=
      reads_skip (a := [' ']) (by decide) (halts_cons (by decide) _)
    have hoperand : Sinks (operandWithin (inside .sign)) "conditional ".toList := by
      rw [h inside rfl]
      exact sinks_operandWithin_none _
    rw [operandWithin_more]
    exact Sinks.rule ((reads_left _).becomes.sinks (hupdate.optional.becomes.sinks
      (hunary.optional.becomes.sinks (hskip.becomes.sinks hoperand.bind))))

/-- The open context suffix behind a name is nested too deeply where there is no room for a sign in
an index. -/
lemma sinks_openSuffix {inside : Opening → Room Opening}
    (h : ∀ inside', inside .index = .more inside' → inside' .sign = .none) :
    Sinks (operandWithin (.more inside)) "x [ ! conditional ".toList := by
  have hspace : Gap [' '] := by decide
  have hphrase : OpenPhrase "! conditional ".toList :=
    ⟨.conditional, true, _, [' '], .negated (g := [' ']) .conditional (by decide), by decide, rfl⟩
  have hskip : Reads skip " ! conditional ".toList () "! conditional ".toList :=
    hspace.reads_skip ⟨_, _, rfl, by decide⟩
  have hindex : Sinks (index (nestedWithin inside)) "[ ! conditional ".toList := by
    refine Sinks.rule ((reads_word "[" _).becomes.sinks (hskip.becomes.sinks ?_))
    -- It does not matter whether there is room to look for a suffix: without its bracket there is
    -- none.
    rcases (Closing.fails_contextAhead hphrase).within (inside .suffix) with hfails | hdeep
    · exact hfails.butNot.becomes.sinks (sinks_negated h).expressionOver.bind
    · exact hdeep.butNot.bind
  have hopen : Halts isBlank "[ ! conditional ".toList := halts_cons (by decide) _
  have hselector := sinks_selector hspace.2 hopen (fails_word_cons rfl (by decide)) hindex
  exact sinks_operandWithin_name (hspace.apart _)
    (fun _ => ((reads_skip hspace.2 hopen).bind_fails (fails_word_cons rfl (by decide)).bind).rule)
      hselector

/-- A name behind signs compiles with a context suffix where there is room to look for the
suffix. -/
lemma compileChars_signed_closed (costs : Costs) (n m : Nat) :
    ∃ j, compileChars (.onStack costs.cost (n + 1 + costs.cost .suffix + m * costs.cost .sign))
      (signed m "x [ ! conditional ]".toList) = .ok j ∧
      (j.context, j.negated) = (.conditional, true) := by
  have hspace : Gap [' '] := by decide
  have hphrase : ContextPhrase .conditional true ('!' :: ([' '] ++ "conditional".toList)) :=
    .negated .conditional hspace
  have hstops : Stops .equality " [ ! conditional ]".toList :=
    hspace.stops (hphrase.blocks hspace hspace [] .equality)
  -- There is just enough room behind the signs to look for the suffix.
  have hahead :
      costs.inside (n + 1 + costs.cost .suffix) .suffix = .more (costs.inside (n + 1)) := by
    rw [Costs.inside, costs.max_cost_suffix, Nat.add_sub_cancel, costs.onStack_pos n.succ_pos]
  have hindex : Fails (index (nestedWithin (costs.inside (n + 1 + costs.cost .suffix))))
      "[ ! conditional ]".toList :=
    hphrase.loose.fails_index_of_more hspace.2 hspace.2 hahead []
  have hselector :=
    fails_selector hspace.2 (halts_cons (by decide) _) (fails_word_cons rfl (by decide)) hindex
  obtain ⟨x, hname⟩ := reads_operandWithin_name hstops hselector
  rw [← costs.onStack_pos (Nat.add_pos_left n.succ_pos (costs.cost .suffix))] at hname
  have hmeans : Means (.reference "x" x) (.reference "x" {}) := .reference
  exact compileChars_signed ⟨_, _, rfl, by decide⟩ hmeans hname hstops
    (hspace.reads_skip ⟨_, _, rfl, by decide⟩) (hphrase.reads_suffix hspace hspace []).optional m

/-- The same name with the suffix left open is nested too deeply if fewer places are left than a
sign takes. The suffix is read as an index then, which takes as much room as looking for a suffix,
and the negation in it takes that of a sign. -/
lemma sinks_signed_open {costs : Costs} {n : Nat} (hn : n < costs.cost .sign) (m : Nat) :
    Sinks (whole (.onStack costs.cost (n + 1 + costs.cost .suffix + m * costs.cost .sign)))
      (signed m "x [ ! conditional ".toList) := by
  have hsuffix : Sinks (operandWithin (.more (costs.inside (n + 1 + costs.cost .suffix))))
      "x [ ! conditional ".toList := by
    refine sinks_openSuffix fun inside' hinside => costs.eq_none_of_inside_eq_more hinside ?_
    have hindex := costs.suffix_le_index
    rw [costs.max_cost_index, costs.max_cost_sign]
    omega
  rw [← costs.onStack_pos (Nat.add_pos_left n.succ_pos (costs.cost .suffix))] at hsuffix
  exact sinks_whole (solid_signed ⟨_, _, rfl, by decide⟩ m)
    (sinks_signed ⟨_, _, rfl, by decide⟩ hsuffix m)

/-- There is no stack, whatever its size and the costs on it, on which every text that lacks a
bracket is reported at its end: the open context suffix can be nested too deeply where the closed
one is not. -/
theorem not_compile_unclosed : ¬ ∃ (costs : Costs) (places : Nat),
    ∀ (t : String) (c : List Char) (k : Kind), Closing c → c ≠ [] →
      compileIn (costs.room places) (t ++ String.ofList c) = .ok k →
        compileIn (costs.room places) t = .error (endFault t) := by
  rintro ⟨costs, places, hall⟩
  -- so many signs leave room to look for a suffix, but none for a sign in an index
  obtain ⟨n, m, hn, hplaces⟩ := costs.exists_signs places
  have hroom : costs.room places =
      .onStack costs.cost (n + 1 + costs.cost .suffix + m * costs.cost .sign) := by
    rw [Costs.room]
    congr 1
    omega
  obtain ⟨j, hj, -⟩ := compileChars_signed_closed costs n m
  have htext :
      (String.ofList (signed m "x [ ! conditional ".toList) ++ String.ofList [']']).toList =
        signed m "x [ ! conditional ]".toList := by
    rw [String.toList_append, String.toList_ofList, String.toList_ofList, ← signed_append]
    rfl
  have hclosing : Closing [']'] := fun x hx => .inr (List.mem_singleton.mp hx)
  have hend := hall _ _ j hclosing (by simp) (by rw [compileIn, htext, hroom, hj]; rfl)
  have hopen := hroom ▸ sinks_signed_open hn m
  rw [compileIn_of_sinks (by rwa [String.toList_ofList])] at hend
  have hmessage : "pattern nested too deeply" = "unexpected end of pattern" :=
    congrArg Fault.message (Except.error.inj hend)
  exact absurd hmessage (by decide)

end Pattern

end ShapeLint
