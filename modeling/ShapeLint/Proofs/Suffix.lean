import ShapeLint.Proofs.RoundTrip
import ShapeLint.Proofs.Sequel

/-!
# A context suffix does not change the expression

A pattern text can have a context suffix put behind it. The suffix starts with the bracket of an
index, and what is in front of it can end in anything that a pattern can end in; yet the expression
is read up to the same place as without the suffix, and is the same in all its parts, spans
included. The suffix is read as a context and as nothing else.

To see that the bracket starts no index takes room by itself, though. The innermost operand looks
behind the bracket, so a text that has just found room may find none with the suffix
(`compile_append_suffix`), and whatever the size of the stack there is such a text
(`not_compile_append_suffix`).
-/

namespace ShapeLint

open Grammar Grammar.Reader
open Text (isBlank isNameChar)

/-- A context suffix, with white space or none in front of it, between its tokens and behind it. A
suffix of a rendering has white space at these places, so it is one of these. -/
inductive ContextSuffix (context : Context) (negated : Bool) : List Char → Prop where
  | spaced {a b u c d : List Char} : (∀ x ∈ a, isBlank x = true) → (∀ x ∈ b, isBlank x = true) →
      LoosePhrase context negated u → (∀ x ∈ c, isBlank x = true) → (∀ x ∈ d, isBlank x = true) →
      ContextSuffix context negated (a ++ '[' :: (b ++ (u ++ (c ++ ']' :: d))))

namespace ContextSuffix

variable {context : Context} {negated : Bool} {s : List Char}

lemma dropWhile_isBlank (h : ContextSuffix context negated s) :
    ∃ t, s.dropWhile isBlank = '[' :: t := by
  obtain ⟨ha, -, -, -, -⟩ := h
  exact ⟨_, dropWhile_append_of_halts ha (halts_cons (by decide) _)⟩

/-- The suffix is never read as an index, whatever room there is to look behind its bracket. -/
lemma fails_index (h : ContextSuffix context negated s) (nested : Nested) :
    Fails (index nested) (s.dropWhile isBlank) ∨ Sinks (index nested) (s.dropWhile isBlank) := by
  obtain ⟨ha, hb, hu, hc, hd⟩ := h
  rw [dropWhile_append_of_halts ha (halts_cons (by decide) _)]
  exact hu.fails_index hb hc nested _

lemma reads (h : ContextSuffix context negated s) :
    ∃ d, (∀ x ∈ d, isBlank x = true) ∧
      Reads contextSuffix (s.dropWhile isBlank) (context, negated) d := by
  obtain ⟨ha, hb, hu, hc, hd⟩ := h
  rw [dropWhile_append_of_halts ha (halts_cons (by decide) _)]
  exact ⟨_, hd, hu.reads_suffix hb hc _⟩

lemma head (h : ContextSuffix context negated s) : ∀ c ∈ s.head?, isBlank c = true ∨ c = '[' := by
  obtain ⟨ha, -, -, -, -⟩ := h
  rename_i a b u c d
  intro x hx
  cases a with
  | nil => exact .inr (Option.some.inj hx).symm
  | cons y a => exact .inl (Option.some.inj hx ▸ ha y (List.mem_cons_self ..))

lemma quoteless (h : ContextSuffix context negated s) : '"' ∉ s := by
  have hblank {w : List Char} (hw : ∀ x ∈ w, isBlank x = true) : '"' ∉ w :=
    fun hmem => absurd (hw _ hmem) (by decide)
  have hphrase {u : List Char} (hu : LoosePhrase context negated u) : '"' ∉ u := by
    cases hu with
    | plain hw => cases hw <;> decide
    | negated hw hg =>
      have hword : ∀ w, ContextWord context w → '"' ∉ w.toList := fun w hw => by cases hw <;> decide
      simp [hblank hg, hword _ hw]
  obtain ⟨ha, hb, hu, hc, hd⟩ := h
  simp [hblank ha, hblank hb, hphrase hu, hblank hc, hblank hd]

/-- A context suffix as something that a text goes on with. It closes no bracket of the text, and it
starts with a bracket or a blank, so it goes on with no token. -/
def sequel (h : ContextSuffix context negated s) : Sequel where
  text := s
  closing := False
  isBreak := ⟨fun c hc => (h.head c hc).imp id fun heq => by rw [heq]; decide, h.quoteless⟩
  isBreak_inner := by
    obtain ⟨t, ht⟩ := h.dropWhile_isBlank
    refine ⟨fun c hc => ?_, fun hmem => h.quoteless ((List.dropWhile_sublist isBlank).subset hmem)⟩
    rw [ht] at hc
    exact .inr (Option.some.inj hc ▸ by decide)
  closes := by
    obtain ⟨t, ht⟩ := h.dropWhile_isBlank
    rintro - c hc
    rw [ht] at hc
    exact Option.some.inj hc ▸ by decide

/-! ## Reading with a suffix behind the text -/

lemma fails_index_text (h : ContextSuffix context negated s) (nested : Nested) :
    Fails (index nested) s ∨ Sinks (index nested) s := by
  obtain ⟨t, ht⟩ := h.dropWhile_isBlank
  cases s with
  | nil => cases ht
  | cons c s =>
    by_cases hc : isBlank c = true
    · have hne : '[' ≠ c := ne_of_blank (by decide) hc
      exact .inl (fails_word_cons (by rfl) hne).bind.rule
    · have hfails := h.fails_index nested
      rwa [List.dropWhile_cons, if_neg hc] at hfails

/-- Looking for a context behind a bracket of the text comes to the same with the suffix and
without. The suffix has a closing bracket, but not at its front, where it could be taken for the
missing one. -/
lemma follows_contextAhead (h : ContextSuffix context negated s) :
    h.sequel.Follows id contextAhead contextAhead := by
  have hclose : h.sequel.Follows id (word "]") (word "]") := by
    refine Sequel.follows_bracket rfl (by decide) fun hhead => ?_
    obtain ⟨t, ht⟩ := h.dropWhile_isBlank
    have hhead' : (s.dropWhile isBlank).head? = some ']' := hhead
    rw [ht] at hhead'
    cases hhead'
  exact Sequel.Follows.negation_bind fun _ => Sequel.follows_contextWord.bind fun _ =>
    Sequel.walks_skip_bind fun _ => hclose

/-- The suffix is no index, and an index of the text in front of it is the same with the suffix and
without. -/
theorem follows_index (h : ContextSuffix context negated s) {nested : Nested}
    (hexpr : h.sequel.Follows h.sequel.onward (nested.expression .index)
      (nested.expression .index)) :
    h.sequel.Follows (Selector.moved s.length) (index nested) (index nested) := by
  -- a bracket inside of the text opens an index for both readings or for none
  have hinside (d : Char) (t : List Char) : h.sequel.Tracks (h.sequel.At (d :: t)) h.sequel.Here
      (Selector.moved s.length) (index nested) (index nested) :=
    Sequel.Tracks.rule ((Sequel.tracks_bracket rfl d t).bind fun _ =>
      Sequel.walks_skip_bind fun _ =>
      (h.follows_contextAhead.within nested.ahead).butNot_bind fun _ => hexpr.bind fun _ =>
      Sequel.walks_skip_bind fun _ => Sequel.follows_closeBracket.bind fun _ =>
      Sequel.walks_left.bind fun _ => Sequel.tracks_pure rfl)
  have hend : Fails (index nested) [] := (fails_word_nil (by rfl)).bind.rule
  have hstays := (hinside ' ' []).stays
  refine ⟨⟨fun mark mark' t t' hhere => ?_, hstays⟩, ⟨fun mark mark' t t' hpast => ?_, hstays⟩⟩
  · have ht' : t' = t ++ s := hhere
    subst ht'
    cases t with
    | nil => exact Sequel.agree_of_fails hend (h.fails_index_text nested) mark mark'
    | cons d t => exact (hinside d t).agree mark mark' _ _ ⟨rfl, rfl⟩
  · obtain ⟨rfl, rfl⟩ := hpast
    exact Sequel.agree_of_fails hend (h.fails_index nested) mark mark'

lemma follows_expression (h : ContextSuffix context negated s) (room : Room Opening) :
    h.sequel.Follows h.sequel.onward (expression room) (expression room) :=
  Sequel.follows_expressionOver (Sequel.follows_operandWithin
    (fun _ hoperand => h.follows_index (Sequel.follows_expressionOver (hoperand .index))) room)

end ContextSuffix

/-! ## Whole patterns -/

lemma eq_nil_of_endOfText {mark mark' : Nat} {s rest : List Char} {u : Unit}
    (h : endOfText mark s = .ok u rest mark') :
    s = [] ∧ rest = [] := by
  have hlexeme := rule_eq_ok.mp h
  unfold lexeme at hlexeme
  cases s with
  | nil => exact ⟨rfl, (Reply.ok.inj hlexeme).2.1.symm⟩
  | cons c s => cases hlexeme

/-- Behind the expression of a text without a context suffix there is only white space. -/
lemma exists_of_whole {room : Room Opening} {mark mark' : Nat} {t rest : List Char} {e : Surface}
    (h : whole room mark t = .ok (e, none) rest mark') :
    ∃ m r m', expression room m (t.dropWhile isBlank) = .ok e r m' ∧ ∀ c ∈ r, isBlank c = true := by
  obtain ⟨_, _, _, hskip, h⟩ := exists_of_bind_ok (rule_eq_ok.mp h)
  obtain ⟨-, rfl, -⟩ := Reply.ok.inj hskip
  obtain ⟨e', r, m', hexpr, h⟩ := exists_of_bind_ok h
  obtain ⟨_, _, _, hskip, h⟩ := exists_of_bind_ok h
  obtain ⟨-, rfl, -⟩ := Reply.ok.inj hskip
  obtain ⟨suffix, u, _, hsuffix, h⟩ := exists_of_bind_ok h
  obtain ⟨_, _, _, hskip, h⟩ := exists_of_bind_ok h
  obtain ⟨-, rfl, -⟩ := Reply.ok.inj hskip
  obtain ⟨_, _, _, hend, h⟩ := exists_of_bind_ok h
  obtain ⟨hvalue, -, -⟩ := Reply.ok.inj h
  obtain ⟨rfl, rfl⟩ := Prod.mk.inj hvalue
  have hrest := (eq_nil_of_endOfText hend).1
  rw [eq_of_optional_none hsuffix, dropWhile_of_halts (halts_dropWhile isBlank r)] at hrest
  exact ⟨_, r, m', hexpr, List.dropWhile_eq_nil_iff.mp hrest⟩

/-- A text that is read without a context suffix is read the same with one, unless it is nested too
deeply then. Its expression ends where it ended, and the suffix is all that is left behind the white
space. -/
lemma meets_whole_append {room : Room Opening} {mark mark' : Nat} {t rest : List Char} {e : Surface}
    (h : whole room mark t = .ok (e, none) rest mark') {context : Context} {negated : Bool}
    {s : List Char} (hs : ContextSuffix context negated s) (n : Nat) :
    (whole room n (t ++ s)).Meets
      (fun read _ _ => read = (moved s.length e, some (context, negated))) (fun _ => False)
      True := by
  obtain ⟨m, r, m', hexpr, hr⟩ := exists_of_whole h
  have hagree := (hs.follows_expression room).near.agree m n _ _ (Sequel.near_dropWhile t)
  rw [hexpr] at hagree
  refine meets_rule.mpr (meets_bind.mpr (meets_bind.mpr ?_))
  -- With the suffix behind it the expression is read as before, unless there is no room to look for
  -- the suffix.
  rcases hagree.exists_of_ok id with ⟨rest', n', hread, rfl⟩ | hdeep
  · have hskip (u : List Char) : Reads skip u () (u.dropWhile isBlank) := fun mark => ⟨mark, rfl⟩
    have hblank : (r ++ s).dropWhile isBlank = s.dropWhile isBlank :=
      List.dropWhile_append_of_pos hr
    obtain ⟨d, hd, hsuffix⟩ := hs.reads
    rw [← hblank] at hsuffix
    have hending :
        Reads (skip >>= fun _ => optional contextSuffix >>= fun suffix => skip >>= fun _ =>
        endOfText >>= fun _ => pure (moved s.length e, suffix)) (r ++ s) _ [] :=
      (hskip _).bind (hsuffix.optional.bind (Pattern.reads_ending hd _))
    rw [show expression room n ((t ++ s).dropWhile isBlank) = _ from hread]
    exact hending.meets fun _ => rfl
  · rw [show expression room n ((t ++ s).dropWhile isBlank) = _ from hdeep]
    trivial

namespace Pattern

/-- **A context suffix does not change the expression.** A text that compiles without a context
compiles with a context suffix behind it to the same expression in that context, or it is nested too
deeply then. It is not where there is room for one level more than it has opening brackets and
signs. -/
theorem compile_append_suffix {room : Room Opening} {t : String} {e : Pattern}
    (h : compileIn room t = .ok { expression := e }) {context : Context} {negated : Bool}
    {s : List Char} (hs : ContextSuffix context negated s) :
    compileIn room (t ++ String.ofList s) = .ok { expression := e, context, negated } ∨
      compileIn room (t ++ String.ofList s) = .error (depthFault (t ++ String.ofList s)) ∧
        ¬ room.Holds (nesting (t ++ String.ofList s).toList + 1) := by
  obtain ⟨surface, suffix, rest, mark, hread, hresolve, hcontext⟩ := exists_of_compileIn h
  -- a suffix would have asked for a context, and the kind has none
  have hnone : suffix = none := by
    have hasked := (yields_whole room _ _ _ _ _ hread).2
    cases suffix with
    | none => rfl
    | some found => exact absurd (congrArg Prod.fst hcontext) (hasked found rfl)
  subst hnone
  have htext : (t ++ String.ofList s).toList = t.toList ++ s := by
    rw [String.toList_append, String.toList_ofList]
  have hread' := meets_whole_append hread hs (t.toList ++ s).length
  rw [compileIn, compileChars, htext]
  cases hwhole : whole room (t.toList ++ s).length (t.toList ++ s) with
  | ok =>
    rw [hwhole] at hread'
    have hmoved : resolve (t.toList ++ s) (moved s.length surface) = .ok e :=
      (resolve_moved t.toList s surface).trans hresolve
    rw [hread', ofReply_ok hmoved]
    exact .inl rfl
  | fail =>
    rw [hwhole] at hread'
    exact hread'.elim
  | deep =>
    exact .inr ⟨by rw [depthFault, htext]; rfl, not_holds_of_deep hwhole⟩

/-- The expression ends in an index that begins like a suffix, and the suffix has white space at
every place. -/
theorem compile_append_suffix_index :
    ∃ e, compile "f(a)[conditional + i]" = .ok { expression := e } ∧
    ContextSuffix .discarded true " [ ! discarded ]\n".toList ∧
      compile ("f(a)[conditional + i]" ++ " [ ! discarded ]\n") =
        .ok { expression := e, context := .discarded, negated := true } := by
  obtain ⟨⟨e, context, negated⟩, hk, hany⟩ := exists_of_any_toOption
    (show (compile "f(a)[conditional + i]").toOption.any
        (fun k => k.context == .any && !k.negated) = true by
      decide +kernel)
  -- The index starts with a context word, but it goes on, so it is no suffix.
  have hcontext : context = .any ∧ negated = false := by simpa using hany
  obtain ⟨rfl, rfl⟩ := hcontext
  have hphrase : LoosePhrase .discarded true ('!' :: ([' '] ++ "discarded".toList)) :=
    .negated .discarded (by decide)
  have hsuffix : ContextSuffix .discarded true " [ ! discarded ]\n".toList :=
    .spaced (a := [' ']) (b := [' ']) (c := [' ']) (d := ['\n']) (by decide) (by decide) hphrase
      (by decide) (by decide)
  have hlonger := compile_append_suffix hk hsuffix
  rw [String.ofList_toList] at hlonger
  exact ⟨e, hk, hsuffix, hlonger.resolve_right fun h => h.2 (holds_stackRoom.mono (by decide))⟩

end Pattern

/-! ## At the end of the room

To look for a context suffix takes at least the room of a sign, and an index takes at least the room
of looking for a suffix. From that alone it follows that a text with signs in front comes to the end
of a stack of any size at the place where that matters. -/

/-- What openings cost on a stack. A sign costs something, to look for a context suffix costs as
much as a sign at least, and an index as much as to look for a suffix. That is all that is used of
the costs that the program has. -/
structure Costs where
  cost : Opening → Nat
  sign_pos : 0 < cost .sign
  sign_le_suffix : cost .sign ≤ cost .suffix
  suffix_le_index : cost .suffix ≤ cost .index

/-- The costs on the stack that the program runs on. -/
instance : Inhabited Costs :=
  ⟨⟨Opening.places, by decide, by decide, by decide⟩⟩

namespace Costs

variable (costs : Costs)

/-- A stack with so many places more than a name with a context suffix behind it needs. Stacks that
are smaller are of no interest, as hardly anything can be read on them. -/
def room (places : Nat) : Room Opening :=
  .onStack costs.cost (places + 1 + costs.cost .suffix)

/-- The stack that the program runs on is such a stack, with the costs that the program has. -/
lemma stackRoom_eq : stackRoom = (default : Costs).room 958 :=
  rfl

lemma max_cost_sign : max 1 (costs.cost .sign) = costs.cost .sign :=
  Nat.max_eq_right costs.sign_pos

lemma max_cost_suffix : max 1 (costs.cost .suffix) = costs.cost .suffix :=
  Nat.max_eq_right (Nat.le_trans costs.sign_pos costs.sign_le_suffix)

lemma max_cost_index : max 1 (costs.cost .index) = costs.cost .index :=
  Nat.max_eq_right
    (Nat.le_trans costs.sign_pos (Nat.le_trans costs.sign_le_suffix costs.suffix_le_index))

/-- The room inside of an opening on a stack with so many places. Every opening takes one place at
least. -/
def inside (places : Nat) (step : Opening) : Room Opening :=
  .onStack costs.cost (places - max 1 (costs.cost step))

lemma onStack_pos {places : Nat} (h : 0 < places) :
    Room.onStack costs.cost places = .more (costs.inside places) := by
  obtain ⟨n, rfl⟩ := Nat.exists_eq_add_one.mpr h
  rw [Room.onStack]
  rfl

/-- A stack is filled with signs up to fewer places than a sign takes. -/
theorem exists_signs (places : Nat) :
    ∃ n m, n < costs.cost .sign ∧ places = n + m * costs.cost .sign :=
  ⟨_, _, Nat.mod_lt places costs.sign_pos, (Nat.mod_add_div' places _).symm⟩

lemma inside_eq_none {places : Nat} {step : Opening} (h : places ≤ max 1 (costs.cost step)) :
    costs.inside places step = .none := by
  rw [inside, Nat.sub_eq_zero_of_le h, Room.onStack]

/-- Two openings, one in the other, do not fit where they cost all that there is. -/
theorem eq_none_of_inside_eq_more {places : Nat} {step step' : Opening}
    {inside' : Opening → Room Opening} (hinside : costs.inside places step = .more inside')
    (h : places ≤ max 1 (costs.cost step) + max 1 (costs.cost step')) : inside' step' = .none := by
  rw [inside] at hinside
  rcases Nat.eq_zero_or_pos (places - max 1 (costs.cost step)) with hzero | hpos
  · rw [hzero, Room.onStack] at hinside
    cases hinside
  · rw [costs.onStack_pos hpos] at hinside
    rw [← Room.more.inj hinside]
    exact costs.inside_eq_none (by omega)

end Costs

namespace Pattern

variable {costs : Costs} {places : Nat} {inside : Opening → Room Opening} {t rest : List Char}

/-- A text with so many signs in front of it. By them a text can be brought down as far as one likes
without changing what follows. -/
def signed : Nat → List Char → List Char
  | 0, t => t
  | m + 1, t => '-' :: ' ' :: signed m t

lemma signed_append (m : Nat) (s t : List Char) : signed m (s ++ t) = signed m s ++ t := by
  induction m with
  | zero => rfl
  | succ m ih => rw [signed, signed, ih, List.cons_append, List.cons_append]

lemma solid_signed (ht : Solid t) (m : Nat) : Solid (signed m t) := by
  cases m with
  | zero => exact ht
  | succ m => exact ⟨_, _, rfl, by decide⟩

/-- A sign takes its room, and what follows it is read in what is left. -/
lemma becomes_sign (costs : Costs) (places : Nat) (ht : Solid t) : ∃ p : Reader Surface, ∃ before,
    operandWithin (.onStack costs.cost (places + costs.cost .sign)) = rule p ∧
      Becomes p ('-' :: ' ' :: t) (operandWithin (.onStack costs.cost places) >>= fun e =>
        left >>= fun after => pure (.unary .minus e ⟨before, after⟩)) t := by
  have hroom := costs.onStack_pos (Nat.lt_of_lt_of_le costs.sign_pos (Nat.le_add_left _ places))
  have hinside : costs.inside (places + costs.cost .sign) .sign = .onStack costs.cost places := by
    rw [Costs.inside, costs.max_cost_sign, Nat.add_sub_cancel]
  have hupdate : Fails updateOperator ('-' :: ' ' :: t) :=
    fails_updateOperator_of_unary .minus (a := [' ']) (by decide) t
  have hunary : Reads unaryOperator ('-' :: ' ' :: t) .minus (' ' :: t) :=
    reads_unaryOperator .minus _
  have hskip : Reads skip (' ' :: t) () t := reads_skip (a := [' ']) (by decide) ht.halts
  refine ⟨_, ('-' :: ' ' :: t).length, by rw [hroom, operandWithin_more, prefixed], ?_⟩
  rw [← hinside]
  exact (reads_left _).becomes.trans
    (hupdate.optional.becomes.trans (hunary.optional.becomes.trans hskip.becomes))

/-- What an operand is read as, it is read as behind signs if there is room for these, and it still
means something there. -/
lemma reads_signed (ht : Solid t) {e : Surface} {p : Pattern} (he : Means e p)
    (h : Reads (operandWithin (.onStack costs.cost places)) t e rest) (m : Nat) :
    ∃ e' p', Means e' p' ∧
      Reads (operandWithin (.onStack costs.cost (places + m * costs.cost .sign)))
        (signed m t) e' rest := by
  -- on the number of signs; each takes its cost from the places
  induction m with
  | zero => exact ⟨e, p, he, by rwa [Nat.zero_mul]⟩
  | succ m ih =>
    obtain ⟨e', p', he', hread⟩ := ih
    obtain ⟨p, before, heq, hsign⟩ :=
      becomes_sign costs (places + m * costs.cost .sign) (solid_signed ht m)
    refine ⟨.unary .minus e' ⟨before, rest.length⟩, .unary .minus p' {}, he'.unary, ?_⟩
    rw [Nat.add_one_mul, ← Nat.add_assoc, heq]
    exact (hsign.reads (hread.bind ((reads_left rest).bind (reads_pure _ rest)))).rule

/-- What is nested too deeply for an operand is so behind signs, with as much more room as the signs
take. -/
theorem sinks_signed (ht : Solid t)
    (h : Sinks (operandWithin (.onStack costs.cost places)) t) (m : Nat) :
    Sinks (operandWithin (.onStack costs.cost (places + m * costs.cost .sign))) (signed m t) := by
  induction m with
  | zero => rwa [Nat.zero_mul]
  | succ m ih =>
    obtain ⟨p, before, heq, hsign⟩ :=
      becomes_sign costs (places + m * costs.cost .sign) (solid_signed ht m)
    rw [Nat.add_one_mul, ← Nat.add_assoc, heq]
    exact (hsign.sinks ih.bind).rule

/-- A name is read as an operand where nothing follows that goes on with it. -/
theorem reads_operandWithin_name (hrest : Stops .equality rest)
    (hselector : Fails (selector (nestedWithin inside)) rest) :
    ∃ x, Reads (operandWithin (.more inside)) ('x' :: rest) (.reference "x" x) rest := by
  have hupdate : Fails updateOperator ('x' :: rest) :=
    fails_updateOperator_of_head (by decide) (by decide) _
  have hunary : Fails unaryOperator ('x' :: rest) :=
    fails_unaryOperator_of_head (by decide) (by decide) (by decide) _
  obtain ⟨x, hprimary⟩ :
      ∃ x, Reads (primary (nestedWithin inside)) ("x".toList ++ rest) (.reference "x" x) rest :=
    reads_reference (by decide) (by decide) hrest.apart (hrest.noArguments _)
  have hselected : Reads (selected (nestedWithin inside)) ('x' :: rest) (.reference "x" x) rest :=
    Reads.rule ((reads_left _).bind
      (hprimary.bind (hselector.many.bind (reads_stepFrom (hrest.noStep (by decide)) _ _))))
  refine ⟨x, ?_⟩
  rw [operandWithin_more]
  exact Reads.rule ((reads_left _).bind (hupdate.optional.bind (hunary.optional.bind hselected)))

/-- A name is nested too deeply where the selectors behind it are: they are looked for once the name
has been read. -/
theorem sinks_operandWithin_name (hapart : Apart rest) (harguments : ∀ e, Fails (arguments e) rest)
    (hselector : Sinks (selector (nestedWithin inside)) rest) :
    Sinks (operandWithin (.more inside)) ('x' :: rest) := by
  have hupdate : Fails updateOperator ('x' :: rest) :=
    fails_updateOperator_of_head (by decide) (by decide) _
  have hunary : Fails unaryOperator ('x' :: rest) :=
    fails_unaryOperator_of_head (by decide) (by decide) (by decide) _
  obtain ⟨x, hprimary⟩ :
      ∃ x, Reads (primary (nestedWithin inside)) ("x".toList ++ rest) (.reference "x" x) rest :=
    reads_reference (by decide) (by decide) hapart (harguments _)
  have hselected : Sinks (selected (nestedWithin inside)) ('x' :: rest) :=
    Sinks.rule ((reads_left _).becomes.sinks (hprimary.becomes.sinks hselector.many.bind))
  rw [operandWithin_more]
  exact Sinks.rule ((reads_left _).becomes.sinks (hupdate.optional.becomes.sinks
    (hunary.optional.becomes.sinks hselected)))

/-- An operand that no operator follows is an expression by itself, at every level. -/
lemma reads_expressionOver {operand : Reader Surface} {e : Surface} (h : Reads operand t e rest)
    (hrest : Stops .equality rest) : Reads (expressionOver operand) t e rest := by
  refine Precedence.reader_induction (motive := fun p => Reads p t e rest) h ?_ .equality
  intro l hl htighter
  rw [l.reader_eq_chain hl, chain_eq]
  exact (htighter.bind (reads_tailsFrom (hrest.noTail l (by cases l <;> decide) operand) e)).rule

lemma sinks_whole {room : Room Opening} (ht : Solid t) (h : Sinks (operandWithin room) t) :
    Sinks (whole room) t := by
  have hskip : Reads skip t () t := reads_skip (a := []) (by simp) ht.halts
  exact Sinks.rule (hskip.becomes.sinks h.expressionOver.bind)

/-- A text compiles with signs in front if its operand is read in the room that they leave, and the
context is that of its suffix. -/
theorem compileChars_signed (ht : Solid t) {e : Surface} {p : Pattern} (he : Means e p)
    (h : Reads (operandWithin (.onStack costs.cost places)) t e rest) (hrest : Stops .equality rest)
    {u : List Char} {suffix : Option (Context × Bool)} (hskip : Reads skip rest () u)
    (hsuffix : Reads (optional contextSuffix) u suffix []) (m : Nat) :
    ∃ j, compileChars (.onStack costs.cost (places + m * costs.cost .sign)) (signed m t) = .ok j ∧
      (j.context, j.negated) = suffixContext suffix := by
  obtain ⟨e', p', he', hread⟩ := reads_signed ht he h m
  have hfront : Reads skip (signed m t) () (signed m t) :=
    reads_skip (a := []) (by simp) (solid_signed ht m).halts
  -- Signs, expression, suffix and the end of the text, one after another.
  have hwhole : Reads (whole (.onStack costs.cost (places + m * costs.cost .sign))) (signed m t)
      (e', suffix) [] :=
    Reads.rule (hfront.bind ((reads_expressionOver hread hrest).bind (hskip.bind (hsuffix.bind
      (reads_ending (by simp) (e', suffix))))))
  obtain ⟨j, hj, hsame⟩ := compileChars_of_reads
    (k := { expression := p', context := (suffixContext suffix).1,
            negated := (suffixContext suffix).2 }) hwhole he' rfl
  refine ⟨j, hj, ?_⟩
  simp only [Kind.same, Bool.and_eq_true, beq_iff_eq] at hsame
  exact Prod.ext hsame.1.2 hsame.2

/-- A name behind signs compiles where there is room for the signs and a place is left. -/
lemma compileChars_signed_name (costs : Costs) (n m : Nat) :
    ∃ j, compileChars (.onStack costs.cost (n + 1 + m * costs.cost .sign)) (signed m ['x']) =
      .ok j ∧ (j.context, j.negated) = (.any, false) := by
  have hstops : Stops .equality [] :=
    (blocks_nil .equality).stops (a := []) (by simp) (by simp [Apart])
  have hselector : Fails (selector (nestedWithin (costs.inside (n + 1)))) [] :=
    fails_selector (a := []) (by simp) (by simp [Halts]) (fails_word_nil rfl)
      (fails_word_nil rfl).bind.rule
  obtain ⟨x, hname⟩ := reads_operandWithin_name hstops hselector
  rw [← costs.onStack_pos n.succ_pos] at hname
  have hmeans : Means (.reference "x" x) (.reference "x" {}) := .reference
  exact compileChars_signed ⟨_, _, rfl, by decide⟩ hmeans hname hstops
    (reads_skip (a := []) (by simp) (by simp [Halts]))
    (Fails.optional (fails_word_nil rfl).bind.rule) m

/-- The same name with a context suffix is nested too deeply if fewer places are left than a sign
takes: to look behind the bracket takes as many at least. -/
lemma sinks_signed_suffix {n : Nat} (hn : n < costs.cost .sign) (m : Nat) :
    Sinks (whole (.onStack costs.cost (n + 1 + m * costs.cost .sign)))
      (signed m "x [ conditional ]".toList) := by
  have hspace : Gap [' '] := by decide
  have hstops : Stops .equality " [ conditional ]".toList :=
    hspace.stops (ContextPhrase.blocks (.plain .conditional) hspace hspace [] .equality)
  -- Too little room is left behind the signs to look for the suffix.
  have hahead : costs.inside (n + 1) .suffix = .none := by
    refine costs.inside_eq_none ?_
    rw [costs.max_cost_suffix]
    exact Nat.le_trans hn costs.sign_le_suffix
  have hindex : Sinks (index (nestedWithin (costs.inside (n + 1)))) "[ conditional ]".toList :=
    LoosePhrase.sinks_index_of_none (b := [' ']) hspace.2 (.plain .conditional) hahead []
  have hselector :
      Sinks (selector (nestedWithin (costs.inside (n + 1)))) " [ conditional ]".toList :=
    sinks_selector hspace.2 (halts_cons (by decide) _) (fails_word_cons rfl (by decide)) hindex
  have hname := sinks_operandWithin_name hstops.apart hstops.noArguments hselector
  rw [← costs.onStack_pos n.succ_pos] at hname
  exact sinks_whole (solid_signed ⟨_, _, rfl, by decide⟩ m)
    (sinks_signed ⟨_, _, rfl, by decide⟩ hname m)

/-- There is no stack, whatever its size and the costs on it, on which every text that compiles can
have a context suffix put behind it: some are nested too deeply then. -/
theorem not_compile_append_suffix : ¬ ∃ (costs : Costs) (places : Nat),
    ∀ (t : String) (e : Pattern) (context : Context) (negated : Bool) (s : List Char),
      compileIn (costs.room places) t = .ok { expression := e } → ContextSuffix context negated s →
        compileIn (costs.room places) (t ++ String.ofList s) =
          .ok { expression := e, context, negated } := by
  rintro ⟨costs, places, hall⟩
  -- behind as many signs as fit, there is no room left to look for a suffix
  obtain ⟨n, m, hn, hplaces⟩ := costs.exists_signs (places + costs.cost .suffix)
  have hroom : costs.room places = .onStack costs.cost (n + 1 + m * costs.cost .sign) := by
    rw [Costs.room]
    congr 1
    omega
  obtain ⟨⟨e, context, negated⟩, hj, hcontext⟩ := compileChars_signed_name costs n m
  obtain ⟨rfl, rfl⟩ := Prod.mk.inj hcontext
  have hspace : ∀ c ∈ [' '], isBlank c = true := by decide
  have hsuffix : ContextSuffix .conditional false " [ conditional ]".toList :=
    .spaced (d := []) hspace hspace (.plain .conditional) hspace (by simp)
  have hcompile := hall (String.ofList (signed m ['x'])) e .conditional false _
    (by rw [compileIn, String.toList_ofList, hroom, hj]; rfl) hsuffix
  have htext : (String.ofList (signed m ['x']) ++ String.ofList " [ conditional ]".toList).toList =
      signed m "x [ conditional ]".toList := by
    rw [String.toList_append, String.toList_ofList, String.toList_ofList, ← signed_append]
    rfl
  have hlong := hroom ▸ sinks_signed_suffix hn m
  rw [compileIn_of_sinks (htext ▸ hlong)] at hcompile
  cases hcompile

end Pattern

end ShapeLint
