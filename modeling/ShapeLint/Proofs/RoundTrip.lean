import Mathlib.Data.List.Forall2
import ShapeLint.Proofs.Balance
import ShapeLint.Proofs.Outset

/-!
# Compiling undoes writing

Every text that writes a kind compiles to that kind, or it is refused because it is nested too
deeply and for no other reason. That happens only where there is less room than the text has opening
brackets and signs, and it does happen: whatever room there is, some text is nested too deeply for
it.

The proof goes by induction on how the text is written. What is carried along depends on the level
(`Readable`). At the levels of binary operators and of selectors it is a statement about a loop:
reading the text from its first operand on comes to having read it and being at the head of the
loop, ready for what follows. That is what makes chains associate to the left. At the levels in
between the text is read, and that is all.

Every statement is about every room. It says that the text is read or sinks, and the two sides of an
operator follow each other by `Leads.trans`.
-/

namespace ShapeLint

open Grammar Grammar.Reader
open Text (isBlank isNameChar)

namespace Pattern

/-! ## What a surface expression means -/

/-- The surface expression is no mark for any arguments, and in every text it resolves to the
pattern, up to spans. It is stated of every text because the text only gives the spans, and the
values of literals do not depend on it. -/
def Means (e : Surface) (p : Pattern) : Prop :=
  e.isAnyArguments = false ∧ ∀ text, ∃ q, resolve text e = .ok q ∧ q.same p = true

/-- The surface expressions can stand as arguments, and in every text they resolve to the patterns.
A mark for any arguments is one of them if it is the only one. -/
def MeansArguments (es : List Surface) (ps : List Pattern) : Prop :=
  ∀ text, checkArguments text es = .ok () ∧ ∃ qs, resolveList text es = .ok qs ∧
    sameList qs ps = true

namespace Means

variable {e e' : Surface} {p q : Pattern} {es : List Surface} {ps : List Pattern} {name : String}
  {x : Extent} {loc : Span}

lemma reference : Means (.reference name x) (.reference name loc) :=
  ⟨rfl, fun _ => ⟨_, rfl, beq_self_eq_true name⟩⟩

lemma field (h : Means e p) : Means (.field e name x) (.field p name loc) := by
  refine ⟨rfl, fun text => ?_⟩
  obtain ⟨p', hp, hsame⟩ := h.2 text
  refine ⟨_, by rw [resolve, hp]; rfl, ?_⟩
  exact Bool.and_eq_true_iff.mpr ⟨hsame, beq_self_eq_true name⟩

lemma method (h : Means e p) (hargs : MeansArguments es ps) :
    Means (.method e name es x) (.method p name ps loc) := by
  refine ⟨rfl, fun text => ?_⟩
  obtain ⟨p', hp, hsame⟩ := h.2 text
  obtain ⟨hcheck, qs, hqs, hall⟩ := hargs text
  have hhead := Bool.and_eq_true_iff.mpr ⟨hsame, beq_self_eq_true name⟩
  refine ⟨_, by rw [resolve, hp, hqs, hcheck]; rfl, ?_⟩
  exact Bool.and_eq_true_iff.mpr ⟨hhead, hall⟩

lemma call (hargs : MeansArguments es ps) : Means (.call name es x) (.call name ps loc) := by
  refine ⟨rfl, fun text => ?_⟩
  obtain ⟨hcheck, qs, hqs, hall⟩ := hargs text
  refine ⟨_, by rw [resolve, hqs, hcheck]; rfl, ?_⟩
  exact Bool.and_eq_true_iff.mpr ⟨beq_self_eq_true name, hall⟩

lemma creation (hargs : MeansArguments es ps) :
    Means (.creation name es x) (.creation name ps loc) := by
  refine ⟨rfl, fun text => ?_⟩
  obtain ⟨hcheck, qs, hqs, hall⟩ := hargs text
  refine ⟨_, by rw [resolve, hqs, hcheck]; rfl, ?_⟩
  exact Bool.and_eq_true_iff.mpr ⟨beq_self_eq_true name, hall⟩

lemma element (h : Means e p) (h' : Means e' q) : Means (.element e e' x) (.element p q loc) := by
  refine ⟨rfl, fun text => ?_⟩
  obtain ⟨p', hp, hsame⟩ := h.2 text
  obtain ⟨q', hq, hsame'⟩ := h'.2 text
  refine ⟨_, by rw [resolve, hp, hq]; rfl, ?_⟩
  exact Bool.and_eq_true_iff.mpr ⟨hsame, hsame'⟩

lemma update {op : UpdateOperator} (h : Means e p) : Means (.update op e x) (.update op p loc) := by
  refine ⟨rfl, fun text => ?_⟩
  obtain ⟨p', hp, hsame⟩ := h.2 text
  refine ⟨_, by rw [resolve, hp]; rfl, ?_⟩
  exact Bool.and_eq_true_iff.mpr ⟨beq_self_eq_true op, hsame⟩

lemma unary {op : UnaryOperator} (h : Means e p) : Means (.unary op e x) (.unary op p loc) := by
  refine ⟨rfl, fun text => ?_⟩
  obtain ⟨p', hp, hsame⟩ := h.2 text
  refine ⟨_, by rw [resolve, hp]; rfl, ?_⟩
  exact Bool.and_eq_true_iff.mpr ⟨beq_self_eq_true op, hsame⟩

lemma binary {op : BinaryOperator} (h : Means e p) (h' : Means e' q) :
    Means (.binary op e e' x) (.binary op p q loc) := by
  refine ⟨rfl, fun text => ?_⟩
  obtain ⟨p', hp, hsame⟩ := h.2 text
  obtain ⟨q', hq, hsame'⟩ := h'.2 text
  have hhead := Bool.and_eq_true_iff.mpr ⟨beq_self_eq_true op, hsame⟩
  refine ⟨_, by rw [resolve, hp, hq]; rfl, ?_⟩
  exact Bool.and_eq_true_iff.mpr ⟨hhead, hsame'⟩

lemma typeTest (h : Means e p) : Means (.typeTest e name x) (.typeTest p name loc) := by
  refine ⟨rfl, fun text => ?_⟩
  obtain ⟨p', hp, hsame⟩ := h.2 text
  refine ⟨_, by rw [resolve, hp]; rfl, ?_⟩
  exact Bool.and_eq_true_iff.mpr ⟨hsame, beq_self_eq_true name⟩

lemma literal {spelling : Spelling} {c c' : Constant}
    (h : ∀ text x, constant text x spelling = .ok c') (hsame : c'.same c = true) :
    Means (.literal spelling x) (.literal c loc) := by
  refine ⟨rfl, fun text => ⟨_, by rw [resolve, h]; rfl, ?_⟩⟩
  exact hsame

end Means

lemma meansArguments_nil : MeansArguments [] [] :=
  fun _ => ⟨rfl, [], rfl, rfl⟩

lemma meansArguments_any {x : Extent} {loc : Span} :
    MeansArguments [.anyArguments x] [.anyArguments loc] :=
  fun text => ⟨rfl, [.anyArguments (extentSpan text x)], rfl, rfl⟩

/-- No expression that means a pattern is a mark, so none is misplaced among others. -/
lemma not_mark_of_forall {es : List Surface} {ps : List Pattern} (h : List.Forall₂ Means es ps) :
    ∀ e ∈ es, e.isAnyArguments = false := by
  induction h with
  | nil => simp
  | cons hp _ ih => exact List.forall_mem_cons.mpr ⟨hp.1, ih⟩

/-- Arguments none of which is a mark mean what each of them means. -/
lemma meansArguments_of_forall {es : List Surface} {ps : List Pattern}
    (h : List.Forall₂ Means es ps) :
    MeansArguments es ps := by
  intro text
  constructor
  · -- None of these is the mark for any arguments, so they may be as many as they like.
    have hfind : es.find? Expr.isAnyArguments = none := by
      rw [List.find?_eq_none]
      intro e he
      rw [not_mark_of_forall h e he]
      exact Bool.false_ne_true
    rw [checkArguments, hfind]
    split <;> rfl
  · induction h with
    | nil => exact ⟨[], rfl, rfl⟩
    | @cons e p es ps hp _ ih =>
      obtain ⟨q, hq, hsame⟩ := hp.2 text
      obtain ⟨qs, hqs, hall⟩ := ih
      exact ⟨q :: qs, by rw [resolveList, hq, hqs]; rfl, Bool.and_eq_true_iff.mpr ⟨hsame, hall⟩⟩

/-! ## Loops -/

/-- The loop over the tails behind an operand: each tail takes what has been read so far as its left
operand. -/
def tailsFrom (tail : Reader Tail) (e : Surface) : Reader Surface :=
  many tail >>= fun tails => pure (tails.foldl Tail.attach e)

/-- A chain is its first operand and the loop behind it. This is the form in which the loop can be
entered again with more read. -/
lemma chain_eq (operand : Reader Surface) (tail : Reader Tail) :
    chain operand tail = rule (operand >>= tailsFrom tail) :=
  rfl

/-- What becomes of an operand and the step behind it, if there is one. The span of the step begins
where the operand does. -/
def stepFrom (before : Nat) (e : Surface) : Reader Surface := do
  match ← optional stepBehind with
  | none => pure e
  | some up =>
    let after ← left
    pure (.update ⟨false, up⟩ e ⟨before, after⟩)

/-- The loop over the selectors behind a receiver, and what becomes of the step behind them. The
span of the step is that of the whole, so the place where the receiver begins is carried along. -/
def selectorsFrom (before : Nat) (nested : Nested) (e : Surface) : Reader Surface :=
  many (selector nested) >>= fun selectors => stepFrom before (selectors.foldl Selector.attach e)

lemma selected_eq (nested : Nested) :
    selected nested =
      rule (left >>= fun before => primary nested >>= selectorsFrom before nested) :=
  rfl

/-- The loop over tails takes a tail in and is at its head again, with the tail attached. -/
lemma leads_tailsFrom {tail : Reader Tail} {s t : List Char} {a : Tail}
    (h : Leads tail s (pure a) t) (hlt : t.length < s.length) (e : Surface) :
    Leads (tailsFrom tail e) s (tailsFrom tail (a.attach e)) t :=
  h.many_foldl hlt

/-- The loop over selectors takes a selector in and is at its head again, with the selector
attached. -/
lemma leads_selectorsFrom {nested : Nested} {s t : List Char} {a : Selector}
    (h : Leads (selector nested) s (pure a) t) (hlt : t.length < s.length) (before : Nat)
    (e : Surface) :
    Leads (selectorsFrom before nested e) s (selectorsFrom before nested (a.attach e)) t :=
  h.many_foldl hlt

/-- The loop over tails ends where no tail follows. -/
lemma reads_tailsFrom {tail : Reader Tail} {s : List Char} (h : Fails tail s) (e : Surface) :
    Reads (tailsFrom tail e) s e s :=
  h.many.bind (reads_pure e s)

/-- The loop over selectors ends where no selector follows. Finding that out may take more room than
there is. -/
lemma leads_stepFrom {nested : Nested} {s : List Char}
    (h : Fails (selector nested) s ∨ Sinks (selector nested) s) (before : Nat) (e : Surface) :
    Leads (selectorsFrom before nested e) s (stepFrom before e) s :=
  h.imp (fun h => h.many.becomes) fun h => h.many.bind

lemma reads_stepFrom {s : List Char} (h : Fails stepBehind s) (before : Nat) (e : Surface) :
    Reads (stepFrom before e) s e s :=
  h.optional.bind (reads_pure e s)

/-! ## What is carried along -/

/-- At the level of binary operators, reading the text comes to having read it and being in the loop
over tails. Nothing is said of whether the loop goes on, so the statement for the left side of an
operator gives the one for the whole. -/
def ReadableChain (l : Precedence) (p : Pattern) (t : List Char) : Prop :=
  ∀ room rest, Stops l.tighter rest → ∃ e, Means e p ∧
    Leads (l.tighter.reader (operandWithin room) >>= tailsFrom (l.tail (operandWithin room)))
      (t ++ rest) (tailsFrom (l.tail (operandWithin room)) e) rest

/-- A text of the level is read as far as the level goes. For selectors and for binary operators
that is to the head of the loop; for steps and signs it is to the end of the text, because neither
is repeated behind an operand. -/
def Readable : Precedence → Pattern → List Char → Prop
  | .selected, p, t => ∀ inside before rest, Stops .selected rest → ∃ e, Means e p ∧
      Leads (primary (nestedWithin inside) >>= selectorsFrom before (nestedWithin inside))
        (t ++ rest) (selectorsFrom before (nestedWithin inside) e) rest
  | .stepped, p, t => ∀ inside rest, Stops .stepped rest → ∃ e, Means e p ∧
      Leads (selected (nestedWithin inside)) (t ++ rest) (pure e) rest
  | .prefixed, p, t => ∀ room rest, Stops .prefixed rest → ∃ e, Means e p ∧
      Leads (operandWithin room) (t ++ rest) (pure e) rest
  | l, p, t => ReadableChain l p t

/-- The text is read by the reader of the level, where the level stops. This is what an operand, an
argument or an index has to be. -/
def Closed (l : Precedence) (p : Pattern) (t : List Char) : Prop :=
  ∀ room rest, Stops l rest →
    ∃ e, Means e p ∧ Leads (l.reader (operandWithin room)) (t ++ rest) (pure e) rest

section Levels

variable {l : Precedence} {p : Pattern} {t : List Char}

/-- The five levels of binary operators are all alike. -/
lemma readable_iff_chain (hl : l.IsBinary) : Readable l p t ↔ ReadableChain l p t := by
  cases l with
  | equality | relational | shift | additive | multiplicative => exact Iff.rfl
  | prefixed | stepped | selected => exact absurd hl (by decide)

/-- The loop over tails ends where the level stops. -/
lemma ReadableChain.closed (hl : l.IsBinary) (h : ReadableChain l p t) : Closed l p t := by
  intro room rest hrest
  obtain ⟨e, he, hread⟩ := h room rest hrest.tighter
  have hend := reads_tailsFrom (hrest.noTail l (Nat.le_refl _) (operandWithin room)) e
  refine ⟨e, he, ?_⟩
  rw [l.reader_eq_chain hl, chain_eq]
  exact (hread.trans_reads hend).rule

/-- What is read as its level asks is read by the reader of the level, from the signs down. -/
lemma Readable.closed (hl : l.rank ≤ 5) (h : Readable l p t) : Closed l p t := by
  by_cases hb : l.IsBinary
  · exact ((readable_iff_chain hb).mp h).closed hb
  · have hprefixed : l = .prefixed := by
      cases l with
      | prefixed => rfl
      | equality | relational | shift | additive | multiplicative => exact absurd (by decide) hb
      | stepped | selected => exact absurd hl (by decide)
    subst hprefixed
    exact h

end Levels

/-! ## Primaries -/

/-- A closing bracket and a comma end every expression, whatever its level. -/
lemma stops_close {a : List Char} (ha : Gap a) {c : Char} (hc : c ∈ [')', ']', ',']) (s : List Char)
    (l : Precedence) :
    Stops l (a ++ c :: s) := by
  simp only [List.mem_cons, List.not_mem_nil, or_false] at hc
  rcases hc with rfl | rfl | rfl <;> exact ha.stops (blocks_of_head (by decide) (by decide) s l)

section Primaries

variable {p : Pattern} {t : List Char}

/-- A primary is at the head of the loop over selectors once it has been read. -/
lemma readable_of_leads (h : ∀ inside rest, Stops .selected rest → ∃ e, Means e p ∧
    Leads (primary (nestedWithin inside)) (t ++ rest) (pure e) rest) : Readable .selected p t := by
  intro inside before rest hrest
  obtain ⟨e, he, hread⟩ := h inside rest hrest
  exact ⟨e, he, hread.bind⟩

/-- A primary that nothing is nested in is read however little room there is. -/
lemma readable_of_reads (h : ∀ nested rest, Stops .selected rest → ∃ e, Means e p ∧
    Reads (primary nested) (t ++ rest) e rest) : Readable .selected p t := by
  refine readable_of_leads fun inside rest hrest => ?_
  obtain ⟨e, he, hread⟩ := h (nestedWithin inside) rest hrest
  exact ⟨e, he, hread.leads⟩

/-- Parentheses around a pattern make a primary of it. They leave no trace in what is read, except
that they take room. -/
lemma readable_grouped {a b : List Char} (ha : Gap a) (hb : Gap b) (ht : Solid t)
    (h : Closed .equality p t) :
    Readable .selected p ('(' :: (a ++ (t ++ (b ++ [')'])))) := by
  refine readable_of_leads fun inside rest _ => ?_
  obtain ⟨e, he, hread⟩ :=
    h (inside .group) (b ++ ')' :: rest) (stops_close hb (by decide) rest .equality)
  refine ⟨e, he, ?_⟩
  simp only [List.cons_append, List.append_assoc, List.nil_append]
  exact leads_grouped ha hb ht hread

/-- A literal is read with the value that its text has. -/
lemma readable_literal {c : Constant} {loc : Span} (h : LiteralText c t) :
    Readable .selected (.literal c loc) t := by
  refine readable_of_reads fun nested rest hrest => ?_
  cases h with
  | double ht hvalue hsame =>
    obtain ⟨x, hread⟩ := reads_double ht hrest.apart
    exact ⟨_, Means.literal (fun _ _ => by rw [constant, hvalue]) hsame, hread⟩
  | integer ht hvalue hsame =>
    obtain ⟨x, hread⟩ := reads_integer ht hrest.apart
    exact ⟨_, Means.literal (fun _ _ => by rw [constant, hvalue]) hsame, hread⟩
  | string ht hvalue hsame =>
    obtain ⟨x, hread⟩ := reads_string ht rest
    exact ⟨_, Means.literal (fun _ _ => by rw [constant, hvalue]) hsame, hread⟩
  | boolean b hsame =>
    -- each of the two words stands in the table of values by itself
    cases b with
    | true =>
      obtain ⟨x, hread⟩ := reads_valueNode (w := "true") (by decide) hrest.apart
      exact ⟨_, Means.literal (fun _ _ => rfl) hsame, hread⟩
    | false =>
      obtain ⟨x, hread⟩ := reads_valueNode (w := "false") (by decide) hrest.apart
      exact ⟨_, Means.literal (fun _ _ => rfl) hsame, hread⟩

end Primaries

/-! ## Arguments -/

/-- What the arguments of a list must be like: none begins like a mark, and each is a whole
expression. -/
def ReadableParts (xs : List Piece) : Prop :=
  ∀ x ∈ xs, Begins .equality x.text ∧ Closed .equality x.pattern x.text

/-- Behind an argument stands a comma or the closing bracket, and either ends it. -/
lemma Further.stops {xs : List Piece} {t : List Char} (h : Further xs t) {c : List Char}
    (hc : Gap c) (s : List Char) :
    Stops .equality (t ++ (c ++ ')' :: s)) := by
  cases h with
  | none => exact stops_close hc (by decide) s .equality
  | more ha =>
    rw [List.append_assoc, List.cons_append]
    exact stops_close ha (by decide) _ .equality

/-- Further arguments are read one after the other. -/
lemma Further.leads {xs : List Piece} {t : List Char} (h : Further xs t) (hxs : ReadableParts xs)
    (room : Room Opening) {c : List Char} (hc : Gap c) (s : List Char) :
    ∃ es, List.Forall₂ Means es (xs.map (·.pattern)) ∧
      Leads (many (furtherArgument (expression room))) (t ++ (c ++ ')' :: s)) (pure es)
        (c ++ ')' :: s) := by
  induction h with
  | none => exact ⟨[], .nil, (fails_furtherArgument hc s).many.leads⟩
  | @more x xs a b t ha hb ht ih =>
    obtain ⟨⟨hbegins, hclosed⟩, hxs⟩ := List.forall_mem_cons.mp hxs
    obtain ⟨es, hes, hothers⟩ := ih hxs
    obtain ⟨e, he, hread⟩ := hclosed room _ (ht.stops hc s)
    have hfirst := leads_furtherArgument ha hb (hbegins.solid.append _) (hbegins.fails_mark _) hread
    refine ⟨e :: es, .cons he hes, ?_⟩
    simp only [List.append_assoc, List.cons_append]
    -- the comma is what the repetition makes progress by
    refine hfirst.many_cons ?_ hothers
    simp only [List.length_append, List.length_cons]
    omega

lemma ArgumentText.apart {xs : List Piece} {args : List Pattern} {u : List Char}
    (h : ArgumentText xs args u) (s : List Char) : Apart (u ++ s) := by
  obtain ⟨a, v, ha, rfl⟩ := h.eq_cons
  rw [List.append_assoc]
  exact ha.apart _

/-- Arguments are read, together with the brackets around them. There may be none, or a single mark
for any arguments, or patterns. -/
lemma ArgumentText.leads {xs : List Piece} {args : List Pattern} {u : List Char}
    (h : ArgumentText xs args u) (hxs : ReadableParts xs) (room : Room Opening) (s : List Char) :
    ∃ es, MeansArguments es args ∧ Leads (arguments (expression room)) (u ++ s) (pure es) s := by
  -- No arguments, the mark for any, or arguments one by one.
  cases h with
  | none ha hb =>
    have hempty : Leads (optional (argumentList (expression room))) (')' :: s) (pure Option.none)
        (')' :: s) :=
      leads_noArguments (fails_expression_close room s)
    refine ⟨[], meansArguments_nil, ?_⟩
    simp only [List.append_assoc, List.cons_append, List.nil_append]
    exact leads_arguments (c := []) ha hb (by simp) ⟨_, _, rfl, by decide⟩ hempty
  | any ha hb hc =>
    obtain ⟨x, hmark⟩ : ∃ x, Reads (argumentList (expression room)) _ [.anyArguments x] _ :=
      reads_anyArguments hc s
    refine ⟨[.anyArguments x], meansArguments_any, ?_⟩
    simp only [List.append_assoc, List.cons_append, List.nil_append]
    exact leads_arguments ha hb hc.2 ⟨_, _, rfl, by decide⟩ hmark.optional.leads
  | @some x xs a b c t ha hb hc ht =>
    obtain ⟨⟨hbegins, hclosed⟩, hxs⟩ := List.forall_mem_cons.mp hxs
    obtain ⟨es, hes, hothers⟩ := ht.leads hxs room hc s
    obtain ⟨e, he, hread⟩ := hclosed room _ (ht.stops hc s)
    have hfirst := leads_argument (hbegins.fails_mark _) hread
    have hlist : Leads (argumentList (expression room)) _ (pure (e :: es)) _ :=
      Leads.rule (hfirst.bind.trans hothers.bind)
    refine ⟨e :: es, meansArguments_of_forall (.cons he hes), ?_⟩
    simp only [List.append_assoc, List.cons_append, List.nil_append]
    exact leads_arguments ha hb hc.2 (hbegins.solid.append _) hlist.optional

/-! ## Selectors -/

section Selectors

variable {p q : Pattern} {t u : List Char} {name : String} {loc : Span} {a b : List Char}

/-- In front of a selector the loop over selectors is at its head. -/
lemma stops_selector {c : Char} (ha : Gap a) (hb : isBlank c = false) (hc : c ≠ '(')
    (s : List Char) :
    Stops .selected (a ++ c :: s) :=
  ha.stops (blocks_selected hb hc s)

/-- A member is read as one more selector behind its receiver. -/
lemma readable_field (ha : Gap a) (hb : Gap b) (hn : IsName name) (h : Readable .selected p t) :
    Readable .selected (.field p name loc) (t ++ (a ++ '.' :: (b ++ name.toList))) := by
  intro inside before rest hrest
  obtain ⟨e, he, hread⟩ := h inside before (a ++ '.' :: (b ++ (name.toList ++ rest)))
    (stops_selector ha (by decide) (by decide) _)
  have hname := reads_identifier hn (inky_isNameChar.halts hrest.apart)
  have hselector : Reads (selector (nestedWithin inside)) (a ++ '.' :: (b ++ (name.toList ++ rest)))
      (.field name rest.length) rest := by
    refine Reads.rule ((ha.reads_skip ⟨_, _, rfl, by decide⟩).bind (Reads.orElse (Reads.rule ?_)))
    refine (reads_word "." _).bind ((hb.reads_skip (hn.1.solid rest)).bind (hname.bind ?_))
    exact (hrest.noArguments _).optional.bind ((reads_left rest).bind (reads_pure _ rest))
  refine ⟨Selector.attach e (.field name rest.length), he.field, ?_⟩
  simp only [List.append_assoc, List.cons_append]
  refine hread.trans_becomes (hselector.many_foldl ?_)
  simp only [List.length_append, List.length_cons]
  omega

/-- A method call is read as one more selector, and its arguments with the room inside of a
member. -/
lemma readable_method {xs : List Piece} {args : List Pattern} (ha : Gap a) (hb : Gap b)
    (hn : IsName name) (h : Readable .selected p t) (hargs : ArgumentText xs args u)
    (hxs : ReadableParts xs) :
    Readable .selected (.method p name args loc)
      (t ++ (a ++ '.' :: (b ++ (name.toList ++ u)))) := by
  intro inside before rest hrest
  obtain ⟨e, he, hread⟩ := h inside before (a ++ '.' :: (b ++ (name.toList ++ (u ++ rest))))
    (stops_selector ha (by decide) (by decide) _)
  obtain ⟨es, hes, hall⟩ := hargs.leads hxs (inside .member) rest
  have hname := reads_identifier hn (inky_isNameChar.halts (hargs.apart rest))
  -- The member is read to its end before the chain of selectors goes on.
  have hselector : Leads (selector (nestedWithin inside))
      (a ++ '.' :: (b ++ (name.toList ++ (u ++ rest)))) (pure (.method name es rest.length))
      rest := by
    refine Leads.rule
      ((ha.reads_skip ⟨_, _, rfl, by decide⟩).becomes.trans_leads (Leads.orElse (Leads.rule ?_)))
    refine (reads_word "." _).becomes.trans_leads
      ((hb.reads_skip (hn.1.solid _)).becomes.trans_leads ?_)
    refine hname.becomes.trans_leads (hall.optional.bind.trans_reads ?_)
    exact (reads_left rest).bind (reads_pure _ rest)
  refine ⟨Selector.attach e (.method name es rest.length), he.method hes, ?_⟩
  simp only [List.append_assoc, List.cons_append]
  -- A selector that reads nothing would end the chain, hence the lengths.
  refine hread.trans (leads_selectorsFrom hselector ?_ before e)
  simp only [List.length_append, List.length_cons]
  omega

/-- An index is read as one more selector, if what stands in it is not the phrase of a context
suffix: otherwise looking ahead finds the suffix, and the bracket is left to it. -/
lemma readable_element {c : List Char} (ha : Gap a) (hb : Gap b) (hc : Gap c)
    (hphrase : ∀ context negated, ¬ ContextPhrase context negated u) (h : Readable .selected p t)
    (hbegins : Begins .equality u) (hguard : Guarded u) (hindex : Closed .equality q u) :
    Readable .selected (.element p q loc) (t ++ (a ++ '[' :: (b ++ (u ++ (c ++ [']']))))) := by
  intro inside before rest hrest
  obtain ⟨e, he, hread⟩ := h inside before (a ++ '[' :: (b ++ (u ++ (c ++ ']' :: rest))))
    (stops_selector ha (by decide) (by decide) _)
  obtain ⟨i, hi, hinner⟩ :=
    hindex (inside .index) (c ++ ']' :: rest) (stops_close hc (by decide) rest .equality)
  have hahead : Fails contextAhead (u ++ (c ++ ']' :: rest)) := by
    rcases hguard.noPhrase _ (hc.apart (']' :: rest)) with ⟨context, negated, h⟩ | hfail
    · exact absurd h (hphrase context negated)
    · exact hfail
  -- looking ahead takes room as well, and may sink where reading the index does not
  have hlook {α : Type} {f : Unit → Reader α} :
      Leads (butNot (within (inside .suffix) contextAhead) >>= f) (u ++ (c ++ ']' :: rest)) (f ())
        (u ++ (c ++ ']' :: rest)) :=
    (hahead.within (inside .suffix)).imp (fun h => h.butNot.becomes) fun h => h.butNot.bind
  have hmember :
      Fails (member (expression (inside .member))) ('[' :: (b ++ (u ++ (c ++ ']' :: rest)))) :=
    (fails_word_cons (by rfl) (by decide)).bind.rule
  have hselector : Leads (selector (nestedWithin inside))
      (a ++ '[' :: (b ++ (u ++ (c ++ ']' :: rest)))) (pure (.index i rest.length)) rest := by
    refine Leads.rule ((ha.reads_skip ⟨_, _, rfl, by decide⟩).becomes.trans_leads ?_)
    refine hmember.orElse_becomes.trans_leads (Leads.rule ?_)
    refine (reads_word "[" _).becomes.trans_leads
      ((hb.reads_skip (hbegins.solid.append _)).becomes.trans_leads ?_)
    refine hlook.trans (hinner.bind.trans_reads ?_)
    refine (hc.reads_skip ⟨_, _, rfl, by decide⟩).bind ((reads_word "]" rest).rule.bind ?_)
    exact (reads_left rest).bind (reads_pure _ rest)
  refine ⟨Selector.attach e (.index i rest.length), he.element hi, ?_⟩
  simp only [List.append_assoc, List.cons_append, List.nil_append]
  refine hread.trans (leads_selectorsFrom hselector ?_ before e)
  simp only [List.length_append, List.length_cons]
  omega

end Selectors

/-! ## Steps and prefix operators -/

section Steps

variable {p : Pattern} {t a : List Char} {loc : Span}

/-- Behind the last selector the loop ends and no step follows. -/
lemma Readable.stepped (h : Readable .selected p t) : Readable .stepped p t := by
  intro inside rest hrest
  obtain ⟨e, he, hread⟩ := h inside (t ++ rest).length rest (hrest.mono (by decide))
  refine ⟨e, he, ?_⟩
  rw [selected_eq]
  refine Leads.rule ((reads_left _).becomes.trans_leads (hread.trans ?_))
  exact (leads_stepFrom (hrest.noSelector (by decide) _) _ e).trans_reads
    (reads_stepFrom (hrest.noStep (by decide)) _ e)

/-- A step behind an operand is read after the loop over selectors has ended. -/
lemma readable_stepBehind {up : Bool} (ha : Gap a) (h : Readable .selected p t) :
    Readable .stepped (.update ⟨false, up⟩ p loc)
      (t ++ (a ++ (UpdateOperator.symbol ⟨false, up⟩).toList)) := by
  intro inside rest hrest
  have hstops : Stops .selected (a ++ ((UpdateOperator.symbol ⟨false, up⟩).toList ++ rest)) := by
    cases up <;> exact stops_selector ha (by decide) (by decide) _
  obtain ⟨e, he, hread⟩ :=
    h inside (t ++ (a ++ ((UpdateOperator.symbol ⟨false, up⟩).toList ++ rest))).length _ hstops
  have hsolid : Solid ((UpdateOperator.symbol ⟨false, up⟩).toList ++ rest) := by
    cases up <;> exact ⟨_, _, rfl, by decide⟩
  -- neither symbol can begin a selector
  have hselector : Fails (selector (nestedWithin inside))
      (a ++ ((UpdateOperator.symbol ⟨false, up⟩).toList ++ rest)) := by
    refine Fails.rule ((ha.reads_skip hsolid).bind_fails ?_)
    cases up <;>
      exact (Fails.rule (Fails.bind (fails_word_cons (by rfl) (by decide)))).orElse
        (Fails.rule (Fails.bind (fails_word_cons (by rfl) (by decide))))
  have hstep :
      Reads stepBehind (a ++ ((UpdateOperator.symbol ⟨false, up⟩).toList ++ rest)) up rest :=
    ((ha.reads_skip hsolid).bind (reads_updateOperator ⟨false, up⟩ rest)).rule
  refine ⟨_, he.update
    (x := ⟨(t ++ (a ++ ((UpdateOperator.symbol ⟨false, up⟩).toList ++ rest))).length, rest.length⟩),
    ?_⟩
  rw [selected_eq]
  simp only [List.append_assoc]
  refine Leads.rule ((reads_left _).becomes.trans_leads (hread.trans ?_))
  refine (leads_stepFrom (.inl hselector) _ e).trans_becomes (hstep.optional.becomes.trans ?_)
  exact (reads_left rest).becomes

/-- An operand is read where there is room for it, and sinks where there is none. -/
lemma leads_operandWithin {room : Room Opening} {s rest : List Char} {e : Surface}
    (h : ∀ inside, room = .more inside →
      Leads (prefixed (operandWithin (inside .sign)) (nestedWithin inside)) s (pure e) rest) :
    Leads (operandWithin room) s (pure e) rest := by
  cases room with
  | none => exact (sinks_operandWithin_none s).leads
  | more inside => exact h inside rfl

/-- The room inside an opening, and none where there is none. -/
def roomInside : Room Opening → Opening → Room Opening
  | .none => fun _ => .none
  | .more inside => inside

/-- A text that does not begin with a sign or a step is read as an operand once neither has been
found. -/
lemma Readable.prefixed (hbegins : Begins .stepped t) (h : Readable .stepped p t) :
    Readable .prefixed p t := by
  intro room rest hrest
  obtain ⟨hstep, hsign⟩ := hbegins.fails_operators (by decide) rest
  obtain ⟨e, he, hread⟩ := h (roomInside room) rest hrest.tighter
  refine ⟨e, he, leads_operandWithin fun inside hroom => ?_⟩
  subst hroom
  refine Leads.rule ((reads_left _).becomes.trans_leads ?_)
  exact hstep.optional.becomes.trans_leads (hsign.optional.becomes.trans_leads hread)

/-- A step in front of an operand is read first, and the operand with the room behind a sign. -/
lemma readable_stepInFront {up : Bool} (ha : Gap a) (hbegins : Begins .prefixed t)
    (h : Readable .prefixed p t) :
    Readable .prefixed (.update ⟨true, up⟩ p loc)
      ((UpdateOperator.symbol ⟨true, up⟩).toList ++ (a ++ t)) := by
  intro room rest hrest
  obtain ⟨e, he, hread⟩ := h (roomInside room .sign) rest hrest
  simp only [List.append_assoc]
  have hstep := reads_updateOperator ⟨true, up⟩ (a ++ (t ++ rest))
  refine ⟨.update ⟨true, up⟩ e
    ⟨((UpdateOperator.symbol ⟨true, up⟩).toList ++ (a ++ (t ++ rest))).length, rest.length⟩,
    he.update, leads_operandWithin fun inside hroom => ?_⟩
  subst hroom
  refine Leads.rule ((reads_left _).becomes.trans_leads (hstep.optional.becomes.trans_leads ?_))
  refine (ha.reads_skip (hbegins.solid.append rest)).becomes.trans_leads ?_
  exact hread.bind.trans_reads ((reads_left rest).bind (reads_pure _ rest))

/-- A sign is read after no step was found there. That needs the white space behind the sign, since
two signs in a row may be a step. -/
lemma readable_unary {op : UnaryOperator} (ha : Gap a) (hbegins : Begins .prefixed t)
    (h : Readable .prefixed p t) :
    Readable .prefixed (.unary op p loc) (op.symbol.toList ++ (a ++ t)) := by
  intro room rest hrest
  obtain ⟨e, he, hread⟩ := h (roomInside room .sign) rest hrest
  simp only [List.append_assoc]
  have hstep := fails_updateOperator_of_unary op ha (t ++ rest)
  have hsign := reads_unaryOperator op (a ++ (t ++ rest))
  refine ⟨.unary op e ⟨(op.symbol.toList ++ (a ++ (t ++ rest))).length, rest.length⟩, he.unary,
    leads_operandWithin fun inside hroom => ?_⟩
  subst hroom
  refine Leads.rule ((reads_left _).becomes.trans_leads ?_)
  refine hstep.optional.becomes.trans_leads (hsign.optional.becomes.trans_leads ?_)
  refine (ha.reads_skip (hbegins.solid.append rest)).becomes.trans_leads ?_
  exact hread.bind.trans_reads ((reads_left rest).bind (reads_pure _ rest))

end Steps

/-! ## Binary operators -/

section Chains

variable {l : Precedence} {p q : Pattern} {t u a b : List Char} {loc : Span}

/-- An operand of a chain is at the head of the loop over tails once it has been read. -/
lemma Closed.readable (hl : l.IsBinary) (h : Closed l.tighter p t) : Readable l p t := by
  rw [readable_iff_chain hl]
  intro room rest hrest
  obtain ⟨e, he, hread⟩ := h room rest hrest
  exact ⟨e, he, hread.bind⟩

/-- The tail of an operator is read by the level of the operator. -/
lemma leads_tail (op : BinaryOperator) {operand : Reader Surface} {s rest : List Char} {e : Surface}
    (ha : Gap a) (hb : Gap b) (hs : Solid s)
    (h : Leads (op.precedence.tighter.reader operand) s (pure e) rest) :
    Leads (op.precedence.tail operand) (a ++ (op.symbol.toList ++ (b ++ s)))
      (pure (.operator op e rest.length)) rest := by
  have hsolid : Solid (op.symbol.toList ++ (b ++ s)) := by
    cases op <;> exact ⟨_, _, rfl, by decide⟩
  have htail : Leads
      (operatorTail (operator (table op.precedence)) (op.precedence.tighter.reader operand))
      (a ++ (op.symbol.toList ++ (b ++ s))) (pure (.operator op e rest.length)) rest := by
    refine Leads.rule
      ((ha.reads_skip hsolid).becomes.trans_leads ((reads_symbol op hb s).becomes.trans_leads ?_))
    refine (hb.reads_skip hs).becomes.trans_leads (h.bind.trans_reads ?_)
    exact (reads_left rest).bind (reads_pure _ rest)
  have htest : Fails typeTestTail (a ++ (op.symbol.toList ++ (b ++ s))) := by
    refine Fails.rule ((ha.reads_skip hsolid).bind_fails (Fails.bind ?_))
    cases op <;> exact fails_word_cons (by rfl) (by decide)
  -- only the relational level looks for a type test before its operators
  cases op with
  | eq | ne | shl | shr | ushr | add | sub | mul | div | rem => exact htail
  | ge | gt | le | lt => exact (htest.orElse_becomes.trans_leads htail).rule

/-- An operator and its right operand are one more tail behind the left operand. Since the left
operand has come to the head of the loop, a chain associates to the left. -/
lemma readable_binary {op : BinaryOperator} (ha : Gap a) (hb : Gap b)
    (hbegins : Begins op.precedence.tighter u) (h : Readable op.precedence p t)
    (h' : Closed op.precedence.tighter q u) :
    Readable op.precedence (.binary op p q loc) (t ++ (a ++ (op.symbol.toList ++ (b ++ u)))) := by
  rw [readable_iff_chain op.isBinary_precedence] at h ⊢
  intro c rest hrest
  obtain ⟨e, he, hread⟩ :=
    h c (a ++ (op.symbol.toList ++ (b ++ (u ++ rest)))) (ha.stops (blocks_symbol op hb _))
  obtain ⟨e', he', hread'⟩ := h' c rest hrest
  have htail := leads_tail op ha hb (hbegins.solid.append rest) hread'
  refine ⟨Tail.attach e (.operator op e' rest.length), he.binary he', ?_⟩
  simp only [List.append_assoc]
  refine hread.trans (leads_tailsFrom htail ?_ e)
  have hgap := List.length_pos_of_ne_nil ha.1
  simp only [List.length_append]
  omega

/-- A type test is one more tail, and the name of the type is its right operand. -/
lemma readable_typeTest {name : String} (ha : Gap a) (hb : Gap b) (hn : IsName name)
    (h : Readable .relational p t) :
    Readable .relational (.typeTest p name loc)
      (t ++ (a ++ ("instanceof".toList ++ (b ++ name.toList)))) := by
  intro c rest hrest
  obtain ⟨e, he, hread⟩ := h c (a ++ ("instanceof".toList ++ (b ++ (name.toList ++ rest))))
    (ha.stops (blocks_instanceof _))
  have hname := reads_identifier hn (inky_isNameChar.halts hrest.apart)
  have htest : Reads typeTestTail (a ++ ("instanceof".toList ++ (b ++ (name.toList ++ rest))))
      (.typeTest name rest.length) rest := by
    refine Reads.rule
      ((ha.reads_skip ⟨_, _, rfl, by decide⟩).bind ((reads_word "instanceof" _).bind ?_))
    -- A gap follows the word, so it is not the start of a longer name.
    refine (fails_nameChar (inky_isNameChar.halts (hb.apart _))).butNot.bind
      ((hb.reads_skip (hn.1.solid rest)).bind ?_)
    exact hname.bind ((reads_left rest).bind (reads_pure _ rest))
  have htail :
      Reads (Precedence.relational.tail (operandWithin c)) _ (.typeTest name rest.length) rest :=
    htest.orElse.rule
  refine ⟨Tail.attach e (.typeTest name rest.length), he.typeTest, ?_⟩
  simp only [List.append_assoc]
  refine hread.trans_becomes (htail.many_foldl ?_)
  have hgap := List.length_pos_of_ne_nil ha.1
  simp only [List.length_append]
  omega

end Chains

/-! ## Every text -/

/-- Every text that writes a pattern is read as its level asks. The induction is on how the text is
written; each way of writing has its lemma above, and a text of a tighter level is passed on to the
looser one. -/
lemma Written.readable {l : Precedence} {p : Pattern} {t : List Char} (h : Written l p t) :
    Readable l p t := by
  -- The induction is on how the pattern is written; each case has its lemma, but for those that are
  -- read at once.
  induction h with
  | @tighter l p t ht ih =>
    cases l with
    | equality | relational | shift | additive | multiplicative =>
      exact (ih.closed (by decide)).readable (by decide)
    | prefixed => exact ih.prefixed ht.begins
    | stepped => exact ih.stepped
    | selected => exact ih
  | grouped ha hb ht ih => exact readable_grouped ha hb ht.begins.solid (ih.closed (by decide))
  | wildcard =>
    refine readable_of_reads fun _ rest hrest => ?_
    obtain ⟨x, hread⟩ := reads_wildcard hrest.apart
    exact ⟨_, ⟨rfl, fun _ => ⟨_, rfl, rfl⟩⟩, hread⟩
  | @reference name _ hn hmark =>
    refine readable_of_reads fun _ rest hrest => ?_
    obtain ⟨x, hread⟩ := reads_reference hn hmark hrest.apart (hrest.noArguments _)
    exact ⟨.reference name x, .reference, hread⟩
  | literal ht => exact readable_literal ht
  | @anyLiteral type _ _ hw =>
    refine readable_of_reads fun _ rest _ => ?_
    obtain ⟨x, hread⟩ := reads_anyLiteral hw rest
    refine ⟨.anyLiteral type x, ⟨rfl, fun _ => ⟨_, rfl, beq_self_eq_true type⟩⟩, ?_⟩
    simpa only [List.cons_append, List.append_assoc, List.nil_append] using hread
  | anyLambda =>
    refine readable_of_reads fun _ rest _ => ?_
    obtain ⟨x, hread⟩ := reads_anyLambda rest
    exact ⟨_, ⟨rfl, fun _ => ⟨_, rfl, rfl⟩⟩, hread⟩
  | null =>
    refine readable_of_reads fun _ rest hrest => ?_
    obtain ⟨x, hread⟩ := reads_valueNode (w := "null") (by decide) hrest.apart
    exact ⟨_, ⟨rfl, fun _ => ⟨_, rfl, rfl⟩⟩, hread⟩
  | this =>
    refine readable_of_reads fun _ rest hrest => ?_
    obtain ⟨x, hread⟩ := reads_valueNode (w := "this") (by decide) hrest.apart
    exact ⟨_, ⟨rfl, fun _ => ⟨_, rfl, rfl⟩⟩, hread⟩
  | field ha hb hn _ ih => exact readable_field ha hb hn ih
  | method ha hb hn _ hargs hxs ih ihxs =>
    exact readable_method ha hb hn ih hargs fun x hx =>
      ⟨(hxs x hx).begins, (ihxs x hx).closed (by decide)⟩
  | element ha hb hc hphrase _ hindex ih ih' =>
    exact readable_element ha hb hc hphrase ih hindex.begins hindex.guarded (ih'.closed (by decide))
  | call hn hmark hargs hxs ihxs =>
    refine readable_of_leads fun inside rest _ => ?_
    obtain ⟨es, hes, hall⟩ :=
      hargs.leads (fun x hx => ⟨(hxs x hx).begins, (ihxs x hx).closed (by decide)⟩)
        (inside .call) rest
    have hcalled : Leads (arguments ((nestedWithin inside).expression .call)) _ _ rest := hall
    obtain ⟨x, hread⟩ := leads_call hn hmark (hargs.apart rest) hcalled
    exact ⟨_, .call hes, by rwa [List.append_assoc]⟩
  | creation hg hn hargs hxs ihxs =>
    refine readable_of_leads fun inside rest _ => ?_
    obtain ⟨es, hes, hall⟩ :=
      hargs.leads (fun x hx => ⟨(hxs x hx).begins, (ihxs x hx).closed (by decide)⟩)
        (inside .creation) rest
    have hcreated : Leads (arguments ((nestedWithin inside).expression .creation)) _ _ rest := hall
    obtain ⟨x, hread⟩ := leads_creation hn hg (hargs.apart rest) hcreated
    exact ⟨_, .creation hes, by simpa only [List.append_assoc] using hread⟩
  | stepBehind ha _ ih => exact readable_stepBehind ha ih
  | stepInFront ha ht ih => exact readable_stepInFront ha ht.begins ih
  | unary ha ht ih => exact readable_unary ha ht.begins ih
  | @binary op _ _ _ _ _ _ _ ha hb _ ht ih ih' =>
    refine readable_binary ha hb ht.begins ih (ih'.closed ?_)
    cases op <;> decide
  | typeTest ha hb hn _ ih => exact readable_typeTest ha hb hn ih

/-! ## Compiling -/

/-- The context that a suffix asks for, and whether in its negated form. Without a suffix every
context will do. -/
def suffixContext (suffix : Option (Context × Bool)) : Context × Bool :=
  suffix.getD (.any, false)

lemma ofReply_ok {text : List Char} {e : Surface} {suffix : Option (Context × Bool)}
    {rest : List Char} {mark : Nat} {q : Pattern} (hq : resolve text e = .ok q) :
    ofReply text (.ok (e, suffix) rest mark) =
      .ok { expression := q, context := (suffixContext suffix).1,
            negated := (suffixContext suffix).2 } := by
  rw [ofReply, hq]
  cases suffix with
  | none => rfl
  | some found => rfl

/-- A text that is read as a pattern and its context compiles to that. -/
theorem compileChars_of_reads {room : Room Opening} {text : List Char} {e : Surface}
    {suffix : Option (Context × Bool)} {k : Kind} (h : Reads (whole room) text (e, suffix) [])
    (he : Means e k.expression) (hk : suffixContext suffix = (k.context, k.negated)) :
    ∃ j, compileChars room text = .ok j ∧ j.same k = true := by
  obtain ⟨mark, hread⟩ := h text.length
  obtain ⟨q, hq, hsame⟩ := he.2 text
  refine ⟨_, by rw [compileChars, hread]; exact ofReply_ok hq, ?_⟩
  simp [Kind.same, hsame, hk]

/-- A text that is read or sinks compiles or sinks. -/
lemma compileChars_of_leads {room : Room Opening} {text : List Char} {e : Surface}
    {suffix : Option (Context × Bool)} (h : Leads (whole room) text (pure (e, suffix)) [])
    {k : Kind} (he : Means e k.expression) (hk : suffixContext suffix = (k.context, k.negated)) :
    (∃ j, compileChars room text = .ok j ∧ j.same k = true) ∨ Sinks (whole room) text :=
  h.imp (fun hread => compileChars_of_reads hread he hk) fun hdeep => hdeep

/-- The fault that reports that a text is nested too deeply. It lies at the start of the text and
shows its first characters. -/
def depthFault (text : String) : Fault :=
  CompileError.fault { cause := .tooDeep, token := text.toList.take tokenWidth, start := 0,
                       stop := 0 } text.toList

lemma compileIn_of_sinks {room : Room Opening} {text : String}
    (h : Sinks (whole room) text.toList) :
    compileIn room text = .error (depthFault text) := by
  rw [compileIn, compileChars, h text.toList.length]
  rfl

/-- A text is nested too deeply only where there is no room for one level more than it can have.
Every opening bracket and every sign is a level at most, and the text itself is one. -/
theorem not_holds_of_deep {room : Room Opening} {mark : Nat} {text : List Char}
    (hdeep : whole room mark text = .deep) :
    ¬ room.Holds (nesting text + 1) := by
  intro h
  have hread := balances_whole h mark text
  rw [hdeep] at hread
  exact Nat.not_succ_le_self _ hread

lemma not_sinks_whole {room : Room Opening} {text : List Char} (h : room.Holds (nesting text + 1)) :
    ¬ Sinks (whole room) text :=
  fun hdeep => not_holds_of_deep (hdeep text.length) h

/-- Blanks at the end of a text are skipped, and then the text has ended. -/
lemma reads_ending {α : Type} {b : List Char} (hb : ∀ c ∈ b, isBlank c = true) (a : α) :
    Reads (skip >>= fun _ => endOfText >>= fun _ => pure a) b a [] := by
  have hskip := reads_skip (s := []) hb (by simp [Halts])
  rw [List.append_nil] at hskip
  exact hskip.bind ((Reads.rule (reads_lexeme rfl)).bind (reads_pure a []))

/-- A whole text is read as its pattern and its context, with white space around both. -/
lemma Rendered.leads {k : Kind} {t : List Char} (h : Rendered k t) (room : Room Opening) :
    ∃ e suffix, Means e k.expression ∧ suffixContext suffix = (k.context, k.negated) ∧
      Leads (whole room) t (pure (e, suffix)) [] := by
  cases h with
  | @anywhere p a b t ha hb ht =>
    have hstops : Stops .equality b := by
      have hblank :=
        (blocks_nil .equality).stops hb (by rw [List.append_nil]; exact apart_of_all hb)
      rwa [List.append_nil] at hblank
    obtain ⟨e, he, hread⟩ := ht.readable.closed (by decide) room b hstops
    have hblank : Reads skip b () [] := by
      have hskip := reads_skip (s := []) hb (by simp [Halts])
      rwa [List.append_nil] at hskip
    have hsuffix : Fails contextSuffix [] := (fails_word_nil (by rfl)).bind.rule
    refine ⟨e, none, he, rfl, ?_⟩
    refine Leads.rule ((reads_skip ha (ht.begins.solid.append b).halts).becomes.trans_leads ?_)
    exact hread.bind.trans_reads (hblank.bind (hsuffix.optional.bind (reads_ending (by simp) _)))
  -- the blank in front of the suffix stops the pattern, and the phrase is no selector
  | @suffixed p context negated a b g h k t u ha hb hg hh hk hphrase ht =>
    have hstops := hg.stops (hphrase.blocks hh hk b .equality)
    obtain ⟨e, he, hread⟩ := ht.readable.closed (by decide) room _ hstops
    have hsuffix := hphrase.reads_suffix hh hk b
    refine ⟨e, some (context, negated), he, rfl, ?_⟩
    refine Leads.rule ((reads_skip ha (ht.begins.solid.append _).halts).becomes.trans_leads ?_)
    refine hread.bind.trans_reads ((hg.reads_skip ⟨_, _, rfl, by decide⟩).bind ?_)
    exact hsuffix.optional.bind (reads_ending hb _)

/-- A text that writes a kind compiles to it, or it sinks. -/
lemma Rendered.compileChars {k : Kind} {t : List Char} (h : Rendered k t) (room : Room Opening) :
    (∃ j, compileChars room t = .ok j ∧ j.same k = true) ∨ Sinks (whole room) t := by
  obtain ⟨e, suffix, he, hk, hread⟩ := h.leads room
  exact compileChars_of_leads hread he hk

/-- **Compiling undoes writing.** Every text that writes a kind compiles to a kind equal to it, or
it is nested too deeply and that is what the failure says. How much room there is and what each
level takes of it is left open. A text is not nested too deeply where there is room for one level
more than it has opening brackets and signs. -/
theorem compile_rendered (room : Room Opening) {k : Kind} {text : String}
    (h : Rendered k text.toList) :
    (∃ j, compileIn room text = .ok j ∧ j.same k = true) ∨
    (∃ fault, compileIn room text = .error fault ∧ fault.message = "pattern nested too deeply") ∧
      ¬ room.Holds (nesting text.toList + 1) := by
  refine (h.compileChars room).imp (fun hok => ?_) fun hdeep => ?_
  · obtain ⟨j, hj, hsame⟩ := hok
    exact ⟨j, by rw [compileIn, hj]; rfl, hsame⟩
  · exact ⟨⟨_, compileIn_of_sinks hdeep, rfl⟩, fun hroom => not_sinks_whole hroom hdeep⟩

/-- What `- 0x1F == y [ ( conditional ) ] [ ! discarded ]` writes. It has a literal, a sign, an
operator, a selector and a suffix. -/
def signedEquality : Kind where
  expression := .binary .eq (.unary .minus (.literal ⟨.int, .int 31⟩ {}) {})
    (.element (.reference "y" {}) (.reference "conditional" {}) {}) {}
  context := .discarded
  negated := true

/-- An operator, a sign, a literal, an index and a context at once. The index would read as a
context suffix without its parentheses. -/
theorem compile_rendered_signedEquality :
    Rendered signedEquality "- 0x1F == y [ ( conditional ) ] [ ! discarded ]".toList ∧
      ∃ j, compile "- 0x1F == y [ ( conditional ) ] [ ! discarded ]" = .ok j ∧
        j.same signedEquality = true := by
  have hspace : Gap [' '] := by decide
  have hliteral : Written .selected (.literal ⟨.int, .int 31⟩ {}) "0x1F".toList :=
    .literal (.integer (i := 31) (.hexadecimal (.inl rfl) (by decide) (by decide))
      (by decide) (by decide))
  have hsign : Written .prefixed (.unary .minus (.literal ⟨.int, .int 31⟩ {}) {}) "- 0x1F".toList :=
    .unary hspace (hliteral.loosen (by decide))
  have hindex : Written .selected (.reference "conditional" {}) "( conditional )".toList :=
    .grouped hspace hspace ((Written.reference (by decide) (by decide)).loosen (by decide))
  -- In parentheses the word is an index, though it would be a context suffix without them.
  have hno : ∀ context negated, ¬ ContextPhrase context negated "( conditional )".toList := by
    intro context negated hphrase
    obtain ⟨d, v, hd, hmem⟩ := hphrase.head
    obtain rfl : '(' = d := (List.cons.inj hd).1
    exact absurd hmem (by decide)
  have helement : Written .selected (.element (.reference "y" {}) (.reference "conditional" {}) {})
      "y [ ( conditional ) ]".toList :=
    .element hspace hspace hspace hno (.reference (by decide) (by decide))
      (hindex.loosen (by decide))
  have hequal :
      Written .equality signedEquality.expression "- 0x1F == y [ ( conditional ) ]".toList :=
    @Written.binary .eq _ _ _ _ _ _ _ hspace hspace (hsign.loosen (by decide))
      (helement.loosen (by decide))
  have h : Rendered signedEquality "- 0x1F == y [ ( conditional ) ] [ ! discarded ]".toList :=
    .suffixed (a := []) (b := []) (by simp) (by simp) hspace hspace hspace
      (.negated .discarded hspace) hequal
  have hroom :
      stackRoom.Holds (nesting "- 0x1F == y [ ( conditional ) ] [ ! discarded ]".toList + 1) :=
    holds_stackRoom.mono (by decide)
  exact ⟨h, (compile_rendered stackRoom h).resolve_right fun hdeep => hdeep.2 hroom⟩

/-- A text with so many redundant parentheses around it, each with a blank inside. -/
def parenthesised : Nat → List Char → List Char
  | 0, t => t
  | m + 1, t => '(' :: ([' '] ++ (parenthesised m t ++ ([' '] ++ [')'])))

lemma written_parenthesised {p : Pattern} {t : List Char} (h : Written .selected p t) (m : Nat) :
    Written .selected p (parenthesised m t) := by
  induction m with
  | zero => exact h
  | succ m ih =>
    have hspace : Gap [' '] := by decide
    exact .grouped hspace hspace (ih.loosen (by decide))

/-- Parentheses do not change what is written. -/
lemma rendered_parenthesised {name : String} (hn : IsName name) (hmark : name ≠ "_") (m : Nat) :
    Rendered { expression := .reference name {} } (parenthesised m name.toList) := by
  have hwritten : Written .equality (.reference name {}) (parenthesised m name.toList) :=
    (written_parenthesised (.reference hn hmark) m).loosen (by decide)
  have h := Rendered.anywhere (a := []) (b := []) (by simp) (by simp) hwritten
  rwa [List.append_nil] at h

/-- However much room there is, enough parentheses are nested too deeply for it. -/
lemma exists_sinks_parenthesised {p : Pattern} {t : List Char} (h : Written .selected p t)
    (room : Room Opening) :
    ∃ m, ∀ rest, Sinks (expression room) (parenthesised m t ++ rest) := by
  induction room with
  | none => exact ⟨0, fun _ => sinks_expression_none _⟩
  | more inside ih =>
    -- One pair of parentheses more than sinks inside of a group.
    obtain ⟨m, hsinks⟩ := ih .group
    refine ⟨m + 1, fun rest => Sinks.expressionOver ?_⟩
    have hspace : Gap [' '] := by decide
    have hsolid := (written_parenthesised h m).begins.solid.append ([' '] ++ [')'] ++ rest)
    have hstep := fails_updateOperator_of_head (c := '(') (by decide) (by decide)
      ([' '] ++ (parenthesised m t ++ ([' '] ++ [')'] ++ rest)))
    have hsign := fails_unaryOperator_of_head (c := '(') (by decide) (by decide) (by decide)
      ([' '] ++ (parenthesised m t ++ ([' '] ++ [')'] ++ rest)))
    have hgroup : Sinks (grouped (expression (inside .group)))
        ('(' :: ([' '] ++ (parenthesised m t ++ ([' '] ++ [')'] ++ rest)))) := by
      refine Sinks.rule
        ((reads_word "(" _).becomes.sinks ((hspace.reads_skip hsolid).becomes.sinks ?_))
      exact (hsinks _).bind
    have hselected : Sinks (selected (nestedWithin inside))
        ('(' :: ([' '] ++ (parenthesised m t ++ ([' '] ++ [')'] ++ rest)))) :=
      Sinks.rule ((reads_left _).becomes.sinks hgroup.orElse.rule.bind)
    rw [parenthesised, List.cons_append, List.append_assoc, List.append_assoc]
    refine Sinks.rule ((reads_left _).becomes.sinks (hstep.optional.becomes.sinks ?_))
    exact hsign.optional.becomes.sinks hselected

/-- There is no room in which every text that writes a kind compiles: some are nested too deeply,
however much room there is. -/
theorem not_compile_of_rendered : ¬ ∃ room : Room Opening,
    ∀ (k : Kind) (text : String), Rendered k text.toList →
      ∃ j, compileIn room text = .ok j ∧ j.same k = true := by
  rintro ⟨room, hall⟩
  have hname : Written .selected (.reference "x" {}) "x".toList :=
    .reference (by decide) (by decide)
  -- Any room is used up by parentheses, and they change nothing of what is written.
  obtain ⟨m, hsinks⟩ := exists_sinks_parenthesised hname room
  have hrendered : Rendered { expression := .reference "x" {} } (parenthesised m "x".toList) :=
    rendered_parenthesised (by decide) (by decide) m
  rw [← String.toList_ofList (l := parenthesised m "x".toList)] at hrendered
  obtain ⟨j, hj, -⟩ := hall _ _ hrendered
  have hsolid := (written_parenthesised hname m).begins.solid
  have hdeep : Sinks (whole room) (String.ofList (parenthesised m "x".toList)).toList := by
    rw [String.toList_ofList]
    have hskip := reads_skip (a := []) (by simp) hsolid.halts
    have hexpression := hsinks []
    rw [List.append_nil] at hexpression
    exact Sinks.rule (hskip.becomes.sinks hexpression.bind)
  rw [compileIn_of_sinks hdeep] at hj
  cases hj

end Pattern

end ShapeLint
