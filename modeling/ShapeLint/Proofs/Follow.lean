import ShapeLint.Proofs.Reading
import ShapeLint.Proofs.Rendering

/-!
# What may follow an operand

An operand is read as far as it goes, so what follows it decides where it ends. `Stops l s` says
that no reader of the level `l`, or of a tighter one, reads on at `s`. The tokens that follow an
operand in a pattern stop all the levels that they should: an operator stops the levels that are
tighter than its own, and a closing bracket, a comma, a context suffix and the end of the text stop
them all.
-/

namespace ShapeLint

open Grammar Grammar.Reader
open Text (isBlank isNameChar)

/-! ## The readers of the levels -/

namespace Precedence

/-- The reader of expressions of a level over a reader of operands. The levels of prefix operators
and tighter have one reader, which is that of the operands. -/
def reader (operand : Reader Surface) : Precedence → Reader Surface
  | equality => expressionOver operand
  | relational => Grammar.relational operand
  | shift => Grammar.shift operand
  | additive => Grammar.additive operand
  | multiplicative => Grammar.multiplicative operand
  | _ => operand

/-- The reader of what continues an expression of a level; only binary operators and type tests do.
Its right operand is read at the next tighter level. -/
def tail (operand : Reader Surface) : Precedence → Reader Tail
  | equality => operatorTail equalityOperator (Grammar.relational operand)
  | relational =>
    rule (orElse typeTestTail (operatorTail comparisonOperator (Grammar.shift operand)))
  | shift => operatorTail shiftOperator (Grammar.additive operand)
  | additive => operatorTail additiveOperator (Grammar.multiplicative operand)
  | multiplicative => operatorTail multiplicativeOperator operand
  | _ => fun mark _ => .fail mark

/-- Whether binary operators have the level. These are the levels whose readers are chains. -/
def IsBinary (l : Precedence) : Prop :=
  l.rank ≤ 4

instance (l : Precedence) : Decidable l.IsBinary :=
  inferInstanceAs (Decidable (l.rank ≤ 4))

/-- An expression of a level with binary operators is an operand of the next tighter level and a
chain of tails. The five levels are read in the same way, so what holds of chains is proved once and
not for each of them. -/
lemma reader_eq_chain {l : Precedence} (h : l.IsBinary) (operand : Reader Surface) :
    l.reader operand = chain (l.tighter.reader operand) (l.tail operand) := by
  cases l with
  | equality | relational | shift | additive | multiplicative => rfl
  | prefixed | stepped | selected => exact absurd h (by decide)

/-- What holds of operands, and of the reader of a level if it holds of that of the next tighter
one, holds of the readers of all levels. -/
lemma reader_induction {motive : Reader Surface → Prop} {operand : Reader Surface}
    (hoperand : motive operand)
    (hlevel : ∀ l : Precedence, l.IsBinary → motive (l.tighter.reader operand) →
      motive (l.reader operand)) (l : Precedence) :
    motive (l.reader operand) := by
  have hproduct := hlevel .multiplicative (by decide) hoperand
  have hsum := hlevel .additive (by decide) hproduct
  have hshift := hlevel .shift (by decide) hsum
  have hcomparison := hlevel .relational (by decide) hshift
  cases l with
  | equality => exact hlevel .equality (by decide) hcomparison
  | relational => exact hcomparison
  | shift => exact hshift
  | additive => exact hsum
  | multiplicative => exact hproduct
  | prefixed | stepped | selected => exact hoperand

lemma rank_le_tighter (l : Precedence) : l.rank ≤ l.tighter.rank := by
  cases l <;> decide

end Precedence

lemma BinaryOperator.isBinary_precedence (op : BinaryOperator) : op.precedence.IsBinary := by
  cases op <;> decide

namespace Grammar

/-! ## Blanks and words -/

/-- A text that starts with a character that is not blank, as every token does. White space in front
of it is skipped up to there. -/
def Solid (s : List Char) : Prop :=
  ∃ c t, s = c :: t ∧ isBlank c = false

lemma Solid.append {s : List Char} (h : Solid s) (t : List Char) : Solid (s ++ t) := by
  obtain ⟨c, u, rfl, hc⟩ := h
  exact ⟨c, u ++ t, rfl, hc⟩

lemma Solid.halts {s : List Char} (h : Solid s) : Halts isBlank s := by
  obtain ⟨c, t, rfl, hc⟩ := h
  exact halts_cons hc t

lemma reads_skip {a s : List Char} (ha : ∀ c ∈ a, isBlank c = true) (hs : Halts isBlank s) :
    Reads skip (a ++ s) () s := by
  intro mark
  exact ⟨mark, by rw [skip, dropWhile_append_of_halts ha hs]⟩

lemma Gap.reads_skip {a s : List Char} (ha : Gap a) (hs : Solid s) : Reads skip (a ++ s) () s :=
  Grammar.reads_skip ha.2 hs.halts

/-- A word is not there if the text starts with another character than the word. -/
lemma fails_word_cons {w : String} {c d : Char} {cs s : List Char}
    (hw : w.toList = c :: cs) (h : c ≠ d) :
    Fails (word w) (d :: s) :=
  fails_word (by rw [hw, afterWord?, if_neg h])

lemma fails_word_nil {w : String} {c : Char} {cs : List Char} (hw : w.toList = c :: cs) :
    Fails (word w) [] :=
  fails_word (by rw [hw, afterWord?])

/-! ## Operators -/

/-- Whether an entry of a table of operators is at the front of a text. Some symbols must not be
followed by a certain character, as a sum sign by another one. -/
def fits (s : List Char) (entry : String × Option Char × BinaryOperator) : Bool :=
  entry.1.toList.isPrefixOf s && (entry.2.1.isNone || (s.drop entry.1.length).head? != entry.2.1)

lemma operator_eq (table : List (String × Option Char × BinaryOperator)) :
    operator table = rule (lexeme fun s => table.findSome? fun entry =>
      if fits s entry then some (entry.2.2, s.drop entry.1.length) else none) :=
  rfl

/-- The first entry of a table that fits is the operator that is read. So it matters that longer
symbols stand in front of those that they begin with. -/
lemma reads_operator {table : List (String × Option Char × BinaryOperator)} {s : List Char}
    {symbol : String} {follow? : Option Char} {op : BinaryOperator}
    (h : table.find? (fits s) = some (symbol, follow?, op)) :
    Reads (operator table) s op (s.drop symbol.length) := by
  rw [operator_eq]
  refine Reads.rule (reads_lexeme ?_)
  obtain ⟨hfits, before, after, rfl, hbefore⟩ := List.find?_eq_some_iff_append.mp h
  -- the entries in front of it do not fit and give nothing
  have hnone : before.findSome? (fun entry =>
      if fits s entry then some (entry.2.2, s.drop entry.1.length) else none) = none := by
    refine List.findSome?_eq_none_iff.mpr fun entry hmem => ?_
    have hno : fits s entry = false := by simpa using hbefore entry hmem
    rw [hno, if_neg Bool.false_ne_true]
  rw [List.findSome?_append, hnone, Option.none_or, List.findSome?_cons, if_pos hfits]

lemma fails_operator {table : List (String × Option Char × BinaryOperator)} {s : List Char}
    (h : ∀ entry ∈ table, fits s entry = false) : Fails (operator table) s := by
  rw [operator_eq]
  refine Fails.rule (fails_lexeme ?_)
  rw [List.findSome?_eq_none_iff]
  intro entry hmem
  rw [h entry hmem, if_neg Bool.false_ne_true]

/-- The table of the operators of a level, which the reader of the level goes through in order. -/
def table : Precedence → List (String × Option Char × BinaryOperator)
  | .equality => [("==", none, .eq), ("!=", none, .ne)]
  | .relational =>
    [("<=", none, .le), (">=", none, .ge), ("<", some '<', .lt), (">", some '>', .gt)]
  | .shift => [(">>>", none, .ushr), ("<<", none, .shl), (">>", none, .shr)]
  | .additive => [("+", some '+', .add), ("-", some '-', .sub)]
  | .multiplicative => [("*", none, .mul), ("/", none, .div), ("%", none, .rem)]
  | _ => []

/-- Whether there is no blank in an entry of a table, neither in the symbol nor as the character
that must not follow. -/
def isPlain (entry : String × Option Char × BinaryOperator) : Bool :=
  entry.1.toList.all (!isBlank ·) && entry.2.1.all (!isBlank ·)

lemma isPlain_of_mem {l : Precedence} {entry : String × Option Char × BinaryOperator}
    (h : entry ∈ table l) :
    isPlain entry = true := by
  have hall : (table l).all isPlain = true := by cases l <;> decide
  exact List.all_eq_true.mp hall entry h

lemma ne_of_blank {c d : Char} (hc : isBlank c = false) (hd : isBlank d = true) : c ≠ d := by
  rintro rfl
  rw [hc] at hd
  cases hd

lemma head?_append_blank {follow? : Option Char} (h : ∀ c ∈ follow?, isBlank c = false) {d : Char}
    (hd : isBlank d = true) (v t : List Char) :
    ((v ++ d :: t).head? != follow?) = ((v ++ [' ']).head? != follow?) := by
  cases v with
  | nil =>
    have hne : ∀ {b : Char}, isBlank b = true → (some b != follow?) = true := by
      intro b hb
      refine bne_iff_ne.mpr ?_
      rintro rfl
      exact ne_of_blank (h b rfl) hb rfl
    exact (hne hd).trans (hne rfl).symm
  | cons c v => rfl

/-- Whether a word is at the front of a text, and is not followed by a certain character, does not
depend on what comes after the first blank of the text, as there is no blank in the word. -/
lemma isPrefixOf_append_blank {w : List Char} (hw : ∀ c ∈ w, isBlank c = false)
    {follow? : Option Char} (h : ∀ c ∈ follow?, isBlank c = false) {d : Char}
    (hd : isBlank d = true) (v t : List Char) :
    (w.isPrefixOf (v ++ d :: t) &&
      (follow?.isNone || ((v ++ d :: t).drop w.length).head? != follow?)) =
      (w.isPrefixOf (v ++ [' ']) &&
        (follow?.isNone || ((v ++ [' ']).drop w.length).head? != follow?)) := by
  induction w generalizing v with
  | nil =>
    rw [List.length_nil, List.drop_zero, List.drop_zero, head?_append_blank h hd]
    rfl
  | cons c w ih =>
    cases v with
    | nil =>
      -- The word would have to go on with a blank.
      have hne : ∀ {b : Char}, isBlank b = true → (c == b) = false :=
        fun hb => beq_eq_false_iff_ne.mpr (ne_of_blank (hw c (List.mem_cons_self ..)) hb)
      rw [List.nil_append, List.nil_append, List.isPrefixOf, List.isPrefixOf, hne hd, hne rfl]
      rfl
    | cons b v =>
      have hrest := ih (fun d hd => hw d (List.mem_cons_of_mem c hd)) v
      simp only [List.cons_append, List.isPrefixOf, List.length_cons, List.drop_succ_cons,
        Bool.and_assoc, hrest]

/-- To an entry without a blank it does not matter which blank there is, nor what follows the blank.
So whether an operator is read in front of a gap can be decided once and for all with a single
space. -/
lemma fits_append_blank {entry : String × Option Char × BinaryOperator}
    (h : isPlain entry = true) {d : Char} (hd : isBlank d = true) (v t : List Char) :
    fits (v ++ d :: t) entry = fits (v ++ [' ']) entry := by
  simp only [isPlain, Bool.and_eq_true, List.all_eq_true, Option.all_eq_true,
    Bool.not_eq_true'] at h
  rw [fits, fits, ← String.length_toList]
  exact isPrefixOf_append_blank h.1 h.2 hd v t

/-- Every operator is read by the table of its level, whatever white space and text follow it. -/
theorem reads_symbol (op : BinaryOperator) {b : List Char} (hb : Gap b) (s : List Char) :
    Reads (operator (table op.precedence)) (op.symbol.toList ++ (b ++ s)) op (b ++ s) := by
  obtain ⟨d, b, rfl⟩ := List.exists_cons_of_ne_nil hb.1
  have hd : isBlank d = true := hb.2 d (List.mem_cons_self ..)
  -- each operator is looked up in front of a single space, and any other gap makes no difference
  obtain ⟨follow?, hfind⟩ :
    ∃ follow?, (table op.precedence).find? (fits (op.symbol.toList ++ [' '])) =
      some (op.symbol, follow?, op) := by
    cases op <;> exact ⟨_, rfl⟩
  have hsame : (table op.precedence).find? (fits (op.symbol.toList ++ (d :: b ++ s))) =
      (table op.precedence).find? (fits (op.symbol.toList ++ [' '])) := by
    rw [← List.head?_filter, ← List.head?_filter]
    exact congrArg List.head? (List.filter_congr fun entry hmem =>
      fits_append_blank (isPlain_of_mem hmem) hd _ (b ++ s))
  have hread := reads_operator (hsame.trans hfind)
  rwa [← String.length_toList, List.drop_left] at hread

/-- No operator is read by the table of a tighter level: that is why an operand ends in front of
it. -/
lemma fits_symbol_of_tighter (op : BinaryOperator) {b : List Char} (hb : Gap b) (s : List Char)
    {l : Precedence} (hl : op.precedence.rank < l.rank) :
    ∀ entry ∈ table l, fits (op.symbol.toList ++ (b ++ s)) entry = false := by
  obtain ⟨d, b, rfl⟩ := List.exists_cons_of_ne_nil hb.1
  have hd : isBlank d = true := hb.2 d (List.mem_cons_self ..)
  have hnone : ∀ entry ∈ table l, fits (op.symbol.toList ++ [' ']) entry = false := by
    revert hl
    cases op <;> cases l <;> decide
  intro entry hmem
  rw [List.cons_append, fits_append_blank (isPlain_of_mem hmem) hd, hnone entry hmem]

/-- The characters that operators start with. They are no first characters of any other token that
can follow an operand. -/
def operatorHeads : List Char :=
  ['=', '!', '<', '>', '+', '-', '*', '/', '%']

/-- Text that does not start like an operator has no operator at its front, at any level. -/
lemma fits_of_head {c : Char} (h : c ∉ operatorHeads) (s : List Char) (l : Precedence) :
    ∀ entry ∈ table l, fits (c :: s) entry = false := by
  -- every symbol of every table has a first character, and it is one of these
  have hheads : ∀ entry ∈ table l, ∃ d w, entry.1.toList = d :: w ∧ d ∈ operatorHeads := by
    have hall : ∀ entry ∈ table l, entry.1.toList.head?.any (operatorHeads.contains ·) = true := by
      cases l <;> decide
    intro entry hmem
    have hhead := hall entry hmem
    cases hw : entry.1.toList with
    | nil =>
      rw [hw] at hhead
      cases hhead
    | cons d w =>
      rw [hw] at hhead
      exact ⟨d, w, rfl, List.contains_iff_mem.mp hhead⟩
  intro entry hmem
  obtain ⟨d, w, hw, hd⟩ := hheads entry hmem
  have hne : (d == c) = false := beq_eq_false_iff_ne.mpr fun heq => h (heq ▸ hd)
  rw [fits, hw, List.isPrefixOf, hne, Bool.false_and, Bool.false_and]

lemma fits_nil (l : Precedence) : ∀ entry ∈ table l, fits [] entry = false := by
  cases l <;> decide

/-! ## Steps -/

lemma reads_updateOperator (op : UpdateOperator) (s : List Char) :
    Reads updateOperator (op.symbol.toList ++ s) op.up s := by
  obtain ⟨inFront, up⟩ := op
  cases up <;> exact Reads.rule (reads_lexeme (by simp [UpdateOperator.symbol]))

lemma fails_updateOperator {s : List Char} (hp : ∀ t, s ≠ '+' :: '+' :: t)
    (hm : ∀ t, s ≠ '-' :: '-' :: t) :
    Fails updateOperator s := by
  refine Fails.rule (fails_lexeme ?_)
  split
  · exact absurd rfl (hp _)
  · exact absurd rfl (hm _)
  · rfl

lemma fails_updateOperator_of_head {c : Char} (hp : c ≠ '+') (hm : c ≠ '-') (s : List Char) :
    Fails updateOperator (c :: s) :=
  fails_updateOperator (fun _ h => hp (List.cons.inj h).1) (fun _ h => hm (List.cons.inj h).1)

lemma reads_unaryOperator (op : UnaryOperator) (s : List Char) :
    Reads unaryOperator (op.symbol.toList ++ s) op s := by
  cases op <;> exact Reads.rule (reads_lexeme rfl)

lemma fails_unaryOperator_of_head {c : Char} (hp : c ≠ '+') (hm : c ≠ '-') (hn : c ≠ '!')
    (s : List Char) :
    Fails unaryOperator (c :: s) := by
  refine Fails.rule (fails_lexeme ?_)
  split
  · rename_i heq
    exact absurd (List.cons.inj heq).1 hp
  · rename_i heq
    exact absurd (List.cons.inj heq).1 hm
  · rename_i heq
    exact absurd (List.cons.inj heq).1 hn
  · rfl

/-- A prefix operator that a blank follows is no step. Steps are looked for first, and only the
blank tells two signs apart from a step. -/
theorem fails_updateOperator_of_unary (op : UnaryOperator) {a : List Char} (ha : Gap a)
    (s : List Char) :
    Fails updateOperator (op.symbol.toList ++ (a ++ s)) := by
  obtain ⟨d, a, rfl⟩ := List.exists_cons_of_ne_nil ha.1
  have hd : isBlank d = true := ha.2 d (List.mem_cons_self ..)
  have hplus : '+' ≠ d := ne_of_blank (by decide) hd
  have hminus : '-' ≠ d := ne_of_blank (by decide) hd
  refine fails_updateOperator ?_ ?_ <;> cases op <;>
    simp [UnaryOperator.symbol, hplus.symm, hminus.symm]

/-! ## What stops an operand -/

/-- No reader of the level, or of a tighter one, reads on at the text: the token before has ended, a
name before is not called, and neither a selector, a step nor an operator of these levels follows.
To find out that there is no selector may take more room than there is, and then reading sinks. -/
structure Stops (l : Precedence) (s : List Char) : Prop where
  apart : Apart s
  noArguments : ∀ e, Fails (arguments e) s
  noSelector : l.rank ≤ 6 → ∀ nested, Fails (selector nested) s ∨ Sinks (selector nested) s
  noStep : l.rank ≤ 6 → Fails stepBehind s
  noTail : ∀ l' : Precedence, l.rank ≤ l'.rank → ∀ operand, Fails (l'.tail operand) s

/-- What stops a level stops all tighter ones, as they read on at fewer tokens. -/
lemma Stops.mono {l l' : Precedence} (h : l.rank ≤ l'.rank) {s : List Char} (hs : Stops l s) :
    Stops l' s where
  apart := hs.apart
  noArguments := hs.noArguments
  noSelector := fun hl => hs.noSelector (Nat.le_trans h hl)
  noStep := fun hl => hs.noStep (Nat.le_trans h hl)
  noTail := fun m hm => hs.noTail m (Nat.le_trans h hm)

lemma Stops.tighter {l : Precedence} {s : List Char} (hs : Stops l s) : Stops l.tighter s :=
  hs.mono l.rank_le_tighter

/-- What a token must be like to stop the readers of a level. This speaks of the token itself, and
`Stops` of the white space in front of it too, which all the readers skip. -/
structure Blocks (l : Precedence) (s : List Char) : Prop where
  solid : Halts isBlank s
  noParen : Fails (word "(") s
  noMember : l.rank ≤ 6 → Fails (word ".") s
  noIndex : l.rank ≤ 6 → ∀ nested, Fails (index nested) s ∨ Sinks (index nested) s
  noUpdate : l.rank ≤ 6 → Fails updateOperator s
  noTypeTest : l.rank ≤ 1 → Fails (word "instanceof") s
  noOperator : ∀ l' : Precedence, l.rank ≤ l'.rank → ∀ entry ∈ table l', fits s entry = false

lemma fails_operatorTail {op : Reader BinaryOperator} {operand : Reader Surface} {a s : List Char}
    (ha : ∀ c ∈ a, isBlank c = true) (hs : Halts isBlank s) (hop : Fails op s) :
    Fails (operatorTail op operand) (a ++ s) :=
  ((reads_skip ha hs).bind_fails hop.bind).rule

/-- Behind white space that no operator of the level follows, nothing continues an expression of the
level. For comparisons a type test must not follow either. -/
lemma fails_tail {l : Precedence} {operand : Reader Surface} {a s : List Char}
    (ha : ∀ c ∈ a, isBlank c = true) (hs : Halts isBlank s)
    (hop : ∀ entry ∈ table l, fits s entry = false)
    (hword : l.rank ≤ 1 → Fails (word "instanceof") s) : Fails (l.tail operand) (a ++ s) := by
  have hfail := fails_operator hop
  cases l with
  | equality | shift | additive | multiplicative => exact fails_operatorTail ha hs hfail
  | relational =>
    have htest : Fails typeTestTail (a ++ s) :=
      ((reads_skip ha hs).bind_fails (hword (by decide)).bind).rule
    exact (htest.orElse (fails_operatorTail ha hs hfail)).rule
  | prefixed | stepped | selected => exact fun mark => ⟨mark, rfl⟩

lemma fails_selector {nested : Nested} {a s : List Char} (ha : ∀ c ∈ a, isBlank c = true)
    (hs : Halts isBlank s) (hdot : Fails (word ".") s) (hindex : Fails (index nested) s) :
    Fails (selector nested) (a ++ s) :=
  ((reads_skip ha hs).bind_fails (hdot.bind.rule.orElse hindex)).rule

lemma sinks_selector {nested : Nested} {a s : List Char} (ha : ∀ c ∈ a, isBlank c = true)
    (hs : Halts isBlank s) (hdot : Fails (word ".") s) (hindex : Sinks (index nested) s) :
    Sinks (selector nested) (a ++ s) :=
  Sinks.rule ((reads_skip ha hs).becomes.sinks (hdot.bind.rule.orElse_becomes.sinks hindex))

/-- A token that blocks a level stops it, behind white space and also without any if the token
before has ended. -/
lemma Blocks.stops {l : Precedence} {a s : List Char} (h : Blocks l s)
    (ha : ∀ c ∈ a, isBlank c = true) (hapart : Apart (a ++ s)) : Stops l (a ++ s) where
  apart := hapart
  noArguments := fun _ => ((reads_skip ha h.solid).bind_fails h.noParen.bind).rule
  noSelector := fun hl nested =>
    (h.noIndex hl nested).imp (fails_selector ha h.solid (h.noMember hl))
      (sinks_selector ha h.solid (h.noMember hl))
  noStep := fun hl => ((reads_skip ha h.solid).bind_fails (h.noUpdate hl)).rule
  noTail := fun l' hl _ => fails_tail ha h.solid (h.noOperator l' hl) fun h1 =>
    h.noTypeTest (Nat.le_trans hl h1)

/-- A token that starts with no character that goes on with an expression blocks all levels. Closing
brackets and commas are such tokens. -/
theorem blocks_of_head {c : Char} (hb : isBlank c = false)
    (h : c ∉ operatorHeads ++ ['(', '.', '[', 'i']) (s : List Char) (l : Precedence) :
    Blocks l (c :: s) := by
  obtain ⟨hop, hc⟩ := not_or.mp (fun hmem => h (List.mem_append.mpr hmem))
  simp only [List.mem_cons, List.not_mem_nil, or_false, not_or] at hc
  obtain ⟨hparen, hdot, hbracket, hi⟩ := hc
  have hplus : c ≠ '+' := by rintro rfl; exact hop (by decide)
  have hminus : c ≠ '-' := by rintro rfl; exact hop (by decide)
  exact
    { solid := halts_cons hb s
      noParen := fails_word_cons (by rfl) (Ne.symm hparen)
      noMember := fun _ => fails_word_cons (by rfl) (Ne.symm hdot)
      noIndex := fun _ _ => .inl (fails_word_cons (by rfl) (Ne.symm hbracket)).bind.rule
      noUpdate := fun _ => fails_updateOperator_of_head hplus hminus s
      noTypeTest := fun _ => fails_word_cons (by rfl) (Ne.symm hi)
      noOperator := fun l' _ => fits_of_head hop s l' }

/-- The end of the text blocks all levels. -/
theorem blocks_nil (l : Precedence) : Blocks l [] where
  solid := by simp [Halts]
  noParen := fails_word_nil (by rfl)
  noMember := fun _ => fails_word_nil (by rfl)
  noIndex := fun _ _ => .inl (fails_word_nil (by rfl)).bind.rule
  noUpdate := fun _ => fails_updateOperator (by simp) (by simp)
  noTypeTest := fun _ => fails_word_nil (by rfl)
  noOperator := fun l' _ => fits_nil l'

/-- A binary operator blocks the levels that are tighter than its own. It does not block its own,
since a chain goes on with it. -/
theorem blocks_symbol (op : BinaryOperator) {b : List Char} (hb : Gap b) (s : List Char) :
    Blocks op.precedence.tighter (op.symbol.toList ++ (b ++ s)) := by
  obtain ⟨d, b, rfl⟩ := List.exists_cons_of_ne_nil hb.1
  have hd : isBlank d = true := hb.2 d (List.mem_cons_self ..)
  have hplus : '+' ≠ d := ne_of_blank (by decide) hd
  have hminus : '-' ≠ d := ne_of_blank (by decide) hd
  have hrank : op.precedence.rank < op.precedence.tighter.rank := by cases op <;> decide
  -- The first character of the symbol settles everything but the tables and the steps.
  obtain ⟨c, cs, hsymbol, hc⟩ : ∃ c cs, op.symbol.toList = c :: cs ∧ c ∈ operatorHeads := by
    cases op <;> exact ⟨_, _, by rfl, by decide⟩
  have hne : ∀ {e : Char}, e ∉ operatorHeads → e ≠ c := fun he h => he (h ▸ hc)
  have hblank : isBlank c = false := by
    have hall : ∀ c ∈ operatorHeads, isBlank c = false := by decide
    exact hall c hc
  refine
    { solid := ?_, noParen := ?_, noMember := fun _ => ?_
      noIndex := fun _ _ => .inl (Fails.rule (Fails.bind ?_))
      noUpdate := fun _ => ?_, noTypeTest := fun _ => ?_
      noOperator := fun l' hl => fits_symbol_of_tighter op hb s (Nat.lt_of_lt_of_le hrank hl) }
  · rw [hsymbol]
    exact halts_cons hblank _
  · rw [hsymbol]
    exact fails_word_cons (by rfl) (hne (by decide))
  · rw [hsymbol]
    exact fails_word_cons (by rfl) (hne (by decide))
  · rw [hsymbol]
    exact fails_word_cons (by rfl) (hne (by decide))
  · refine fails_updateOperator ?_ ?_ <;> cases op <;>
      simp [BinaryOperator.symbol, hplus.symm, hminus.symm]
  · rw [hsymbol]
    exact fails_word_cons (by rfl) (hne (by decide))

/-- The word of a type test blocks the levels that are tighter than comparisons, to which type tests
belong. -/
theorem blocks_instanceof (s : List Char) : Blocks .shift ("instanceof".toList ++ s) where
  solid := halts_cons (by decide) _
  noParen := fails_word_cons (by rfl) (by decide)
  noMember := fun _ => fails_word_cons (by rfl) (by decide)
  noIndex := fun _ _ => .inl (fails_word_cons (by rfl) (by decide)).bind.rule
  noUpdate := fun _ => fails_updateOperator_of_head (by decide) (by decide) _
  noTypeTest := fun h => absurd h (by decide)
  noOperator := fun l' _ => fits_of_head (by decide) _ l'

/-- A token that opens no arguments blocks at least the tightest level, where nothing but a call
could go on with a name. -/
theorem blocks_selected {c : Char} (hb : isBlank c = false) (h : c ≠ '(') (s : List Char) :
    Blocks .selected (c :: s) where
  solid := halts_cons hb s
  noParen := fails_word_cons (by rfl) (Ne.symm h)
  noMember := fun hl => absurd hl (by decide)
  noIndex := fun hl => absurd hl (by decide)
  noUpdate := fun hl => absurd hl (by decide)
  noTypeTest := fun hl => absurd hl (by decide)
  noOperator := fun l' hl => by
    cases l' with
    | selected => simp [table]
    | _ => exact absurd hl (by decide)

lemma Gap.stops {l : Precedence} {a s : List Char} (ha : Gap a) (h : Blocks l s) :
    Stops l (a ++ s) :=
  h.stops ha.2 (ha.apart s)

end Grammar

/-! ## Context suffixes -/

lemma ContextWord.all {c : Context} {w : String} (h : ContextWord c w) :
    ∀ d ∈ w.toList, isNameChar d = true := by
  cases h <;> decide

lemma reads_contextWord {c : Context} {w : String} (h : ContextWord c w) {s : List Char}
    (hs : Halts isNameChar s) :
    Reads contextWord (w.toList ++ s) c s := by
  refine Reads.rule (reads_lexeme ?_)
  rw [wordToken?_append (by decide) h.all hs]
  cases h <;> rfl

/-- A context phrase starts with one of three characters, none of which is blank. -/
lemma ContextPhrase.head {c : Context} {negated : Bool} {u : List Char}
    (h : ContextPhrase c negated u) :
    ∃ d v, u = d :: v ∧ d ∈ ['c', 'd', '!'] := by
  cases h with
  | plain h => cases h <;> exact ⟨_, _, rfl, by decide⟩
  | negated => exact ⟨_, _, rfl, by decide⟩

/-- The phrase of a context suffix, with white space or none behind the mark of negation. A
rendering always has some, but a text that is not a rendering may have none and is read the same. -/
inductive LoosePhrase : Context → Bool → List Char → Prop where
  | plain {c : Context} {w : String} : ContextWord c w → LoosePhrase c false w.toList
  | negated {c : Context} {w : String} {g : List Char} :
      ContextWord c w → (∀ d ∈ g, isBlank d = true) → LoosePhrase c true ('!' :: (g ++ w.toList))

lemma ContextPhrase.loose {c : Context} {negated : Bool} {u : List Char}
    (h : ContextPhrase c negated u) :
    LoosePhrase c negated u := by
  cases h with
  | plain hw => exact .plain hw
  | negated hw hg => exact .negated hw hg.2

namespace LoosePhrase

variable {c : Context} {negated : Bool} {u : List Char}

lemma solid (h : LoosePhrase c negated u) : Solid u := by
  cases h with
  | plain hw => cases hw <;> exact ⟨_, _, rfl, by decide⟩
  | negated => exact ⟨_, _, rfl, by decide⟩

/-- The phrase of a context suffix is read as it is written. Both the suffix itself and the look
ahead of an index begin by reading it, so what comes after it is left open. -/
lemma becomes {α : Type} (h : LoosePhrase c negated u) {s : List Char} (hs : Halts isNameChar s)
    (k : Option Unit → Context → Reader α) :
    Becomes (optional negation >>= fun n => contextWord >>= k n) (u ++ s)
      (k (if negated then some () else none) c) s := by
  cases h with
  | @plain w hw =>
    have hno : Fails negation (w.toList ++ s) := by
      cases hw <;> exact (fails_word_cons (by rfl) (by decide)).bind.rule
    exact hno.optional.becomes.trans (reads_contextWord hw hs).becomes
  | @negated w g hw hg =>
    have hsolid : Solid (w.toList ++ s) := by
      cases hw <;> exact ⟨_, _, rfl, by decide⟩
    have hyes : Reads negation ('!' :: (g ++ w.toList) ++ s) () (w.toList ++ s) := by
      rw [List.cons_append, List.append_assoc]
      exact ((reads_word "!" _).bind (reads_skip hg hsolid.halts)).rule
    exact hyes.optional.becomes.trans (reads_contextWord hw hs).becomes

variable {a b : List Char} (ha : ∀ d ∈ a, isBlank d = true) (hb : ∀ d ∈ b, isBlank d = true)
include hb

/-- A word ends before a bracket, with or without white space between them. -/
lemma halts_close (s : List Char) : Halts isNameChar (b ++ ']' :: s) := by
  cases b with
  | nil => exact halts_cons (by decide) s
  | cons d b =>
    exact inky_isNameChar.halts fun _ hd => Option.some.inj hd ▸ hb d (List.mem_cons_self ..)

include ha

/-- A context suffix is no index, where there is room to look ahead: the index looks for the closing
bracket behind the phrase before it reads anything. -/
theorem fails_index_of_more (h : LoosePhrase c negated u) {nested : Nested}
    {inside : Opening → Room Opening} (hroom : nested.ahead = .more inside) (s : List Char) :
    Fails (index nested) ('[' :: (a ++ (u ++ (b ++ ']' :: s)))) := by
  have hahead : Reads (within nested.ahead contextAhead) (u ++ (b ++ ']' :: s)) () s := by
    rw [hroom]
    refine (h.becomes (halts_close hb s) _).reads ?_
    exact (reads_skip hb (halts_cons (by decide) s)).bind (reads_word "]" s)
  have hskip := reads_skip ha (h.solid.append (b ++ ']' :: s)).halts
  exact Fails.rule ((reads_word "[" _).bind_fails (hskip.bind_fails hahead.butNot.bind))

omit hb in
/-- Where there is no room to look ahead, whether a context suffix is an index is not found out, and
reading ends there. -/
theorem sinks_index_of_none (h : LoosePhrase c negated u) {nested : Nested}
    (hroom : nested.ahead = .none) (s : List Char) :
    Sinks (index nested) ('[' :: (a ++ (u ++ (b ++ ']' :: s)))) := by
  have hahead : Sinks (within nested.ahead contextAhead) (u ++ (b ++ ']' :: s)) := by
    rw [hroom]
    exact fun _ => rfl
  have hskip := reads_skip ha (h.solid.append (b ++ ']' :: s)).halts
  exact Sinks.rule ((reads_word "[" _).becomes.sinks (hskip.becomes.sinks hahead.butNot.bind))

/-- A context suffix is never read as an index. Whatever room there is, the index fails or sinks. -/
theorem fails_index (h : LoosePhrase c negated u) (nested : Nested) (s : List Char) :
    Fails (index nested) ('[' :: (a ++ (u ++ (b ++ ']' :: s)))) ∨
      Sinks (index nested) ('[' :: (a ++ (u ++ (b ++ ']' :: s)))) := by
  cases hroom : nested.ahead with
  | none => exact .inr (h.sinks_index_of_none ha hroom s)
  | more inside => exact .inl (h.fails_index_of_more ha hb hroom s)

/-- A context suffix is read as it is written. -/
lemma reads_suffix (h : LoosePhrase c negated u) (s : List Char) :
    Reads contextSuffix ('[' :: (a ++ (u ++ (b ++ ']' :: s)))) (c, negated) s := by
  refine Reads.rule ((reads_word "[" _).bind ((reads_skip ha (h.solid.append _).halts).bind ?_))
  refine (h.becomes (halts_close hb s) _).reads ?_
  refine (reads_skip hb (halts_cons (by decide) s)).bind ((reads_word "]" s).rule.bind ?_)
  cases negated <;> exact reads_pure _ s

end LoosePhrase

/-- A context suffix blocks all levels, and so ends the expression in front of it. -/
lemma ContextPhrase.blocks {c : Context} {negated : Bool} {u : List Char}
    (h : ContextPhrase c negated u) {a b : List Char} (ha : Gap a) (hb : Gap b) (s : List Char)
    (l : Precedence) :
    Blocks l ('[' :: (a ++ (u ++ (b ++ ']' :: s)))) where
  solid := halts_cons (by decide) _
  noParen := fails_word_cons (by rfl) (by decide)
  noMember := fun _ => fails_word_cons (by rfl) (by decide)
  noIndex := fun _ nested => h.loose.fails_index ha.2 hb.2 nested s
  noUpdate := fun _ => fails_updateOperator_of_head (by decide) (by decide) _
  noTypeTest := fun _ => fails_word_cons (by rfl) (by decide)
  noOperator := fun l' _ => fits_of_head (by decide) _ l'

lemma ContextPhrase.reads_suffix {context : Context} {negated : Bool} {a b u : List Char}
    (h : ContextPhrase context negated u) (ha : Gap a) (hb : Gap b) (s : List Char) :
    Reads contextSuffix ('[' :: (a ++ (u ++ (b ++ ']' :: s)))) (context, negated) s :=
  h.loose.reads_suffix ha.2 hb.2 s

end ShapeLint
