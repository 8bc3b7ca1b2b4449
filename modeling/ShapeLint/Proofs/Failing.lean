import ShapeLint.Proofs.Layout

/-!
# Where conversion fails

A tree that has no normal form has a first place at which it has none: `NormalFails` follows the
children from the left to the first that fails, and conversion gives the failure found there.

Only literals can fail, and steps without an operator. `Bears` lists the literals of a tree from
left to right and excludes such steps. The first of the literals that has no value decides what
conversion comes to, whatever stands between them.
-/

namespace ShapeLint.Java

/-! ## The first failure -/

/-- The first node without a normal form in a tree, children before their parent, has none for a
reason. -/
inductive NormalFails (source : Source) : Tree → NormalFailure → Prop where
  /-- All children have a normal form, but the node has none. -/
  | here {t : Tree} {ns : List Node} {e : NormalFailure} :
      NormalForms source (keptChildren t) ns → normalNode source t ns = .error e →
      NormalFails source t e
  /-- A child is the first that has none. -/
  | child {t c : Tree} {before after : List Tree} {ns : List Node} {e : NormalFailure} :
      keptChildren t = before ++ c :: after → NormalForms source before ns →
      NormalFails source c e → NormalFails source t e

section

variable {source : Source}

/-- The first children are built, and the others are still to come. This is a state of the machine
in the middle of a node. -/
lemma NormalForms.convertFrom_append {ts : List Tree} {ns : List Node}
    (h : NormalForms source ts ns) (t : Tree) (others : List Tree) (built : List Node)
    (stack : List Frame) :
    Java.convertFrom source ⟨t, ts ++ others, built⟩ stack =
      Java.convertFrom source ⟨t, others, ns.reverse ++ built⟩ stack := by
  cases h with
  | nil => rfl
  | cons hchild hothers =>
    rw [List.cons_append, convertFrom_child, hchild.convertFrom, Frame.add_mk,
      hothers.convertFrom_append t others, List.reverse_append, List.append_assoc]

/-- Conversion gives the first failure, wherever it stands, and whatever is on the stack. -/
lemma NormalFails.convertFrom {t : Tree} {e : NormalFailure} (h : NormalFails source t e)
    (stack : List Frame) :
    Java.convertFrom source (.enter t) stack = .error e := by
  induction h generalizing stack with
  | here hkids hnode =>
    rw [Frame.enter, hkids.convertFrom, List.append_nil, Java.convertFrom, List.reverse_reverse,
      hnode]
  | child hkept hbefore _ ih =>
    rw [Frame.enter, hkept, hbefore.convertFrom_append, convertFrom_child]
    exact ih _

lemma NormalFails.convert {t : Tree} {e : NormalFailure} (h : NormalFails source t e) :
    Java.convert source t = .error e := by
  rw [Java.convert, h.convertFrom]

/-- A tree with a normal form is converted, also if it comes to nothing. -/
lemma NormalForm.exists_convert {t : Tree} {o : Option Node} (h : NormalForm source t o) :
    ∃ n, Java.convert source t = .ok n := by
  obtain ⟨hkids, hnode⟩ := h
  have hrun : Java.convertFrom source (.enter t) [] = .ok o := by
    rw [Frame.enter, hkids.convertFrom t [] [], List.append_nil]
    exact convertFrom_last (by rwa [List.reverse_reverse])
  rw [Java.convert, hrun]
  cases o <;> exact ⟨_, rfl⟩

end

/-! ## Literals -/

/-- A literal in a source: its type, and where it stands. -/
structure Mark where
  type : String
  start : Nat
  stop : Nat
deriving DecidableEq

/-- The literal that a leaf stands for. -/
def Tree.mark (t : Tree) : Mark :=
  ⟨t.type, t.start, t.stop⟩

/-- Why a literal has no value, if it has none. It is read off a tree of the same type and place,
since nothing else matters. -/
def Mark.failure? (source : Source) (m : Mark) : Option NormalFailure :=
  match normalNode source { type := m.type, start := m.start, stop := m.stop } [] with
  | .error e => some e
  | .ok _ => none

/-- The types of nodes that are neither literals nor comments. -/
def isPlain (type : String) : Bool :=
  !opaqueTypes.contains type && type != "line_comment" && type != "block_comment"

mutual

/-- The literals of a tree, from left to right. Every step in it has an operator. What is not named
is left away, and what is neither a literal nor a comment has the literals of its children. -/
inductive Bears : Tree → List Mark → Prop where
  | unnamed {t : Tree} : t.isNamed = false → Bears t []
  | literal {t : Tree} : t.isNamed = true → t.type ∈ opaqueTypes → Bears t [t.mark]
  | inner {t : Tree} {ms : List Mark} :
      t.isNamed = true → isPlain t.type = true → (t.type = "update_expression" → t.children ≠ []) →
      BearsAll t.children ms → Bears t ms

/-- The literals of several trees, from left to right. -/
inductive BearsAll : List Tree → List Mark → Prop where
  | nil : BearsAll [] []
  | cons {t : Tree} {ts : List Tree} {ms ns : List Mark} :
      Bears t ms → BearsAll ts ns → BearsAll (t :: ts) (ms ++ ns)

end

section

variable {source : Source}

lemma isPlain_iff {type : String} :
    isPlain type = true ↔ type ∉ opaqueTypes ∧ type ≠ "line_comment" ∧ type ≠ "block_comment" := by
  simp [isPlain, and_assoc]

/-- The normal form of a literal depends on its type and its place only. -/
lemma normalNode_literal {t : Tree} (h : t.type ∈ opaqueTypes) (ns : List Node) :
    normalNode source t ns =
      normalNode source { type := t.type, start := t.start, stop := t.stop } [] := by
  simp only [opaqueTypes, List.mem_cons, List.not_mem_nil, or_false] at h
  obtain ⟨type, field, isNamed, isMissing, isFlagged, start, stop, children⟩ := t
  dsimp only at h
  rcases h with rfl | rfl | rfl | rfl | rfl | rfl | rfl | rfl <;> rfl

lemma keptChildren_literal {t : Tree} (h : t.type ∈ opaqueTypes) : keptChildren t = [] := by
  rw [keptChildren, if_pos (List.contains_iff_mem.2 h)]

lemma keptChildren_plain {t : Tree} (h : isPlain t.type = true) :
    keptChildren t = t.children.filter fun c => c.isNamed && !c.isComment := by
  rw [keptChildren, if_neg (mt List.contains_iff_mem.1 (isPlain_iff.1 h).1)]

/-- A node that is no literal has a normal form as soon as its children have one. -/
lemma normalNode_plain {t : Tree} (h : isPlain t.type = true)
    (hstep : t.type = "update_expression" → t.children ≠ []) (ns : List Node) :
    ∃ o, normalNode source t ns = .ok o := by
  by_cases htype : t.type = "update_expression"
  · obtain ⟨n, hn⟩ : ∃ n, update source t ns = .ok n := by
      rw [update, List.head?_eq_some_head (hstep htype),
        List.getLast?_eq_some_getLast (hstep htype)]
      exact ⟨_, rfl⟩
    refine ⟨some n, ?_⟩
    rw [normalNode, htype]
    change (update source t ns).map some = _
    rw [hn]
    rfl
  · refine normalNode_of_infallible ?_ ns
    simp only [fallibleTypes, List.mem_append, List.mem_singleton, not_or]
    exact ⟨(isPlain_iff.1 h).1, htype⟩

lemma isComment_plain {t : Tree} (h : isPlain t.type = true) : t.isComment = false := by
  simp [Tree.isComment, (isPlain_iff.1 h).2]

/-- A literal is no comment. -/
lemma isComment_literal {t : Tree} (h : t.type ∈ opaqueTypes) : t.isComment = false := by
  refine Bool.eq_false_iff.2 fun hcomment => ?_
  simp only [Tree.isComment, Bool.or_eq_true, beq_iff_eq] at hcomment
  rcases hcomment with htype | htype <;> rw [htype] at h <;> revert h <;> decide

end

/-! ## The first literal without a value -/

/-- What conversion comes to is told by the first failure among literals: a normal form if there is
none, and otherwise this failure. -/
def Settles (source : Source) (t : Tree) (failure? : Option NormalFailure) : Prop :=
  match failure? with
  | none => ∃ o, NormalForm source t o
  | some e => NormalFails source t e

/-- What conversion of the trees of a list that count comes to is told by the first failure among
literals. -/
def SettlesAll (source : Source) (ts : List Tree) (failure? : Option NormalFailure) : Prop :=
  match failure? with
  | none => ∃ ns, NormalForms source ts ns
  | some e =>
    ∃ before c after ns, ts = before ++ c :: after ∧ NormalForms source before ns ∧
      NormalFails source c e

section

variable {source : Source}

/-- A tree that is not named has no literals. -/
lemma Bears.eq_nil {t : Tree} {ms : List Mark} (h : Bears t ms)
    (hnamed : t.isNamed = false) : ms = [] := by
  cases h with
  | unnamed _ => rfl
  | literal h _ => simp [hnamed] at h
  | inner h _ _ _ => simp [hnamed] at h

lemma Bears.isComment {t : Tree} {ms : List Mark} (h : Bears t ms) (hnamed : t.isNamed = true) :
    t.isComment = false := by
  cases h with
  | unnamed h => simp [hnamed] at h
  | literal _ htype => exact isComment_literal htype
  | inner _ hplain _ _ => exact isComment_plain hplain

/-- The first failure of a list is that of its first tree, or else that of the others. -/
lemma settlesAll_cons {t : Tree} {ts : List Tree} {first? others? : Option NormalFailure}
    (h : Settles source t first?) (hothers : SettlesAll source ts others?) :
    SettlesAll source (t :: ts) (first?.or others?) := by
  cases first? with
  | some e => exact ⟨[], t, ts, [], rfl, .nil, h⟩
  | none =>
    obtain ⟨o, ho⟩ := h
    cases others? with
    | none =>
      obtain ⟨ns, hns⟩ := hothers
      exact ⟨_, .cons ho hns⟩
    | some e =>
      obtain ⟨before, c, after, ns, rfl, hbefore, hc⟩ := hothers
      exact ⟨t :: before, c, after, _, rfl, .cons ho hbefore, hc⟩

mutual

/-- A tree is converted, or fails at the first of its literals that has no value. The induction is
on how the literals are borne, with the lists of children beside it. -/
lemma Bears.settles {t : Tree} {ms : List Mark} :
    Bears t ms → t.isNamed = true → Settles source t (ms.findSome? (·.failure? source))
  | .unnamed hnot, hnamed => by
    rw [hnamed] at hnot
    cases hnot
  | .literal _ htype, _ => by
    have hkids : NormalForms source (keptChildren t) [] := keptChildren_literal htype ▸ .nil
    rw [List.findSome?_singleton]
    -- Only the type and the place of a literal decide whether it fails, as its mark has them.
    change Settles source t
      (match normalNode source { type := t.type, start := t.start, stop := t.stop } [] with
      | .error e => some e
      | .ok _ => none)
    rw [← normalNode_literal htype []]
    cases hnode : normalNode source t [] with
    | error e => exact .here hkids hnode
    | ok o => exact ⟨o, .made hkids hnode⟩
  | .inner _ hplain hstep hchildren, _ => by
    have hkids := hchildren.settlesAll
    rw [← keptChildren_plain hplain] at hkids
    cases hfirst : ms.findSome? (·.failure? source) with
    | none =>
      rw [hfirst] at hkids
      obtain ⟨ns, hns⟩ := hkids
      obtain ⟨o, ho⟩ := normalNode_plain hplain hstep ns
      exact ⟨o, .made hns ho⟩
    | some e =>
      rw [hfirst] at hkids
      obtain ⟨before, c, after, ns, hkept, hbefore, hc⟩ := hkids
      exact .child hkept hbefore hc

lemma BearsAll.settlesAll {ts : List Tree} {ms : List Mark} :
    BearsAll ts ms → SettlesAll source (ts.filter fun c => c.isNamed && !c.isComment)
      (ms.findSome? (·.failure? source))
  | .nil => ⟨[], .nil⟩
  | @BearsAll.cons t ts ms ns htree hothers => by
    rw [List.findSome?_append]
    cases hnamed : t.isNamed with
    | false =>
      rw [List.filter_cons, hnamed, htree.eq_nil hnamed]
      exact hothers.settlesAll
    | true =>
      rw [List.filter_cons, hnamed, htree.isComment hnamed]
      exact settlesAll_cons (htree.settles hnamed) hothers.settlesAll

end

/-- The program of a tree is converted if all its literals have a value, and else fails with the
first that has none. -/
lemma Bears.convert {t : Tree} {ms : List Mark} (h : Bears t ms) (hnamed : t.isNamed = true) :
    match ms.findSome? (·.failure? source) with
    | none => ∃ n, Java.convert source t = .ok n
    | some e => Java.convert source t = .error e := by
  have hsettles : Settles source t (ms.findSome? (·.failure? source)) := h.settles hnamed
  cases hfirst : ms.findSome? (·.failure? source) with
  | none =>
    rw [hfirst] at hsettles
    obtain ⟨o, ho⟩ := hsettles
    exact ho.exists_convert
  | some e =>
    rw [hfirst] at hsettles
    exact NormalFails.convert hsettles

end

end ShapeLint.Java
