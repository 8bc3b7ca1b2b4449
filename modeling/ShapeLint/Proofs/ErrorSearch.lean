import ShapeLint.Proofs.Declarations

/-!
# The first error of a tree

A tree that holds an error is refused with its first one: the first node of type `ERROR`, or that is
missing, if every node comes before its children and these from left to right, tokens and comments
included. `searchError` does not look at all of them. It goes only into children that are known to
hold an error, and keeps those it has still to look at on a stack.

Nothing is missed by that: what is left out holds no error (`not_isError_of_not_hasError`), so that
the children that are kept have the same first error as all children (`find?_suspects`). So a search
from any stack finds the first error of the trees on it, whatever is known of them
(`searchError_eq_find?`). That there is one follows if nodes are known to hold an error only for a
reason, because one is there or in a child.
-/

namespace ShapeLint.Java

namespace Tree

lemma anyError_eq (ts : List Tree) : anyError ts = ts.any hasError := by
  induction ts with
  | nil => rfl
  | cons t ts ih => rw [anyError, ih, List.any_cons]

/-- A node is known to hold an error if it is one, if it is flagged, or if a child is known to hold
one. -/
lemma hasError_eq (t : Tree) :
    t.hasError = (t.isError || t.isFlagged || t.children.any hasError) := by
  obtain ⟨type, field?, isNamed, isMissing, isFlagged, start, stop, children⟩ := t
  rw [hasError, anyError_eq, isError]

/-- A tree that is not known to hold an error holds none. -/
lemma not_isError_of_not_hasError {t : Tree} (h : t.hasError = false) :
    ∀ s ∈ t.subtrees, s.isError = false := by
  rw [hasError_eq, Bool.or_eq_false_iff, Bool.or_eq_false_iff, List.any_eq_false] at h
  obtain ⟨⟨hself, -⟩, hchildren⟩ := h
  intro s hs
  rw [subtrees_eq, List.mem_cons, List.mem_flatMap] at hs
  rcases hs with rfl | ⟨c, hc, hs⟩
  · exact hself
  · exact not_isError_of_not_hasError (Bool.eq_false_iff.mpr (hchildren c hc)) s hs
termination_by t.size
decreasing_by exact size_lt_of_mem_children hc

/-- The children in which an error is known to be have the first error of all children. So leaving
the others out changes nothing of what is found first. -/
lemma find?_suspects (t : Tree) :
    (t.suspects.flatMap subtrees).find? isError = (t.children.flatMap subtrees).find? isError := by
  rw [suspects]
  induction t.children with
  | nil => rfl
  | cons c cs ih =>
    rw [List.filter_cons, List.flatMap_cons, List.find?_append]
    split
    case isTrue => rw [List.flatMap_cons, List.find?_append, ih]
    case isFalse hc =>
      have hnone : c.subtrees.find? isError = none := by
        rw [Bool.not_eq_true, Bool.or_eq_false_iff] at hc
        rw [List.find?_eq_none]
        intro s hs
        rw [not_isError_of_not_hasError hc.1 s hs]
        exact Bool.false_ne_true
      rw [ih, hnone, Option.none_or]

/-- A search finds the first error of the trees on its stack, from the topmost down. The induction
is on the steps of the search. -/
lemma searchError_eq_find? (stack : List Tree) :
    searchError stack = (stack.flatMap subtrees).find? isError := by
  fun_induction searchError stack with
  | case1 => rfl
  | case2 t stack ht =>
    rw [List.flatMap_cons, subtrees_eq, List.cons_append, List.find?_cons_of_pos ht]
  | case3 t stack ht ih =>
    rw [ih, List.flatMap_append, List.flatMap_cons, subtrees_eq, List.cons_append,
      List.find?_cons_of_neg ht, List.find?_append, List.find?_append, find?_suspects]

/-- Without an error the tree itself is given. -/
lemma firstError_eq_find? (t : Tree) : t.firstError = (t.subtrees.find? isError).getD t := by
  rw [firstError, searchError_eq_find?, List.flatMap_singleton]

/-- Every node of a tree that is known to hold an error is one or has a child that is known to hold
one, and no other node is. Without this a flag could stand for an error that is nowhere. -/
def Grounded (t : Tree) : Prop :=
  ∀ s ∈ t.subtrees, s.hasError = true ↔ s.isError = true ∨ ∃ c ∈ s.children, c.hasError = true

instance (t : Tree) : Decidable t.Grounded :=
  inferInstanceAs (Decidable (∀ s ∈ t.subtrees, s.hasError = true ↔
    s.isError = true ∨ ∃ c ∈ s.children, c.hasError = true))

lemma Grounded.child {t c : Tree} (h : t.Grounded) (hc : c ∈ t.children) : c.Grounded := by
  intro s hs
  refine h s ?_
  rw [subtrees_eq]
  exact List.mem_cons_of_mem t (List.mem_flatMap.mpr ⟨c, hc, hs⟩)

/-- What is known to hold an error for a reason holds one. -/
lemma Grounded.exists_isError {t : Tree} (h : t.Grounded) (herror : t.hasError = true) :
    ∃ s ∈ t.subtrees, s.isError = true := by
  have hself : t ∈ t.subtrees := by
    rw [subtrees_eq]
    exact List.mem_cons_self
  rcases (h t hself).mp herror with ht | ⟨c, hc, herrorc⟩
  · exact ⟨t, hself, ht⟩
  · obtain ⟨s, hs, hserror⟩ := (h.child hc).exists_isError herrorc
    refine ⟨s, ?_, hserror⟩
    rw [subtrees_eq]
    exact List.mem_cons_of_mem t (List.mem_flatMap.mpr ⟨c, hc, hs⟩)
termination_by t.size
decreasing_by exact size_lt_of_mem_children hc

end Tree

/-- A tree that is known to hold an error for a reason is refused with its first error: of all
nodes, each before its children and these from left to right, the first that is of type `ERROR` or
missing. -/
theorem refused_with_first_error (t : Tree) (hgrounded : t.Grounded) (herror : t.hasError = true) :
    ∃ before after, t.subtrees = before ++ t.firstError :: after ∧
      (∀ s ∈ before, s.isError = false) ∧ t.firstError.isError = true ∧
      ∀ source path,
        ofTree source path t = .error (.rejected (errorFault source path t.firstError)) := by
  obtain ⟨s, hs, hserror⟩ := hgrounded.exists_isError herror
  obtain ⟨first, hfirst⟩ := Option.isSome_iff_exists.mp (List.find?_isSome.mpr ⟨s, hs, hserror⟩)
  have hfound : t.firstError = first := by rw [Tree.firstError_eq_find?, hfirst, Option.getD_some]
  obtain ⟨hisError, before, after, hsplit, hbefore⟩ := List.find?_eq_some_iff_append.mp hfirst
  rw [hfound]
  refine ⟨before, after, hsplit, fun b hb => ?_, hisError, fun source path => ?_⟩
  · simpa using hbefore b hb
  · rw [ofTree, if_pos herror, hfound]

/-- A comment, a statement whose semicolon is missing, and something that cannot be read. -/
def unendedStatement : Tree :=
  { type := "program"
    stop := 11
    children :=
      [{ type := "line_comment", stop := 4 },
        { type := "expression_statement"
          start := 5
          stop := 8
          children :=
            [{ type := "method_invocation", start := 5, stop := 8 },
              { type := ";", isNamed := false, isMissing := true, start := 8, stop := 8 }] },
        { type := "ERROR", start := 9, stop := 11 }] }

/-- What is missing comes before what cannot be read. -/
theorem refused_with_first_error_unendedStatement :
    unendedStatement.Grounded ∧ unendedStatement.hasError = true ∧
      ∃ before after, unendedStatement.subtrees = before ++ unendedStatement.firstError :: after ∧
        (∀ s ∈ before, s.isError = false) ∧ unendedStatement.firstError.isError = true ∧
        ∀ source path, ofTree source path unendedStatement =
          .error (.rejected (errorFault source path unendedStatement.firstError)) :=
  ⟨by decide, by decide, refused_with_first_error unendedStatement (by decide) (by decide)⟩

end ShapeLint.Java
