import Mathlib.Tactic.Lemma
import ShapeLint.Node.Context

/-!
# Contexts do not contradict each other

The four classes of a visit (a condition, the operand of a negated condition, thrown away, read) are
looked up in three tables: which kinds have a condition, which read their operands, and which read a
child in some role. Each class asks for something of the parent. What two classes ask for cannot be
had together where the tables have nothing in common, so every fact below comes from one about the
tables.

A visit carries all that is above it, but its classes depend on little of that
(`Visit.surroundings`).
-/

namespace ShapeLint

open NodeKind

/-! ## What the tables have in common -/

lemma unary_not_mem_conditionOwners : unary ∉ conditionOwners := by
  decide

lemma expressionStatement_not_mem_conditionOwners : expressionStatement ∉ conditionOwners := by
  decide

/-- Where values are thrown away, no operand is read. -/
lemma not_mem_operandOwners {kind : String} (h : kind = expressionStatement ∨ kind = forLoop) :
    kind ∉ operandOwners := by
  rcases h with rfl | rfl <;> decide

/-- Where values are thrown away, none is read in a role of its own. -/
lemma not_mem_readingPlaces {kind : String} (h : kind = expressionStatement ∨ kind = forLoop)
    (role : Option String) :
    (kind, role) ∉ readingPlaces := by
  have hkinds : kind ∉ readingPlaces.map Prod.fst := by
    rcases h with rfl | rfl <;> decide
  exact fun hmem => hkinds (List.mem_map_of_mem hmem)

lemma isNonValue_eq_false_iff {kind : String} :
    isNonValue kind = false ↔ ∀ ending ∈ nonValueEndings, ¬ending.toList <:+ kind.toList := by
  simp only [isNonValue, List.any_eq_false, List.isSuffixOf_iff_suffix]

namespace Visit

variable {v w : Visit}

/-! ## What each class asks for -/

/-- A condition stands in the role of one, below a kind that has a condition. -/
lemma isCondition_iff :
    v.isCondition = true ↔
      ∃ parent, v.parent? = some parent ∧ parent.kind ∈ conditionOwners ∧
        v.role = some Role.condition := by
  unfold isCondition
  cases v.parent? <;> simp

/-- The operand of a negated condition stands below a negation that is itself a condition. -/
lemma isNegatedCondition_iff :
    v.isNegatedCondition = true ↔
      ∃ outer, v.outer? = some outer ∧ outer.node.kind = unary ∧
        outer.node.value.same (.ofString "!") = true ∧ outer.isCondition = true := by
  unfold isNegatedCondition
  cases v.outer? <;> simp [and_assoc]

/-- What is thrown away is a statement of its own, or stands in the head of a loop for what it
does. -/
lemma isDiscarded_iff :
    v.isDiscarded = true ↔
      ∃ parent, v.parent? = some parent ∧
        (parent.kind = expressionStatement ∨
          parent.kind = forLoop ∧ (v.role = some Role.init ∨ v.role = some Role.update) ∧
            isNonValue v.node.kind = false) := by
  unfold isDiscarded
  cases v.parent? <;> simp [and_assoc]

/-- What is read is a value and an operand, a condition, or in a role that is read. -/
lemma isRead_iff :
    v.isRead = true ↔
      ∃ parent, v.parent? = some parent ∧ isNonValue v.node.kind = false ∧
        (parent.kind ∈ operandOwners ∨ v.isCondition = true ∨
          (parent.kind, v.role) ∈ readingPlaces) := by
  unfold isRead
  cases v.parent? <;> simp [or_assoc]

lemma parent?_of_outer? {outer : Visit} (h : v.outer? = some outer) :
    v.parent? = some outer.node := by
  obtain ⟨node, above⟩ := v
  cases above with
  | nil => cases h
  | cons parent above =>
    obtain rfl := Option.some.inj h
    rfl

/-- The operand of a negated condition stands under an operator. -/
lemma parent?_of_isNegatedCondition (h : v.isNegatedCondition = true) :
    ∃ parent, v.parent? = some parent ∧ parent.kind = unary := by
  obtain ⟨outer, houter, hkind, -⟩ := isNegatedCondition_iff.mp h
  exact ⟨outer.node, parent?_of_outer? houter, hkind⟩

/-- A value that is thrown away stands in a statement. -/
lemma parent?_of_isDiscarded (h : v.isDiscarded = true) :
    ∃ parent, v.parent? = some parent ∧
      (parent.kind = expressionStatement ∨ parent.kind = forLoop) := by
  obtain ⟨parent, hparent, hkind⟩ := isDiscarded_iff.mp h
  exact ⟨parent, hparent, hkind.imp_right And.left⟩

/-! ## What classes cannot have together -/

/-- The parent of an operand is an operator, and no operator has a condition. -/
lemma not_isNegatedCondition_of_isCondition (h : v.isCondition = true) :
    v.isNegatedCondition = false := by
  rw [Bool.eq_false_iff]
  intro hnegated
  obtain ⟨parent, hparent, howner, -⟩ := isCondition_iff.mp h
  obtain ⟨parent', hparent', hkind⟩ := parent?_of_isNegatedCondition hnegated
  obtain rfl : parent = parent' := Option.some.inj (hparent.symm.trans hparent')
  exact unary_not_mem_conditionOwners (hkind ▸ howner)

/-- No statement of its own is a condition, and in the head of a loop the condition has another
role. -/
lemma not_isDiscarded_of_isCondition (h : v.isCondition = true) : v.isDiscarded = false := by
  rw [Bool.eq_false_iff]
  intro hdiscarded
  obtain ⟨parent, hparent, howner, hrole⟩ := isCondition_iff.mp h
  obtain ⟨parent', hparent', hkind⟩ := isDiscarded_iff.mp hdiscarded
  obtain rfl : parent = parent' := Option.some.inj (hparent.symm.trans hparent')
  rcases hkind with hstatement | ⟨-, hhead, -⟩
  · exact expressionStatement_not_mem_conditionOwners (hstatement ▸ howner)
  · -- The head of a loop has its condition in a role of its own.
    rw [hrole] at hhead
    revert hhead
    decide

lemma not_isDiscarded_of_isNegatedCondition (h : v.isNegatedCondition = true) :
    v.isDiscarded = false := by
  rw [Bool.eq_false_iff]
  intro hdiscarded
  obtain ⟨parent, hparent, hunary⟩ := parent?_of_isNegatedCondition h
  obtain ⟨parent', hparent', hkind⟩ := parent?_of_isDiscarded hdiscarded
  obtain rfl : parent = parent' := Option.some.inj (hparent.symm.trans hparent')
  rw [hunary] at hkind
  revert hkind
  decide

/-- Neither an operand nor a condition nor a role that is read stands where values are thrown
away. -/
lemma not_isRead_of_isDiscarded (h : v.isDiscarded = true) : v.isRead = false := by
  rw [Bool.eq_false_iff]
  intro hread
  obtain ⟨parent, hparent, hkind⟩ := parent?_of_isDiscarded h
  obtain ⟨parent', hparent', -, hplace⟩ := isRead_iff.mp hread
  obtain rfl : parent = parent' := Option.some.inj (hparent.symm.trans hparent')
  rcases hplace with hoperand | hcondition | hplace
  · exact not_mem_operandOwners hkind hoperand
  · rw [not_isDiscarded_of_isCondition hcondition] at h
    cases h
  · exact not_mem_readingPlaces hkind _ hplace

/-- A condition that is a value is read. -/
lemma isRead_of_isCondition (h : v.isCondition = true) (hvalue : isNonValue v.node.kind = false) :
    v.isRead = true := by
  obtain ⟨parent, hparent, -⟩ := isCondition_iff.mp h
  exact isRead_iff.mpr ⟨parent, hparent, hvalue, .inr (.inl h)⟩

/-- The operand of a negated condition is read by the negation. -/
lemma isRead_of_isNegatedCondition (h : v.isNegatedCondition = true)
    (hvalue : isNonValue v.node.kind = false) :
    v.isRead = true := by
  obtain ⟨parent, hparent, hkind⟩ := parent?_of_isNegatedCondition h
  have howner : parent.kind ∈ operandOwners := by
    rw [hkind]
    decide
  exact isRead_iff.mpr ⟨parent, hparent, hvalue, .inl howner⟩

/-! ## What the classes depend on -/

/-- The classes of a visit: whether it is a condition, whether it is the operand of a negation that
is one, whether its value is thrown away, and whether its value is read. -/
structure Classes where
  condition : Bool
  negatedCondition : Bool
  discarded : Bool
  read : Bool
deriving DecidableEq

/-- The classes that a visit is in. -/
def classes (v : Visit) : Classes :=
  ⟨v.isCondition, v.isNegatedCondition, v.isDiscarded, v.isRead⟩

/-- A parent as far as the classes of its children depend on it. -/
structure ParentView where
  kind : String
  value : Value
  role : Option String
deriving DecidableEq

/-- A node and what is around it, as far as its classes depend on them: its kind and role, the
parent, and the kind of the node above the parent. -/
structure Surroundings where
  kind : String
  role : Option String
  parent? : Option ParentView
  grandparentKind? : Option String
deriving DecidableEq

/-- What is around the node of a visit. -/
def surroundings (v : Visit) : Surroundings where
  kind := v.node.kind
  role := v.role
  parent? := v.outer?.map fun outer => ⟨outer.node.kind, outer.node.value, outer.role⟩
  grandparentKind? := (v.outer?.bind fun outer => outer.parent?).map Node.kind

/-- Whether a visit is a condition depends on its role and on the kind of its parent. -/
lemma isCondition_congr (hrole : v.role = w.role)
    (hkind : v.parent?.map Node.kind = w.parent?.map Node.kind) :
    v.isCondition = w.isCondition := by
  have heq (x : Visit) :
      x.isCondition = (x.parent?.map Node.kind).any fun kind =>
        conditionOwners.contains kind && x.role == some Role.condition := by
    unfold isCondition
    cases x.parent? <;> rfl
  rw [heq, heq, hrole, hkind]

/-- Visits in the same surroundings are in the same classes. The parent of a negation decides
whether the negation is a condition, and nothing further up is looked at. -/
lemma classes_congr (h : v.surroundings = w.surroundings) : v.classes = w.classes := by
  obtain ⟨node, above⟩ := v
  obtain ⟨node', above'⟩ := w
  have hkind : node.kind = node'.kind := congrArg Surroundings.kind h
  have hrole : role ⟨node, above⟩ = role ⟨node', above'⟩ := congrArg Surroundings.role h
  have hparent := congrArg Surroundings.parent? h
  have hgrandparent := congrArg Surroundings.grandparentKind? h
  cases above with
  | nil =>
    cases above' with
    | nil => rfl
    | cons parent' above' => cases hparent
  | cons parent above =>
    cases above' with
    | nil => cases hparent
    | cons parent' above' =>
      have hview := Option.some.inj hparent
      have hparentKind : parent.kind = parent'.kind := congrArg ParentView.kind hview
      have hvalue : parent.value = parent'.value := congrArg ParentView.value hview
      have hcondition :
          isCondition ⟨node, parent :: above⟩ = isCondition ⟨node', parent' :: above'⟩ :=
        isCondition_congr hrole (congrArg some hparentKind)
      -- Whether the parent is a condition is decided by its role and the grandparent.
      have houter : isCondition ⟨parent, above⟩ = isCondition ⟨parent', above'⟩ :=
        isCondition_congr (congrArg ParentView.role hview) hgrandparent
      simp only [classes, hcondition, isNegatedCondition, outer?, houter, isDiscarded, isRead,
        parent?, List.head?_cons, hkind, hrole, hparentKind, hvalue]

/-! ## Consistency -/

/-- The classes of a visit do not contradict each other. -/
structure Consistent (v : Visit) : Prop where
  /-- A value is not both thrown away and read. -/
  discarded_or_read : ¬(v.isDiscarded = true ∧ v.isRead = true)
  /-- A condition is not the operand of another. -/
  condition_or_operand : ¬(v.isCondition = true ∧ v.isNegatedCondition = true)
  /-- What decides a branch or a loop is not thrown away. -/
  not_discarded : v.isCondition = true ∨ v.isNegatedCondition = true → v.isDiscarded = false
  /-- It is read, unless its kind has the ending of one that is no value. -/
  read : v.isCondition = true ∨ v.isNegatedCondition = true →
    (∀ ending ∈ nonValueEndings, ¬ending.toList <:+ v.node.kind.toList) → v.isRead = true

/-- The classes of no visit contradict each other, whatever stands above it. -/
lemma consistent (v : Visit) : v.Consistent where
  discarded_or_read := fun ⟨hdiscarded, hread⟩ => by
    rw [not_isRead_of_isDiscarded hdiscarded] at hread
    cases hread
  condition_or_operand := fun ⟨hcondition, hoperand⟩ => by
    rw [not_isNegatedCondition_of_isCondition hcondition] at hoperand
    cases hoperand
  not_discarded := by
    rintro (h | h)
    · exact not_isDiscarded_of_isCondition h
    · exact not_isDiscarded_of_isNegatedCondition h
  read := by
    intro h hkind
    have hvalue := isNonValue_eq_false_iff.mpr hkind
    rcases h with h | h
    · exact isRead_of_isCondition h hvalue
    · exact isRead_of_isNegatedCondition h hvalue

end Visit

/-- **Contexts are consistent.** In the walk of a tree the classes of no visit contradict each
other, the root is in none of them, and visits of two trees in the same surroundings are in the same
classes. -/
theorem Node.contexts_consistent (root : Node) :
    (∀ v ∈ root.visits, v.Consistent) ∧
      Visit.classes { node := root } = ⟨false, false, false, false⟩ ∧
      ∀ (other : Node), ∀ v ∈ root.visits, ∀ w ∈ other.visits, v.surroundings = w.surroundings →
        v.classes = w.classes :=
  ⟨fun v _ => v.consistent, rfl, fun _ _ _ _ _ => Visit.classes_congr⟩

/-- A branch on `!ok`, with a statement of a kind. -/
def Node.branchOnNegation (kind : String) : Node :=
  let operand : Node := { kind := name, value := .ofString "ok", role := some Role.operand }
  { kind := "if_statement"
    children :=
      [{ kind := unary, value := .ofString "!", role := some Role.condition,
         children := [operand] },
        { kind }] }

/-- The operand of the negation is in the same classes, whatever statement follows. -/
theorem Node.contexts_consistent_branchOnNegation :
    ∃ v ∈ (branchOnNegation "block").visits, ∃ w ∈ (branchOnNegation "return_statement").visits,
      v.isNegatedCondition = true ∧ v.Consistent ∧ v.surroundings = w.surroundings ∧
        v.classes = w.classes := by
  let operand : Visit.Surroundings :=
    ⟨name, some Role.operand, some ⟨unary, .ofString "!", some Role.condition⟩, some "if_statement"⟩
  have hvisits : ∀ kind ∈ ["block", "return_statement"],
      (branchOnNegation kind).visits.any (fun v =>
        v.isNegatedCondition && decide (v.surroundings = operand)) = true := by
    decide +kernel
  obtain ⟨v, hv, hoperand⟩ := List.any_eq_true.1 (hvisits "block" (by decide))
  obtain ⟨w, hw, hoperand'⟩ := List.any_eq_true.1 (hvisits "return_statement" (by decide))
  rw [Bool.and_eq_true, decide_eq_true_eq] at hoperand hoperand'
  have hsame : v.surroundings = w.surroundings := hoperand.2.trans hoperand'.2.symm
  obtain ⟨hconsistent, -, hclasses⟩ := contexts_consistent (branchOnNegation "block")
  exact ⟨v, hv, w, hw, hoperand.1, hconsistent v hv, hsame, hclasses _ v hv w hw hsame⟩

/-- The operand of a negated condition, the condition itself, and a call that is a statement. -/
example :
    let ok : Node := { kind := name, role := some Role.operand }
    let negation : Node :=
      { kind := unary, value := .ofString "!", role := some Role.condition, children := [ok] }
    let call : Node := { kind := methodCall }
    let statement : Node := { kind := expressionStatement, children := [call] }
    let root : Node := { kind := "if_statement", children := [negation, statement] }
    Visit.classes ⟨ok, [negation, root]⟩ = ⟨false, true, false, true⟩ ∧
      Visit.classes ⟨negation, [root]⟩ = ⟨true, false, false, true⟩ ∧
      Visit.classes ⟨call, [statement, root]⟩ = ⟨false, false, true, false⟩ := by
  decide

end ShapeLint
