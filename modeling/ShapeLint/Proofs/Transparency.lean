import Mathlib.Logic.Relation
import ShapeLint.Proofs.Conversion

/-!
# Parentheses and comments

Parentheses around a part of a concrete tree, and comments between its parts, do not show in the
nodes that it is converted to: kinds, values, roles, children and spans stay as they are, and a tree
without a normal form fails as before.

Most normal forms are made of the normal forms of the children alone, but some read a child as it
stands in the tree. An operator is known by its type, the type that is created or tested by its
text, and a step reads its first token and its last. A child that is read so cannot be enclosed, and
a step with a comment at its edge takes the comment for its operator.
-/

namespace ShapeLint.Java

open Relation (ReflTransGen)

variable {source : Source}

/-! ## Edits -/

/-- A tree that fills no field. -/
def Tree.fieldless (t : Tree) : Tree :=
  { t with field? := none }

/-- A tree in parentheses, which take over its field. They may have other tokens inside, and their
own place in the text. -/
def Tree.enclosed (t : Tree) (opening closing : List Tree) (start stop : Nat) : Tree :=
  { type := "parenthesized_expression", field? := t.field?, start, stop
    children := opening ++ t.fieldless :: closing }

/-- The child is read as it stands: by the type of an operator, or by the text of a type.
Parentheses around it would be read instead. -/
def IsReadRaw (t child : Tree) : Prop :=
  child.field? = some "operator" ∨
    t.type = "object_creation_expression" ∧ child.field? = some "type" ∨
    t.type = "instanceof_expression" ∧ (child.field? = some "right" ∨ child.field? = some "pattern")

/-- A token that a step has as its operator. -/
def isStepSign (type : String) : Bool :=
  type == "++" || type == "--"

/-- The child of a step that its operator is read from: the first if it is a sign, and the last
otherwise. -/
def IsStepChild (t : Tree) (before : List Tree) (child : Tree) (after : List Tree) : Prop :=
  t.type = "update_expression" ∧
    (before = [] ∧ isStepSign child.type = true ∨
      after = [] ∧ ∀ first ∈ (before ++ [child]).head?, isStepSign first.type = false)

/-- One edit somewhere in a tree: parentheses around a child that is not bare, or a comment between
children. Which children are bare is a parameter, so that a weaker condition can be shown not to be
enough. -/
inductive Edited (bare : Tree → List Tree → Tree → List Tree → Prop) : Tree → Tree → Prop where
  /-- A named child is put in parentheses. -/
  | enclose {t child : Tree} (before after : List Tree) {opening closing : List Tree}
      (start stop : Nat) :
      t.children = before ++ child :: after → child.isNamed = true → ¬ bare t before child after →
      (∀ c ∈ opening ++ closing, c.isNamed = false) →
        Edited bare t
          { t with children := before ++ child.enclosed opening closing start stop :: after }
  /-- A comment is put between the children; not at the edge of a step. -/
  | comment {t c : Tree} (before after : List Tree) :
      t.children = before ++ after → c.isComment = true → c.field? = none →
      (t.type = "update_expression" → before ≠ [] ∧ after ≠ []) →
      Edited bare t { t with children := before ++ c :: after }
  /-- A child is edited. -/
  | within {t child child' : Tree} (before after : List Tree) :
      t.children = before ++ child :: after → Edited bare child child' →
      Edited bare t { t with children := before ++ child' :: after }

/-! ## What a node shows to its parent -/

/-- What can be read of a node as it stands, without going into it. -/
def Tree.outline (t : Tree) : String × Nat × Nat :=
  (t.type, t.start, t.stop)

/-- What can be read of the first of several nodes that fills a field. -/
def outlineIn (field : String) (ts : List Tree) : Option (String × Nat × Nat) :=
  (ts.find? (·.field? == some field)).map Tree.outline

/-- The operator of a step, and whether it stands in front. It is the first token if that is a sign,
and the last one otherwise, whatever it is. -/
def stepIn (types : List String) : Option (Bool × String) :=
  types.head?.bind fun first => types.getLast?.map fun last =>
    (isStepSign first, if isStepSign first then first else last)

/-- Two nodes show the same to their own normal form, apart from the normal forms of their children.
Most fields matter only for nodes of one type. -/
structure ShowsAlike (t t' : Tree) : Prop where
  type_eq : t'.type = t.type
  start_eq : t'.start = t.start
  stop_eq : t'.stop = t.stop
  operator_eq : outlineIn "operator" t'.children = outlineIn "operator" t.children
  created_eq : t.type = "object_creation_expression" →
    outlineIn "type" t'.children = outlineIn "type" t.children
  tested_eq : t.type = "instanceof_expression" →
    outlineIn "right" t'.children = outlineIn "right" t.children ∧
      outlineIn "pattern" t'.children = outlineIn "pattern" t.children
  step_eq : t.type = "update_expression" →
    stepIn (t'.children.map (·.type)) = stepIn (t.children.map (·.type))

/-- An operator is known by its type. -/
lemma operatorOf_congr {t t' : Tree}
    (h : outlineIn "operator" t'.children = outlineIn "operator" t.children) :
    operatorOf t' = operatorOf t := by
  have hread (t : Tree) : operatorOf t = ((outlineIn "operator" t.children).map (·.1)).getD "" := by
    rw [operatorOf, Tree.child?, outlineIn]
    cases t.children.find? (·.field? == some "operator") <;> rfl
  rw [hread, hread, h]

/-- The name of a type is the text of its node, which is known by where the node lies. -/
lemma typeNameOf_congr {o o' : Option Tree} (h : o'.map Tree.outline = o.map Tree.outline) :
    typeNameOf source o' = typeNameOf source o := by
  cases o' with
  | none =>
    cases o with
    | none => rfl
    | some c => cases h
  | some c' =>
    cases o with
    | none => cases h
    | some c =>
      simp only [Tree.outline, Option.map_some, Option.some.injEq, Prod.mk.injEq] at h
      simp only [typeNameOf, textOf, h.2.1, h.2.2]

/-- A step is made of the operator that is read, of the normal forms of the children and of the
span. -/
lemma update_eq (t : Tree) (ns : List Node) :
    update source t ns =
      ((stepIn (t.children.map (·.type))).elim (.error .emptyUpdate) fun step =>
        .ok { kind := if step.1 then NodeKind.prefixUpdate else NodeKind.postfixUpdate
              value := .ofString step.2
              children := ns.map fun n => { n with role := some Role.operand }
              span := spanOf source t }) := by
  rw [update, stepIn, List.head?_map, List.getLast?_map]
  cases t.children.head? with
  | none => rfl
  | some first => cases t.children.getLast? <;> rfl

lemma spanOf_congr {t t' : Tree} (hstart : t'.start = t.start) (hstop : t'.stop = t.stop) :
    spanOf source t' = spanOf source t := by
  rw [spanOf, spanOf, hstart, hstop]

/-- Nodes that show the same have the same normal form over the same nodes. What a normal form reads
of the node itself is in its outline or in one of the fields. -/
lemma ShowsAlike.normalNode_eq {t t' : Tree} (h : ShowsAlike t t') (ns : List Node) :
    normalNode source t' ns = normalNode source t ns := by
  have hspan : spanOf source t' = spanOf source t := spanOf_congr h.start_eq h.stop_eq
  have htext : textOf source t' = textOf source t := by rw [textOf, textOf, h.start_eq, h.stop_eq]
  have hcreation (htype : t.type = "object_creation_expression") :
      creation source t' ns = creation source t ns := by
    rw [creation, creation, hspan, Tree.child?, typeNameOf_congr (h.created_eq htype), Tree.child?]
  have htest (htype : t.type = "instanceof_expression") :
      typeTest source t' ns = typeTest source t ns := by
    obtain ⟨hright, hpattern⟩ := h.tested_eq htype
    have hname : typeNameOf source ((t'.child? "right").or (t'.child? "pattern")) =
        typeNameOf source ((t.child? "right").or (t.child? "pattern")) := by
      refine typeNameOf_congr ?_
      rw [Option.map_or, Option.map_or]
      exact congrArg₂ Option.or hright hpattern
    rw [typeTest, typeTest, hname, hspan]
  have hupdate (htype : t.type = "update_expression") :
      update source t' ns = update source t ns := by
    rw [update_eq, update_eq, h.step_eq htype, hspan]
  have hoperation : operation source t' ns = operation source t ns := by
    rw [operation, operation, h.type_eq, operatorOf_congr h.operator_eq, hspan]
  -- The others read the type, the text and the span alone.
  have hgeneric : generic source t' ns = generic source t ns := by
    rw [generic, generic, h.type_eq, htext, hspan]
  have hreference : methodReference source t' ns = methodReference source t ns := by
    rw [methodReference, methodReference, h.type_eq, hspan]
  have hquoted : quoted source t' = quoted source t := by
    rw [quoted, quoted, h.type_eq, htext, hspan]
  rw [normalNode, normalNode, h.type_eq]
  split <;> simp only [*, integer, floating, methodCall, fieldAccess]

/-- Nodes that show the same, with the same normal forms of their children, have the same normal
form. -/
lemma ShowsAlike.normalOf_eq {t t' : Tree} (h : ShowsAlike t t')
    (hkids : normalsOf source t'.children = normalsOf source t.children) :
    normalOf source t' = normalOf source t := by
  have hnode : normalNode source t' = normalNode source t := funext h.normalNode_eq
  have hkept : normalsOf source (keptChildren t') = normalsOf source (keptChildren t) := by
    rw [keptChildren, keptChildren, h.type_eq]
    split
    · rfl
    · rw [normalsOf_filter, normalsOf_filter, hkids]
  rw [Java.normalOf_eq, Java.normalOf_eq, hnode, hkept]

/-! ## Among the children -/

section Children

variable {field : String} {before after : List Tree} {x x' : Tree}

/-- A child can be replaced by one that has the same field and shows the same, as far as this field
is read. -/
lemma outlineIn_replace (hfield : x'.field? = x.field?)
    (hshows : x.field? = some field → x'.outline = x.outline) :
    outlineIn field (before ++ x' :: after) = outlineIn field (before ++ x :: after) := by
  rw [outlineIn, outlineIn, List.find?_append, List.find?_append, List.find?_cons, List.find?_cons,
    hfield]
  by_cases hx : x.field? = some field
  · rw [beq_iff_eq.mpr hx, Option.map_or, Option.map_or]
    exact congrArg (fun o => Option.or _ (some o)) (hshows hx)
  · rw [beq_eq_false_iff_ne.mpr hx]

/-- A child without a field is read by no field. -/
lemma outlineIn_insert (hfield : x.field? = none) :
    outlineIn field (before ++ x :: after) = outlineIn field (before ++ after) := by
  have hx : (x.field? == some field) = false := by rw [hfield]; rfl
  rw [outlineIn, outlineIn, List.find?_append, List.find?_append, List.find?_cons, hx]

/-- A token of a step can be replaced by one that is no sign, unless the operator is read from
it. -/
lemma stepIn_replace {before after : List String} {a a' : String} (ha' : isStepSign a' = false)
    (hfirst : before = [] → isStepSign a = false)
    (hlast : after = [] → ∃ first ∈ (before ++ [a]).head?, isStepSign first = true) :
    stepIn (before ++ a' :: after) = stepIn (before ++ a :: after) := by
  cases after with
  | nil =>
    obtain ⟨first, hmem, hsign⟩ := hlast rfl
    cases before with
    | nil =>
      obtain rfl : a = first := Option.mem_some.mp hmem
      rw [hfirst rfl] at hsign
      cases hsign
    -- Neither the first nor the last token changes, or the first decides.
    | cons b before =>
      obtain rfl : b = first := Option.mem_some.mp hmem
      simp [stepIn, hsign, List.getLast?_cons]
  | cons c after =>
    cases before with
    | nil => simp [stepIn, ha', hfirst rfl, List.getLast?_cons]
    | cons b before => simp [stepIn, List.getLast?_cons]

/-- A token between two others changes nothing of a step. -/
lemma stepIn_insert {before after : List String} {a : String} (hbefore : before ≠ [])
    (hafter : after ≠ []) :
    stepIn (before ++ a :: after) = stepIn (before ++ after) := by
  cases before with
  | nil => exact absurd rfl hbefore
  | cons b before =>
    cases after with
    | nil => exact absurd rfl hafter
    | cons c after => simp [stepIn, List.getLast?_cons]

/-- A child can be replaced by one that leaves the same. -/
lemma normalsOf_replace (h : normalsOf source [x'] = normalsOf source [x]) :
    normalsOf source (before ++ x' :: after) = normalsOf source (before ++ x :: after) := by
  rw [normalsOf_around, normalsOf_around, h]

/-- A child that leaves nothing can be put in. -/
lemma normalsOf_insert (h : normalsOf source [x] = .ok []) :
    normalsOf source (before ++ x :: after) = normalsOf source (before ++ after) := by
  rw [normalsOf_around, normalsOf_append, h]
  rfl

end Children

/-! ## Each edit -/

/-- Tokens leave nothing. -/
lemma normalsOf_tokens {ts : List Tree} (h : ∀ c ∈ ts, c.isNamed = false) :
    normalsOf source ts = .ok [] := by
  induction ts with
  | nil => rfl
  | cons t ts ih =>
    obtain ⟨ht, hts⟩ := List.forall_mem_cons.mp h
    rw [normalsOf_cons, ht, Bool.false_and, if_neg Bool.false_ne_true, ih hts]

/-- A comment leaves nothing. -/
lemma normalsOf_comment {c : Tree} (hc : c.isComment = true) : normalsOf source [c] = .ok [] := by
  rw [normalsOf_cons, hc, Bool.not_true, Bool.and_false, if_neg Bool.false_ne_true]
  rfl

/-- The field of a tree does not show in its normal form. -/
lemma normalOf_fieldless (t : Tree) : normalOf source t.fieldless = normalOf source t :=
  ShowsAlike.normalOf_eq ⟨rfl, rfl, rfl, rfl, fun _ => rfl, fun _ => ⟨rfl, rfl⟩, fun _ => rfl⟩ rfl

/-- Parentheses have the normal form of what they enclose, if they enclose anything that leaves
one. -/
lemma normalOf_enclosed {child : Tree} {opening closing : List Tree} (start stop : Nat)
    (htokens : ∀ c ∈ opening ++ closing, c.isNamed = false) :
    normalOf source (child.enclosed opening closing start stop) =
      normalsOf source [child.fieldless] >>= fun ns => .ok ns.head? := by
  obtain ⟨hopening, hclosing⟩ := List.forall_mem_append.mp htokens
  calc normalOf source (child.enclosed opening closing start stop)
      = normalsOf source (opening ++ child.fieldless :: closing) >>= fun ns => .ok ns.head? := by
        rw [normalOf_eq]
        exact congrArg (· >>= _) (normalsOf_filter _)
    _ = normalsOf source [child.fieldless] >>= fun ns => .ok ns.head? := by
        rw [normalsOf_around, normalsOf_tokens hopening, normalsOf_tokens hclosing]
        cases normalsOf source [child.fieldless] with
        | error e => rfl
        | ok ns => exact congrArg (fun ms : List Node => Except.ok ms.head?) (List.append_nil ns)

/-- Parentheses leave what they enclose, in the role that they have taken over. -/
lemma normalsOf_enclosed {child : Tree} {opening closing : List Tree} (start stop : Nat)
    (hnamed : child.isNamed = true) (htokens : ∀ c ∈ opening ++ closing, c.isNamed = false) :
    normalsOf source [child.enclosed opening closing start stop] = normalsOf source [child] := by
  rw [normalsOf_kept rfl, normalOf_enclosed start stop htokens]
  -- a comment in parentheses leaves nothing, and neither do these
  by_cases hcomment : child.isComment = true
  · have hfieldless : child.fieldless.isComment = true := hcomment
    rw [normalsOf_comment hcomment, normalsOf_comment hfieldless]
    rfl
  · have hkept : (child.isNamed && !child.isComment) = true := by
      rw [hnamed, eq_false_of_ne_true hcomment]
      rfl
    have hfieldless : (child.fieldless.isNamed && !child.fieldless.isComment) = true := hkept
    rw [normalsOf_kept hkept, normalsOf_kept hfieldless, normalOf_fieldless]
    cases normalOf source child with
    | error e => rfl
    | ok o => cases o <;> rfl

/-- The child is read as it stands, as the operator of a step included. -/
def IsBare (t : Tree) (before : List Tree) (child : Tree) (after : List Tree) : Prop :=
  IsReadRaw t child ∨ IsStepChild t before child after

/-- An edited node is of the type it was of, and stands where it stood. -/
lemma Edited.outline_eq {bare : Tree → List Tree → Tree → List Tree → Prop} {t t' : Tree}
    (h : Edited bare t t') :
    t'.outline = t.outline ∧ t'.field? = t.field? ∧ t'.isNamed = t.isNamed := by
  cases h <;> exact ⟨rfl, rfl, rfl⟩

/-- Parentheses around a child that is not bare hide nothing that is read. The child is read by no
field, and is not the token that a step reads. -/
lemma showsAlike_enclose {t child : Tree} {before after : List Tree} (opening closing : List Tree)
    (start stop : Nat) (hkids : t.children = before ++ child :: after)
    (hbare : ¬ IsBare t before child after) :
    ShowsAlike t
      { t with children := before ++ child.enclosed opening closing start stop :: after } := by
  obtain ⟨hraw, hstep⟩ := not_or.mp hbare
  obtain ⟨hoperator, hothers⟩ := not_or.mp hraw
  obtain ⟨hcreated, htested⟩ := not_or.mp hothers
  -- What is looked up by a field is found as before, unless it is the child that is enclosed.
  have hread {field : String} (hfield : child.field? ≠ some field) :
      outlineIn field (before ++ child.enclosed opening closing start stop :: after) =
        outlineIn field t.children := by
    rw [hkids]
    exact outlineIn_replace rfl fun h => absurd h hfield
  refine ⟨rfl, rfl, rfl, hread hoperator, fun htype => hread fun h => hcreated ⟨htype, h⟩,
    fun htype => ?_, fun htype => ?_⟩
  · exact ⟨hread fun h => htested ⟨htype, .inl h⟩, hread fun h => htested ⟨htype, .inr h⟩⟩
  · rw [hkids, List.map_append, List.map_append, List.map_cons, List.map_cons]
    refine stepIn_replace rfl (fun hbefore => ?_) fun hafter => ?_
    · have hnot : ¬ isStepSign child.type = true :=
        fun h => hstep ⟨htype, .inl ⟨List.map_eq_nil_iff.mp hbefore, h⟩⟩
      exact eq_false_of_ne_true hnot
    · have hnot : ¬ ∀ first ∈ (before ++ [child]).head?, isStepSign first.type = false := fun h =>
        hstep ⟨htype, .inr ⟨List.map_eq_nil_iff.mp hafter, h⟩⟩
      obtain ⟨first, hfirst⟩ := Classical.not_forall.mp hnot
      obtain ⟨hmem, hsign⟩ := Classical.not_imp.mp hfirst
      refine ⟨first.type, ?_, eq_true_of_ne_false hsign⟩
      have hmap : before.map (·.type) ++ [child.type] = (before ++ [child]).map (·.type) := by
        rw [List.map_append, List.map_singleton]
      rw [hmap, List.head?_map]
      exact Option.mem_map_of_mem _ hmem

/-- A comment that is not at the edge of a step hides nothing that is read. -/
lemma showsAlike_comment {t c : Tree} {before after : List Tree}
    (hkids : t.children = before ++ after) (hfield : c.field? = none)
    (hedge : t.type = "update_expression" → before ≠ [] ∧ after ≠ []) :
    ShowsAlike t { t with children := before ++ c :: after } := by
  have hread (field : String) :
      outlineIn field (before ++ c :: after) = outlineIn field t.children := by
    rw [hkids]
    exact outlineIn_insert hfield
  refine ⟨rfl, rfl, rfl, hread _, fun _ => hread _, fun _ => ⟨hread _, hread _⟩, fun htype => ?_⟩
  obtain ⟨hbefore, hafter⟩ := hedge htype
  rw [hkids, List.map_append, List.map_append, List.map_cons]
  exact stepIn_insert (mt List.map_eq_nil_iff.mp hbefore) (mt List.map_eq_nil_iff.mp hafter)

/-- What is read of a child does not depend on what is inside. -/
lemma showsAlike_within {t child child' : Tree} {before after : List Tree}
    (hkids : t.children = before ++ child :: after) (hfield : child'.field? = child.field?)
    (houtline : child'.outline = child.outline) :
    ShowsAlike t { t with children := before ++ child' :: after } := by
  have hread (field : String) :
      outlineIn field (before ++ child' :: after) = outlineIn field t.children := by
    rw [hkids]
    exact outlineIn_replace hfield fun _ => houtline
  refine ⟨rfl, rfl, rfl, hread _, fun _ => hread _, fun _ => ⟨hread _, hread _⟩, fun _ => ?_⟩
  have htype : child'.type = child.type := congrArg Prod.fst houtline
  rw [hkids, List.map_append, List.map_append, List.map_cons, List.map_cons, htype]

/-- An edit leaves the normal form of a tree as it was. The induction is on where the edit is
made. -/
lemma Edited.normalOf_eq {t t' : Tree} (h : Edited IsBare t t') :
    normalOf source t' = normalOf source t := by
  induction h with
  | enclose before after start stop hkids hnamed hbare htokens =>
    refine (showsAlike_enclose _ _ start stop hkids hbare).normalOf_eq ?_
    rw [hkids]
    exact normalsOf_replace (normalsOf_enclosed start stop hnamed htokens)
  | comment before after hkids hcomment hfield hedge =>
    refine (showsAlike_comment hkids hfield hedge).normalOf_eq ?_
    rw [hkids]
    exact normalsOf_insert (normalsOf_comment hcomment)
  | @within t child child' before after hkids hchild ih =>
    obtain ⟨houtline, hfield, hnamed⟩ := hchild.outline_eq
    refine (showsAlike_within hkids hfield houtline).normalOf_eq ?_
    rw [hkids]
    refine normalsOf_replace ?_
    -- The child is still of its type, so it counts as before and plays its role.
    have htype : child'.type = child.type := congrArg Prod.fst houtline
    have hcomment : child'.isComment = child.isComment := by
      rw [Tree.isComment, Tree.isComment, htype]
    have hrole : inRole child' = inRole child := by
      funext n
      rw [inRole, inRole, hfield]
    rw [normalsOf_cons, normalsOf_cons, hnamed, hcomment, ih, hrole]

/-- Any number of parentheses and comments, anywhere in a tree, leave what it is converted to as it
was, and so the failure if it cannot be converted. -/
theorem convert_of_edited (source : Source) {t t' : Tree} (h : ReflTransGen (Edited IsBare) t t') :
    convert source t' = convert source t := by
  induction h with
  | refl => rfl
  | tail _ hedit ih =>
    have houtline := hedit.outline_eq.1
    refine (convert_congr hedit.normalOf_eq ?_).trans ih
    exact spanOf_congr (congrArg (·.2.1) houtline) (congrArg (·.2.2) houtline)

/-- The call `f(x)` whose argument is a tree. -/
def sampleCall (argument : Tree) : Tree :=
  { type := "method_invocation", start := 0, stop := 4
    children :=
      [{ type := "identifier", field? := some "name", start := 0, stop := 1 },
        { type := "argument_list", field? := some "arguments", start := 1, stop := 4,
          children := [argument] }] }

/-- The argument of `f(x)`. -/
def sampleArgument : Tree :=
  { type := "identifier", start := 2, stop := 3 }

/-- A comment in front of the argument. -/
def sampleNote : Tree :=
  { type := "block_comment", start := 2, stop := 2 }

/-- The argument in parentheses, with a comment in front of it inside of them. -/
def sampleAside : Tree :=
  { sampleArgument.enclosed [] [] 2 3 with children := [sampleNote, sampleArgument] }

/-- Two edits, first the parentheses and then the comment in them. -/
theorem convert_of_edited_sampleCall :
    ReflTransGen (Edited IsBare) (sampleCall sampleArgument) (sampleCall sampleAside) ∧
      convert (.ofString "f(x)") (sampleCall sampleAside) =
        convert (.ofString "f(x)") (sampleCall sampleArgument) := by
  let arguments : Tree :=
    { type := "argument_list", field? := some "arguments", start := 1, stop := 4,
      children := [sampleArgument] }
  have hfree : ¬ IsBare arguments [] sampleArgument [] := by
    rintro ((h | ⟨h, -⟩ | ⟨h, -⟩) | ⟨h, -⟩) <;> exact absurd h (by decide)
  have hparens : Edited IsBare (sampleCall sampleArgument)
      (sampleCall (sampleArgument.enclosed [] [] 2 3)) := by
    refine .within [_] [] rfl (.enclose [] [] 2 3 rfl rfl hfree ?_)
    exact fun c hc => absurd hc List.not_mem_nil
  -- The comment goes inside of the parentheses, where there is no first or last token to look at.
  have hnote :
      Edited IsBare (sampleCall (sampleArgument.enclosed [] [] 2 3)) (sampleCall sampleAside) := by
    refine .within [_] [] rfl (.within [] [] rfl (.comment [] [sampleArgument] rfl rfl rfl ?_))
    exact fun htype => absurd htype (by decide)
  have hedits := (ReflTransGen.single hparens).tail hnote
  exact ⟨hedits, convert_of_edited _ hedits⟩

/-- A step whose only token is a name, or the name in parentheses. -/
def nameStep (token : Tree) : Tree :=
  { type := "update_expression", start := 0, stop := 1, children := [token] }

/-- Parentheses show where a step reads its operator from a named child: they take its place. So the
condition on steps cannot be left out, even for trees without errors. -/
theorem not_convert_of_edited : ¬ ∀ (source : Source) (t t' : Tree), t.hasError = false →
    ReflTransGen (Edited fun t _ child _ => IsReadRaw t child) t t' →
      convert source t' = convert source t := by
  intro hall
  let name : Tree := { type := "identifier", start := 0, stop := 1 }
  have hfree : ¬ IsReadRaw (nameStep name) name := by
    rintro (h | ⟨h, -⟩ | ⟨h, -⟩) <;> exact absurd h (by decide)
  have hedit : Edited (fun t _ child _ => IsReadRaw t child) (nameStep name)
      (nameStep (name.enclosed [] [] 0 1)) :=
    .enclose [] [] 0 1 rfl rfl hfree fun c hc => absurd hc List.not_mem_nil
  have hbefore :
      (convert (.ofString "x") (nameStep name)).map Node.value = .ok (.ofString "identifier") := by
    rw [convert, convertFrom_enter]
    rfl
  -- Without signs the last token passes for the operator, and in parentheses it has another type.
  have hafter : (convert (.ofString "x") (nameStep (name.enclosed [] [] 0 1))).map Node.value =
      .ok (.ofString "parenthesized_expression") := by
    rw [convert, convertFrom_enter]
    rfl
  rw [hall (.ofString "x") _ _ (by decide) (.single hedit), hbefore] at hafter
  exact absurd (Except.ok.inj hafter) (by decide)

end ShapeLint.Java
