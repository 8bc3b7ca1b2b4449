import Mathlib.Data.List.ReduceOption
import Mathlib.Logic.Function.Iterate
import ShapeLint.Proofs.Conversion

/-!
# The machine that converts trees

`convertFrom` goes on until nothing is left to do. `Machine.next` is one round of it: a child is
entered, or a node is left with its normal form or with a failure. What a state comes to is the same
after a round as before it (`outcome_next`), and every round takes away some of the work that is
left (`work_next_lt`). So from any state the machine comes to an end, and to the end that
`convertFrom` tells; for a tree this is its normal form by recursion, after fewer rounds than twice
the tree has nodes.

Where there is no normal form, the failure is that of one node. `Tree.postorder` lists the nodes
that are converted, those below a node before the node itself and otherwise from left to right, and
`ownFailure?` is the failure of a node whose children have all been converted. Recursion on the
tree, which goes through the nodes in this order, fails with the first of these failures
(`findSome?_postorder`).
-/

namespace ShapeLint.Java

variable {source : Source}

/-! ## Rounds -/

/-- A state of the machine. -/
inductive Machine where
  /-- It is inside of the node of a frame and of those on a stack, the innermost first. -/
  | inside (f : Frame) (stack : List Frame)
  /-- It has come to an end. -/
  | ended (result : Except NormalFailure (Option Node))

namespace Machine

/-- The state at the start of a tree. -/
def start (t : Tree) : Machine :=
  .inside (.enter t) []

/-- What follows when a node is left: a failure is the end, and a normal form goes to the frame
below. -/
def leave (t : Tree) : Except NormalFailure (Option Node) → List Frame → Machine
  | .error e, _ => .ended (.error e)
  | .ok o, [] => .ended (.ok o)
  | .ok o, outer :: stack => .inside (outer.add (o.map (inRole t))) stack

/-- One round: the next child is entered, or a node without further children is left. -/
def next (source : Source) : Machine → Machine
  | .inside ⟨t, child :: pending, built⟩ stack =>
    .inside (.enter child) (⟨t, pending, built⟩ :: stack)
  | .inside ⟨t, [], built⟩ stack => leave t (normalNode source t built.reverse) stack
  | .ended result => .ended result

/-- What a state comes to. -/
def outcome (source : Source) : Machine → Except NormalFailure (Option Node)
  | .inside f stack => convertFrom source f stack
  | .ended result => result

/-- The work that is left, which is what makes `convertFrom` come to an end. -/
def work : Machine → Nat
  | .inside f stack => Frame.work (f :: stack)
  | .ended _ => 0

/-- A round does not change what a state comes to: `convertFrom` takes the same round first. -/
lemma outcome_next (m : Machine) : (m.next source).outcome source = m.outcome source := by
  match m with
  | .ended result => rfl
  | .inside ⟨t, child :: pending, built⟩ stack =>
    exact (convertFrom_child t child pending built stack).symm
  | .inside ⟨t, [], built⟩ stack =>
    rw [next, outcome, convertFrom_built]
    cases normalNode source t built.reverse with
    | error e => rfl
    | ok o =>
      cases stack with
      | nil => rfl
      | cons outer stack => rfl

/-- Every round inside of a node takes away some work. -/
lemma work_next_lt (source : Source) (f : Frame) (stack : List Frame) :
    ((Machine.inside f stack).next source).work < (Machine.inside f stack).work := by
  match f with
  | ⟨t, child :: pending, built⟩ =>
    have hchild := Frame.sizeList_keptChildren child
    simp only [next, work, Frame.work, Frame.enter, Tree.sizeList]
    omega
  | ⟨t, [], built⟩ =>
    -- The frame is left, and the one below it has the same children to do as before.
    have hleft : (leave t (normalNode source t built.reverse) stack).work ≤ Frame.work stack := by
      cases normalNode source t built.reverse with
      | error e => exact Nat.zero_le _
      | ok o =>
        cases stack with
        | nil => exact Nat.zero_le _
        | cons outer stack => exact Nat.le_of_eq (Frame.work_add outer _ stack)
    calc (leave t (normalNode source t built.reverse) stack).work
        ≤ Frame.work stack := hleft
      _ < Frame.work (⟨t, [], built⟩ :: stack) := by simp only [Frame.work]; omega

/-- The machine comes to an end within the work that is left, and to the end that was told. The
induction is on that work. -/
lemma exists_iterate_next (m : Machine) :
    ∃ rounds ≤ m.work, (next source)^[rounds] m = .ended (m.outcome source) := by
  match m with
  | .ended result => exact ⟨0, Nat.le_refl _, rfl⟩
  | .inside f stack =>
    have hless := work_next_lt source f stack
    obtain ⟨rounds, hrounds, hend⟩ := exists_iterate_next ((Machine.inside f stack).next source)
    refine ⟨rounds + 1, by omega, ?_⟩
    rw [Function.iterate_succ_apply, hend, outcome_next]
termination_by m.work

/-- At the start of a tree there is less work than twice its nodes. -/
lemma work_start_lt (t : Tree) : (start t).work < 2 * t.size := by
  have hkept := Frame.sizeList_keptChildren t
  simp only [start, work, Frame.work, Frame.enter]
  omega

end Machine

/-! ## Recursion on the tree -/

/-- The normal forms of trees that count, as a map over them. A tree that becomes nothing leaves no
trace. -/
lemma normalsOf_eq_mapM {ts : List Tree} (hkept : ∀ c ∈ ts, (c.isNamed && !c.isComment) = true) :
    normalsOf source ts =
      (ts.mapM fun c => (normalOf source c).map (Option.map (inRole c))) >>= fun os =>
        .ok os.reduceOption := by
  induction ts with
  | nil => rfl
  | cons t ts ih =>
    obtain ⟨ht, hts⟩ := List.forall_mem_cons.mp hkept
    rw [normalsOf_cons, if_pos ht, ih hts, List.mapM_cons]
    cases normalOf source t with
    | error e => rfl
    | ok o =>
      cases ts.mapM fun c => (normalOf source c).map (Option.map (inRole c)) with
      | error e => rfl
      | ok os => cases o <;> rfl

/-- The recursion that the machine carries out. -/
lemma normalOf_eq_mapM (t : Tree) :
    normalOf source t =
      ((keptChildren t).mapM fun c => (normalOf source c).map (Option.map (inRole c))) >>= fun os =>
        normalNode source t os.reduceOption := by
  rw [normalOf_eq, normalsOf_eq_mapM fun c hc => kept_of_mem_keptChildren hc, bind_assoc]
  rfl

/-- The node of a tree that stands below no other: it plays no role, and a tree that becomes nothing
is an empty program. -/
def rooted (source : Source) (t : Tree) : Option Node → Node
  | some n => { n with role := none }
  | none => { kind := "program", span := spanOf source t }

/-- What a tree is converted to is its normal form, as the root. -/
lemma convert_eq_normalOf (t : Tree) :
    convert source t = (normalOf source t).map (rooted source t) := by
  rw [convert, convertFrom_enter]
  cases normalOf source t with
  | error e => rfl
  | ok o => cases o <;> rfl

/-! ## The first failure -/

mutual

/-- The nodes of a tree that are converted, each after those below it. Nothing below a literal or
the like is converted. -/
def Tree.postorder : Tree → List Tree
  | ⟨type, field?, isNamed, isMissing, isFlagged, start, stop, children⟩ =>
    (if opaqueTypes.contains type then [] else postorderList children) ++
      [⟨type, field?, isNamed, isMissing, isFlagged, start, stop, children⟩]

/-- The nodes of several trees that are converted, one tree after the other. -/
def Tree.postorderList : List Tree → List Tree
  | [] => []
  | t :: ts => (if t.isNamed && !t.isComment then t.postorder else []) ++ postorderList ts

end

/-- The nodes in order: all that are below a node from left to right, and then the node. -/
lemma Tree.postorder_eq (t : Tree) : t.postorder = (keptChildren t).flatMap postorder ++ [t] := by
  have hlist (ts : List Tree) :
      postorderList ts = (ts.filter fun c => c.isNamed && !c.isComment).flatMap postorder := by
    induction ts with
    | nil => rfl
    | cons t ts ih =>
      rw [postorderList, ih, List.filter_cons]
      split
      · rw [List.flatMap_cons]
      · rw [List.nil_append]
  obtain ⟨type, field?, isNamed, isMissing, isFlagged, start, stop, children⟩ := t
  rw [postorder, keptChildren]
  split
  · rfl
  · rw [hlist]

/-- The failure of what may fail. -/
def failure? {α : Type} : Except NormalFailure α → Option NormalFailure
  | .error e => some e
  | .ok _ => none

/-- The failure of a node whose children that count all have a normal form. A node above a failure
is not converted, and has none of its own. -/
def ownFailure? (source : Source) (t : Tree) : Option NormalFailure :=
  match normalsOf source (keptChildren t) with
  | .error _ => none
  | .ok ns => failure? (normalNode source t ns)

lemma failure?_eq_some_iff {α : Type} {x : Except NormalFailure α} {e : NormalFailure} :
    failure? x = some e ↔ x = .error e := by
  cases x <;> simp [failure?]

/-- A node fails with the first failure below it, and with its own if there is none. -/
lemma failure?_normalOf (t : Tree) :
    failure? (normalOf source t) =
      (failure? (normalsOf source (keptChildren t))).or (ownFailure? source t) := by
  rw [normalOf_eq, ownFailure?]
  cases normalsOf source (keptChildren t) with
  | error e => rfl
  | ok ns => rfl

/-- Several trees fail with the first failure among them. -/
lemma failure?_normalsOf_cons {t : Tree} (hkept : (t.isNamed && !t.isComment) = true)
    (ts : List Tree) :
    failure? (normalsOf source (t :: ts)) =
      (failure? (normalOf source t)).or (failure? (normalsOf source ts)) := by
  rw [normalsOf_cons, if_pos hkept]
  cases normalOf source t with
  | error e => rfl
  | ok o => cases normalsOf source ts <;> rfl

/-- Recursion on the tree fails with the first failure in the order of the nodes. The recursion is
on the tree, and within a node on its children. -/
lemma findSome?_postorder (t : Tree) :
    t.postorder.findSome? (ownFailure? source) = failure? (normalOf source t) := by
  -- The children, a list of trees that count, are gone through one after another.
  have hlist (ts : List Tree) (hsize : Tree.sizeList ts < t.size)
      (hkept : ∀ c ∈ ts, (c.isNamed && !c.isComment) = true) :
      (ts.flatMap Tree.postorder).findSome? (ownFailure? source) =
        failure? (normalsOf source ts) := by
    induction ts with
    | nil => rfl
    | cons c ts ih =>
      obtain ⟨hc, hts⟩ := List.forall_mem_cons.mp hkept
      have hless : c.size + Tree.sizeList ts < t.size := hsize
      rw [List.flatMap_cons, List.findSome?_append, findSome?_postorder c, ih (by omega) hts,
        failure?_normalsOf_cons hc]
  have hsize := Frame.sizeList_keptChildren t
  have hbelow := hlist (keptChildren t) (by omega) fun c hc => kept_of_mem_keptChildren hc
  rw [Tree.postorder_eq, List.findSome?_append, hbelow, failure?_normalOf, List.findSome?_singleton]
termination_by t.size
decreasing_by omega

/-- The machine is the recursion. From every tree it comes to an end, after fewer rounds than twice
the tree has nodes, with what the recursion gives: the normal form that `normalNode` makes of those
of the children that count. That is the node the tree is converted to. Conversion fails exactly if a
node fails that is converted, and it fails as the first of them does. -/
theorem convert_eq_recursion (source : Source) (t : Tree) :
    (∃ rounds < 2 * t.size,
      (Machine.next source)^[rounds] (.start t) = .ended (normalOf source t)) ∧
      (∀ s, normalOf source s =
        ((keptChildren s).mapM fun c => (normalOf source c).map (Option.map (inRole c))) >>=
          fun os => normalNode source s os.reduceOption) ∧
      convert source t = (normalOf source t).map (rooted source t) ∧
      ∀ e, convert source t = .error e ↔ t.postorder.findSome? (ownFailure? source) = some e := by
  refine ⟨?_, normalOf_eq_mapM, convert_eq_normalOf t, fun e => ?_⟩
  · obtain ⟨rounds, hrounds, hend⟩ := Machine.exists_iterate_next (Machine.start t)
    refine ⟨rounds, Nat.lt_of_le_of_lt hrounds (Machine.work_start_lt t), ?_⟩
    rw [hend]
    exact congrArg Machine.ended (convertFrom_enter t)
  · rw [findSome?_postorder, failure?_eq_some_iff, convert_eq_normalOf]
    cases normalOf source t with
    | error f => simp [Except.map]
    | ok o => simp [Except.map]

end ShapeLint.Java
