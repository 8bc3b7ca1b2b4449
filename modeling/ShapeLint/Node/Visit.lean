import ShapeLint.Node.Basic

/-!
# Visits

A visit is a node together with the nodes above it. `Node.visits` goes through a tree from the root
on, every node before its children and these from left to right. It keeps the visits that are still
to be made on a stack, so that no tree is too deep for it.
-/

namespace ShapeLint

/-- A visited node and the nodes above it, nearest first. -/
structure Visit where
  node : Node
  above : List Node := []
deriving Inhabited

namespace Visit

/-- The parent of the visited node. -/
def parent? (v : Visit) : Option Node :=
  v.above.head?

/-- The visit of the parent. -/
def outer? (v : Visit) : Option Visit :=
  match v.above with
  | [] => none
  | node :: above => some { node, above }

/-- The role of the visited node in its parent; the root plays none. -/
def role (v : Visit) : Option String :=
  match v.above with
  | [] => none
  | _ :: _ => v.node.role

/-- The visits of the children. -/
def inner (v : Visit) : List Visit :=
  v.node.children.map fun node => { node, above := v.node :: v.above }

/-- A visit as it is shown in messages. -/
def display (v : Visit) : String :=
  "NodePair(" ++ v.node.display ++ ", parent=" ++ ((v.parent?.map Node.display).getD "None") ++ ")"

/-- The number of nodes below and at the visits of a stack, which are those that are still to be
visited. -/
def pending : List Visit → Nat
  | [] => 0
  | v :: stack => v.node.size + pending stack

theorem pending_append (s t : List Visit) : pending (s ++ t) = pending s + pending t := by
  induction s with
  | nil => simp [pending]
  | cons v s ih => simp only [List.cons_append, pending, ih]; omega

theorem pending_map (ns above : List Node) :
    pending (ns.map fun node => { node, above }) = Node.sizeList ns := by
  induction ns with
  | nil => rfl
  | cons n ns ih => simp only [List.map_cons, pending, Node.sizeList, ih]

theorem pending_inner (v : Visit) : pending v.inner + 1 = v.node.size := by
  rw [inner, pending_map]
  obtain ⟨⟨_, _, _, children, _⟩, _⟩ := v
  simp only [Node.size]
  omega

/-- The visits that follow from a stack: the topmost is made next, and the visits of its children
take its place. -/
def run : List Visit → List Visit
  | [] => []
  | v :: stack => v :: run (v.inner ++ stack)
termination_by stack => pending stack
decreasing_by
  have h := pending_inner v
  simp only [pending_append, pending]
  omega

end Visit

/-- The visits of all nodes of a tree. -/
def Node.visits (root : Node) : List Visit :=
  Visit.run [{ node := root }]

end ShapeLint
