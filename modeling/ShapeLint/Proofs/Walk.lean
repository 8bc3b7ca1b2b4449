import Mathlib.Data.List.Forall2
import Mathlib.Data.List.Infix
import ShapeLint.Proofs.Order

/-!
# The walk through a tree

Two nodes of a tree can be equal without being the same, so a node is known by its address: the
numbers of the children that lead to it from the root. `Node.addresses` lists the addresses of a
tree, and they are in lexicographic order: a node before what is below it, and of two children the
left one with all that is below it before the right one. The visits of a tree are those of its
addresses, in this order.

What a visit says about its surroundings is told by the address. A visit that is still to be made
has already all nodes above it (`Visit.StandsAt`), and handing this on to the children is all that a
step of the walk has to do (`Visit.StandsAt.inner`). So the outer visits lead from the parent up to
the root. The role is the one that is stored with the node among the children of its parent, and so
it is found by looking for the node there, as long as no two nodes are one object
(`Node.roleOf_child`).
-/

namespace ShapeLint

/-! ## Addresses -/

namespace Node

/-- The node at an address: the numbers are those of children, from the root down. -/
def nodeAt? (n : Node) : List Nat → Option Node
  | [] => some n
  | i :: p => n.children[i]?.bind fun c => c.nodeAt? p

/-- An address that is made of two leads from the root to a node and from there on. -/
lemma nodeAt?_append (n : Node) (p q : List Nat) :
    n.nodeAt? (p ++ q) = (n.nodeAt? p).bind fun m => m.nodeAt? q := by
  induction p generalizing n with
  | nil => rfl
  | cons i p ih =>
    rw [List.cons_append, nodeAt?, nodeAt?]
    cases n.children[i]? with
    | none => rfl
    | some c => exact ih c

mutual

/-- The addresses of a tree: first the root, and then those below each child. -/
def addresses : Node → List (List Nat)
  | ⟨_, _, _, children, _⟩ => [] :: addressesFrom 0 children

/-- The addresses below several children, the first of which has a number. -/
def addressesFrom (i : Nat) : List Node → List (List Nat)
  | [] => []
  | n :: ns => n.addresses.map (i :: ·) ++ addressesFrom (i + 1) ns

end

lemma addresses_eq (n : Node) : n.addresses = [] :: addressesFrom 0 n.children := by
  obtain ⟨kind, value, role, children, span⟩ := n
  rfl

/-- An address below several children starts with the number of one of them and goes on below it. -/
lemma mem_addressesFrom {ns : List Node} {i : Nat} {p : List Nat} :
    p ∈ addressesFrom i ns ↔ ∃ j n q, ns[j]? = some n ∧ q ∈ n.addresses ∧ p = (i + j) :: q := by
  induction ns generalizing i with
  | nil => simp [addressesFrom]
  | cons n ns ih =>
    rw [addressesFrom, List.mem_append, List.mem_map, ih]
    constructor
    · rintro (⟨q, hq, rfl⟩ | ⟨j, m, q, hm, hq, rfl⟩)
      · exact ⟨0, n, q, rfl, hq, rfl⟩
      · exact ⟨j + 1, m, q, hm, hq, by rw [Nat.add_assoc, Nat.add_comm 1 j]⟩
    · rintro ⟨j, m, q, hm, hq, rfl⟩
      cases j with
      | zero =>
        obtain rfl := Option.some.inj hm
        exact .inl ⟨q, hq, rfl⟩
      | succ j => exact .inr ⟨j, m, q, hm, hq, by rw [Nat.add_assoc, Nat.add_comm 1 j]⟩

lemma cons_mem_addresses_iff {n : Node} {i : Nat} {p : List Nat} :
    i :: p ∈ n.addresses ↔ ∃ c, n.children[i]? = some c ∧ p ∈ c.addresses := by
  rw [addresses_eq, List.mem_cons, mem_addressesFrom]
  constructor
  · rintro (h | ⟨j, c, q, hc, hq, h⟩)
    · cases h
    · obtain ⟨rfl, rfl⟩ := List.cons.inj h
      rw [Nat.zero_add]
      exact ⟨c, hc, hq⟩
  · rintro ⟨c, hc, hp⟩
    exact .inr ⟨i, c, p, hc, hp, by rw [Nat.zero_add]⟩

/-- The addresses of a tree are those at which there is a node. -/
lemma mem_addresses_iff {n : Node} {p : List Nat} :
    p ∈ n.addresses ↔ (n.nodeAt? p).isSome = true := by
  induction p generalizing n with
  | nil => simp [addresses_eq, nodeAt?]
  | cons i p ih =>
    rw [cons_mem_addresses_iff, nodeAt?]
    cases n.children[i]? with
    | none => simp
    | some c => simp [ih]

mutual

/-- Addresses come in lexicographic order, so no address comes twice. The empty address is the first
of all, and those below one child have a smaller first number than those below the next. -/
lemma addresses_pairwise : ∀ n : Node, n.addresses.Pairwise (List.Lex (· < ·))
  | ⟨kind, value, role, children, span⟩ => by
    refine List.Pairwise.cons (fun p hp => ?_) (addressesFrom_pairwise 0 children)
    obtain ⟨j, n, q, -, -, rfl⟩ := mem_addressesFrom.mp hp
    exact .nil

lemma addressesFrom_pairwise (i : Nat) :
    ∀ ns : List Node, (addressesFrom i ns).Pairwise (List.Lex (· < ·))
  | [] => .nil
  | n :: ns => by
    refine List.pairwise_append.mpr ⟨?_, addressesFrom_pairwise (i + 1) ns, fun p hp q hq => ?_⟩
    · exact List.pairwise_map.mpr ((addresses_pairwise n).imp fun h => .cons h)
    · obtain ⟨p, -, rfl⟩ := List.mem_map.mp hp
      obtain ⟨j, m, q, -, -, rfl⟩ := mem_addressesFrom.mp hq
      exact .rel (by omega)

end

/-! ## Roles of objects -/

/-- The role that an object plays among the children of the node at an address: that of the first
child that is the object. The objects are given by their addresses, and two addresses may have one
object. -/
def roleOf {α : Type} [DecidableEq α] (object : List Nat → α) (n : Node) (p : List Nat) (x : α) :
    Option String :=
  (n.children.zipIdx.find? fun c => object (p ++ [c.2]) = x).bind fun c => c.1.role

/-- Where the children are distinct objects, the role that is found is the one that is stored with
the child. -/
lemma roleOf_child {α : Type} [DecidableEq α] {object : List Nat → α} {n c : Node}
    {p : List Nat} {i : Nat} (hc : n.children[i]? = some c)
    (hdistinct : ∀ j < i, object (p ++ [j]) ≠ object (p ++ [i])) :
    n.roleOf object p (object (p ++ [i])) = c.role := by
  obtain ⟨hi, rfl⟩ := List.getElem?_eq_some_iff.mp hc
  have hfind : (n.children.zipIdx.find? fun c => object (p ++ [c.2]) = object (p ++ [i])) =
      some (n.children[i], i) := by
    rw [List.find?_eq_some_iff_getElem]
    refine ⟨by simp, i, by simpa using hi, by simp, fun j hj => ?_⟩
    simpa using hdistinct j hj
  rw [roleOf, hfind]
  rfl

end Node

/-- The addresses above an address, the nearest first. -/
def addressesAbove (p : List Nat) : List (List Nat) :=
  p.inits.dropLast.reverse

/-- Above the address of a child lies that of its parent, and all that lies above the parent. -/
lemma addressesAbove_concat (p : List Nat) (i : Nat) :
    addressesAbove (p ++ [i]) = p :: addressesAbove p := by
  obtain ⟨above, habove⟩ : ∃ above, p.inits = above ++ [p] := by
    rcases List.eq_nil_or_concat p with rfl | ⟨q, j, rfl⟩
    · exact ⟨[], rfl⟩
    · rw [List.concat_eq_append]
      exact ⟨q.inits, List.inits_append q [j]⟩
  rw [addressesAbove, addressesAbove, List.inits_append, habove]
  simp

namespace Visit

/-! ## Visits stand at addresses -/

/-- The visit belongs to an address of a tree: it is a visit of the node there, below the nodes at
the addresses above. -/
structure StandsAt (root : Node) (p : List Nat) (v : Visit) : Prop where
  node : root.nodeAt? p = some v.node
  above : List.Forall₂ (fun q n => root.nodeAt? q = some n) (addressesAbove p) v.above

variable {root : Node} {p : List Nat} {v : Visit}

/-- A step of the walk: the visits of the children belong to the addresses of the children. -/
lemma StandsAt.inner (h : v.StandsAt root p) {i : Nat} {c : Node}
    (hc : v.node.children[i]? = some c) :
    StandsAt root (p ++ [i]) ⟨c, v.node :: v.above⟩ where
  node := by
    rw [Node.nodeAt?_append, h.node, Option.bind_some, Node.nodeAt?, hc]
    rfl
  above := by
    rw [addressesAbove_concat]
    exact .cons h.node h.above

lemma standsAt_root (root : Node) : StandsAt root [] ⟨root, []⟩ where
  node := rfl
  above := .nil

mutual

/-- A run of the walk: from a visit that belongs to an address, the visits belong to the addresses
below it, in their order. The recursion is that of the tree. -/
lemma StandsAt.preorder (root : Node) (p : List Nat) (above : List Node) :
    ∀ n : Node, StandsAt root p ⟨n, above⟩ →
      List.Forall₂ (StandsAt root) (n.addresses.map (p ++ ·)) (n.preorder above)
  | ⟨kind, value, role, children, span⟩, h => by
    rw [Node.preorder, Node.addresses, List.map_cons, List.append_nil]
    refine .cons h (StandsAt.preorderList root p _ 0 children fun j c hc => ?_)
    rw [Nat.zero_add]
    exact h.inner hc

lemma StandsAt.preorderList (root : Node) (p : List Nat) (above : List Node) (i : Nat) :
    ∀ ns : List Node, (∀ j c, ns[j]? = some c → StandsAt root (p ++ [i + j]) ⟨c, above⟩) →
      List.Forall₂ (StandsAt root) ((Node.addressesFrom i ns).map (p ++ ·))
        (Node.preorderList above ns)
  | [], _ => .nil
  | n :: ns, h => by
    have hfirst := StandsAt.preorder root (p ++ [i]) above n (h 0 n rfl)
    have hothers := StandsAt.preorderList root p above (i + 1) ns fun j c hc => by
      rw [Nat.add_assoc, Nat.add_comm 1 j]
      exact h (j + 1) c hc
    have hmap : (n.addresses.map (i :: ·)).map (p ++ ·) = n.addresses.map ((p ++ [i]) ++ ·) := by
      simp
    rw [Node.preorderList, Node.addressesFrom, List.map_append, hmap]
    exact List.rel_append hfirst hothers

end

/-! ## Outer visits -/

/-- An outer visit has fewer nodes above it, so going from visit to outer visit comes to an end. -/
lemma length_above_of_outer? {outer : Visit} (h : v.outer? = some outer) :
    outer.above.length < v.above.length := by
  obtain ⟨n, above⟩ := v
  cases above with
  | nil => cases h
  | cons m above =>
    obtain rfl := Option.some.inj h
    exact Nat.lt_succ_self _

/-- The visits that are reached by going from visit to outer visit, the nearest first. -/
def outers (v : Visit) : List Visit :=
  match houter : v.outer? with
  | none => []
  | some outer =>
    have _ := length_above_of_outer? houter
    outer :: outer.outers
termination_by v.above.length

lemma outers_root (n : Node) : outers ⟨n, []⟩ = [] := by
  rw [outers]
  rfl

lemma outers_cons (n m : Node) (above : List Node) :
    outers ⟨n, m :: above⟩ = ⟨m, above⟩ :: outers ⟨m, above⟩ := by
  rw [outers]
  rfl

/-- The outer visits are visits of the nodes above. -/
lemma map_node_outers (n : Node) (above : List Node) :
    (outers ⟨n, above⟩).map Visit.node = above := by
  induction above generalizing n with
  | nil => rw [outers_root, List.map_nil]
  | cons m above ih => rw [outers_cons, List.map_cons, ih]

/-- The outer visits are visits of the nodes at the addresses above. -/
lemma StandsAt.outers (h : v.StandsAt root p) :
    List.Forall₂ (fun q (o : Visit) => root.nodeAt? q = some o.node)
      (addressesAbove p) v.outers := by
  rw [← List.forall₂_map_right_iff (f := Visit.node) (R := fun q n => root.nodeAt? q = some n),
    map_node_outers]
  exact h.above

/-- Only the visit of the root has no outer visit. -/
lemma StandsAt.outer?_eq_none_iff (h : v.StandsAt root p) : v.outer? = none ↔ p = [] := by
  have habove := h.above
  obtain ⟨n, above⟩ := v
  rcases List.eq_nil_or_concat p with rfl | ⟨q, i, rfl⟩
  · cases habove
    exact iff_of_true rfl rfl
  · rw [List.concat_eq_append, addressesAbove_concat] at habove
    obtain ⟨parent, others, -, -, rfl⟩ := List.forall₂_cons_left_iff.mp habove
    simp [Visit.outer?]

/-! ## What a visit tells -/

/-- What is known of the visit of an address of a tree whose nodes are objects: it is a visit of the
node there, its outer visits lead from the parent up to the root, only the visit of the root has
none, and the root plays no role. -/
structure Reaches {α : Type} [DecidableEq α] (root : Node) (object : List Nat → α) (p : List Nat)
    (v : Visit) : Prop where
  node : root.nodeAt? p = some v.node
  outers : List.Forall₂ (fun q (o : Visit) => root.nodeAt? q = some o.node)
    (addressesAbove p) v.outers
  outer?_eq_none_iff : v.outer? = none ↔ p = []
  role_root : p = [] → v.role = none
  /-- The role of a child is the one that is stored at its place, and the one that is found by
  looking for the child. -/
  role_child : ∀ q i, p = q ++ [i] →
    ∃ parent child, v.parent? = some parent ∧ root.nodeAt? q = some parent ∧
      parent.children[i]? = some child ∧ v.role = child.role ∧
      parent.roleOf object q (object p) = child.role

/-- A visit below another one is of a child of the parent, in the role of the child. -/
lemma StandsAt.exists_child {q : List Nat} {i : Nat} (h : v.StandsAt root (q ++ [i])) :
    ∃ parent, v.parent? = some parent ∧ root.nodeAt? q = some parent ∧
      parent.children[i]? = some v.node ∧ v.role = v.node.role := by
  obtain ⟨hnode, habove⟩ := h
  obtain ⟨n, above⟩ := v
  rw [addressesAbove_concat] at habove
  obtain ⟨parent, others, hparent, -, rfl⟩ := List.forall₂_cons_left_iff.mp habove
  refine ⟨parent, rfl, hparent, ?_, rfl⟩
  rw [Node.nodeAt?_append, hparent, Option.bind_some, Node.nodeAt?] at hnode
  obtain ⟨child, hchild, hsame⟩ := Option.bind_eq_some_iff.mp hnode
  rw [hchild]
  exact hsame

/-- A visit that belongs to an address tells what is to be known of it, if different addresses have
different objects. -/
lemma StandsAt.reaches {α : Type} [DecidableEq α] {object : List Nat → α} (h : v.StandsAt root p)
    (hdistinct : ∀ p ∈ root.addresses, ∀ q ∈ root.addresses, object p = object q → p = q) :
    v.Reaches root object p where
  node := h.node
  outers := h.outers
  outer?_eq_none_iff := h.outer?_eq_none_iff
  role_root := by
    rintro rfl
    obtain ⟨-, habove⟩ := h
    obtain ⟨n, above⟩ := v
    cases habove
    rfl
  role_child := by
    rintro q i rfl
    obtain ⟨parent, hparent, hat, hchild, hrole⟩ := h.exists_child
    refine ⟨parent, v.node, hparent, hat, hchild, hrole,
      Node.roleOf_child hchild fun j hj hsame => ?_⟩
    -- The children to the left are there, so they are other objects.
    have hmem (k : Nat) (hk : k ≤ i) : q ++ [k] ∈ root.addresses := by
      have hlength := (List.getElem?_eq_some_iff.mp hchild).1
      rw [Node.mem_addresses_iff, Node.nodeAt?_append, hat, Option.bind_some, Node.nodeAt?,
        List.getElem?_eq_getElem (by omega)]
      rfl
    have heq := hdistinct _ (hmem j (by omega)) _ (hmem i (Nat.le_refl i)) hsame
    have hji := (List.cons.inj (List.append_cancel_left heq)).1
    omega

end Visit

/-- The walk through a tree is the recursive one, every node before its children and these from left
to right. It makes one visit for each address of the tree, in the order of the addresses; each visit
is of the node at its address, its outer visits lead from the parent up to the root, and where no
two nodes are one object, its role is the one that is stored at the place of the node among the
children of its parent. -/
theorem Node.visits_reach_addresses {α : Type} [DecidableEq α] (root : Node) (object : List Nat → α)
    (hdistinct : ∀ p ∈ root.addresses, ∀ q ∈ root.addresses, object p = object q → p = q) :
    root.visits = root.preorder [] ∧ root.addresses.Pairwise (List.Lex (· < ·)) ∧
      (∀ p, p ∈ root.addresses ↔ (root.nodeAt? p).isSome = true) ∧
      List.Forall₂ (Visit.Reaches root object) root.addresses root.visits := by
  refine ⟨root.visits_eq_preorder, root.addresses_pairwise, fun p => mem_addresses_iff, ?_⟩
  have hstands := Visit.StandsAt.preorder root [] [] root (Visit.standsAt_root root)
  rw [List.map_congr_left (g := id) fun p _ => List.nil_append p, List.map_id] at hstands
  rw [root.visits_eq_preorder]
  exact hstands.imp fun _ _ h => h.reaches hdistinct

/-- A sum of a name and the same name: its operands differ in nothing but their roles. -/
def Node.doubled : Node :=
  { kind := NodeKind.binary
    value := .ofString "+"
    children := [{ kind := NodeKind.name, value := .ofString "x", role := some Role.left },
      { kind := NodeKind.name, value := .ofString "x", role := some Role.right }] }

theorem Node.visits_reach_addresses_doubled :
    (∀ p ∈ doubled.addresses, ∀ q ∈ doubled.addresses, id p = id q → p = q) ∧
      List.Forall₂ (Visit.Reaches doubled id) [[], [0], [1]] doubled.visits :=
  ⟨fun _ _ _ _ h => h, (visits_reach_addresses doubled id fun _ _ _ _ h => h).2.2.2⟩

end ShapeLint
