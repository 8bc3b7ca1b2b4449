import ShapeLint.Proofs.Declarations
import ShapeLint.Proofs.Order

/-!
# Where nodes stand

Conversion moves nodes, renames them and leaves some away, but gives none a span of its own: the
span of every node is that of a part of the tree that is converted. One step puts the span of a tree
above those of its children (`spanned_normalNode`), and recursion on the tree does the rest
(`exists_span_of_convert`).
-/

namespace ShapeLint

/-- The spans of a node and of all that is below it are of a kind. -/
inductive Node.Spanned (S : Span → Prop) : Node → Prop where
  | node {n : Node} : S n.span → (∀ c ∈ n.children, Spanned S c) → Spanned S n

section
variable {S : Span → Prop}

/-- What holds of all spans in a tree holds of the spans of all its visits. -/
lemma Node.Spanned.visited {n : Node} (h : n.Spanned S) (above : List Node) :
    ∀ v ∈ n.preorder above, S v.node.span := by
  induction h generalizing above with
  | @node n hspan _ ih =>
    intro v hv
    rw [Node.preorder_eq, List.mem_cons] at hv
    rcases hv with rfl | hv
    · exact hspan
    · obtain ⟨w, hw, hv⟩ := List.mem_flatMap.1 hv
      obtain ⟨c, hc, rfl⟩ := List.mem_map.1 hw
      exact ih c hc _ v hv

lemma Node.spanned_leaf {n : Node} (hspan : S n.span) (h : n.children = []) : n.Spanned S :=
  .node hspan (h ▸ List.forall_mem_nil _)

lemma Node.Spanned.withRole {n : Node} (h : n.Spanned S) (role : Option String) :
    ({ n with role } : Node).Spanned S := by
  obtain ⟨hspan, hchildren⟩ := h
  exact .node hspan hchildren

namespace Java

/-- A name that becomes the name of what is declared stays where it was, without what is below
it. -/
lemma spanned_declared {n : Node} (h : n.Spanned S) : (declared n).Spanned S := by
  rw [declared]
  split
  case isTrue =>
    obtain ⟨hspan, -⟩ := h
    exact Node.spanned_leaf hspan rfl
  case isFalse => exact h

/-- Arguments are taken out of their list and stand where they stood in it. -/
lemma spanned_argumentsOf {n : Node} (h : n.Spanned S) : ∀ m ∈ argumentsOf n, m.Spanned S := by
  obtain ⟨-, hchildren⟩ := h
  intro m hm
  obtain ⟨arg, harg, rfl⟩ := List.mem_map.1 hm
  exact (hchildren arg harg).withRole _

variable {source : Source}

lemma spanned_of_literal {t : Tree} {n : Node} (hspan : S (spanOf source t))
    (h : integer source t = .ok n ∨ floating source t = .ok n ∨ quoted source t = .ok n) :
    n.Spanned S :=
  Node.spanned_leaf ((leaf_of_literal h).2.2 ▸ hspan) (leaf_of_literal h).2.1

section
variable {t : Tree} {ns : List Node} (hspan : S (spanOf source t)) (hns : ∀ m ∈ ns, m.Spanned S)
include hspan hns

lemma spanned_methodCall : (methodCall source t ns).Spanned S := by
  refine .node hspan fun c hc => ?_
  obtain ⟨m, hm, hc⟩ := List.mem_flatMap.1 hc
  split at hc
  · obtain rfl := List.mem_singleton.1 hc
    exact hns c hm
  · split at hc
    · exact spanned_argumentsOf (hns m hm) c hc
    · cases hc

lemma spanned_creation : (creation source t ns).Spanned S := by
  refine .node hspan fun c hc => ?_
  obtain ⟨m, hm, hc⟩ := List.mem_flatMap.1 hc
  split at hc
  · exact spanned_argumentsOf (hns m hm) c hc
  · split at hc
    · cases hc
    · obtain rfl := List.mem_singleton.1 hc
      exact hns c hm

lemma spanned_update {n : Node} (h : update source t ns = .ok n) : n.Spanned S := by
  rw [update] at h
  split at h
  · obtain rfl := Except.ok.inj h
    refine .node hspan fun c hc => ?_
    obtain ⟨m, hm, rfl⟩ := List.mem_map.1 hc
    exact (hns m hm).withRole _
  · cases h

lemma spanned_methodReference : (methodReference source t ns).Spanned S := by
  refine .node hspan fun c hc => ?_
  rw [methodReference] at hc
  dsimp only at hc
  split at hc
  case h_1 last other others hreverse =>
    have hall : ∀ m ∈ last :: other :: others, m.Spanned S :=
      fun m hm => hns m (List.mem_reverse.1 (hreverse ▸ hm))
    rcases List.mem_cons.1 (List.mem_reverse.1 hc) with rfl | hc
    · exact spanned_declared (hall last (List.mem_cons_self ..))
    · exact hall c (List.mem_cons_of_mem _ hc)
  case h_2 => exact hns c hc

lemma spanned_generic : (generic source t ns).Spanned S := by
  refine .node hspan fun c hc => ?_
  obtain ⟨m, hm, rfl⟩ := List.mem_map.1 hc
  split
  · exact spanned_declared (hns m hm)
  · exact hns m hm

/-- The normal form of a tree stands where the tree and the normal forms of its children stand.
There is one case for each kind of tree that has its own normal form, and one for all others. -/
lemma spanned_normalNode {n : Node} (h : normalNode source t ns = .ok (some n)) : n.Spanned S := by
  have hmade : ∀ {x : Except NormalFailure Node}, x.map some = .ok (some n) → x = .ok n := by
    intro x hx
    obtain ⟨m, hsome, hm⟩ := exists_of_map_some_eq_ok hx
    rwa [Option.some.inj hsome]
  rw [normalNode] at h
  split at h
  -- Parentheses have no span of their own: they stand for what they enclose.
  case h_1 => exact hns n (List.mem_of_head? (Except.ok.inj h))
  case h_3 | h_4 | h_5 | h_6 => exact spanned_of_literal hspan (.inl (hmade h))
  case h_7 | h_8 => exact spanned_of_literal hspan (.inr (.inl (hmade h)))
  case h_9 | h_10 => exact spanned_of_literal hspan (.inr (.inr (hmade h)))
  case h_20 => exact spanned_update hspan hns (hmade h)
  all_goals obtain rfl := Option.some.inj (Except.ok.inj h)
  case h_2 | h_11 | h_12 | h_13 => exact Node.spanned_leaf hspan rfl
  case h_14 => exact spanned_methodCall hspan hns
  case h_15 | h_17 => exact .node hspan fun c hc => hns c (List.mem_filter.1 hc).1
  case h_16 => exact spanned_creation hspan hns
  case h_18 | h_19 => exact .node hspan hns
  case h_21 => exact spanned_methodReference hspan hns
  case h_22 => exact spanned_generic hspan hns

end

/-- The normal forms of several trees are those of the single trees, in the roles of these. -/
lemma exists_of_mem_normalsOf {ts : List Tree} {ns : List Node}
    (h : normalsOf source ts = .ok ns) {m : Node} (hm : m ∈ ns) :
    ∃ c ∈ ts, ∃ n, normalOf source c = .ok (some n) ∧ m = inRole c n := by
  induction ts generalizing ns with
  | nil =>
    obtain rfl : [] = ns := Except.ok.inj h
    cases hm
  | cons t ts ih =>
    rw [normalsOf_cons] at h
    split at h
    case isTrue =>
      obtain ⟨o, ho, h⟩ := exists_of_bind_eq_ok h
      obtain ⟨ms, hms, h⟩ := exists_of_bind_eq_ok h
      obtain rfl := Except.ok.inj h
      -- The node was made of the first tree, or of one behind it.
      rcases List.mem_append.1 hm with hm | hm
      · obtain ⟨n, rfl, rfl⟩ := Option.map_eq_some_iff.1 (Option.mem_toList.1 hm)
        exact ⟨t, List.mem_cons_self .., n, ho, rfl⟩
      · obtain ⟨c, hc, hn⟩ := ih hms hm
        exact ⟨c, List.mem_cons_of_mem t hc, hn⟩
    case isFalse =>
      obtain ⟨c, hc, hn⟩ := ih h hm
      exact ⟨c, List.mem_cons_of_mem t hc, hn⟩

lemma mem_children_of_mem_keptChildren {t c : Tree} (h : c ∈ keptChildren t) : c ∈ t.children := by
  rw [keptChildren] at h
  split at h
  · cases h
  · exact (List.mem_filter.1 h).1

/-- All spans in a normal form are those of parts of the tree, by recursion on the tree. -/
lemma spanned_normalOf {t : Tree} {n : Node} (h : normalOf source t = .ok (some n))
    (hspans : ∀ sub ∈ t.subtrees, S (spanOf source sub)) : n.Spanned S := by
  rw [Tree.subtrees_eq, List.forall_mem_cons] at hspans
  obtain ⟨ns, hns, hn⟩ := exists_of_normalOf h
  refine spanned_normalNode hspans.1 (fun m hm => ?_) hn
  obtain ⟨c, hc, n', hn', rfl⟩ := exists_of_mem_normalsOf hns hm
  have hchild := mem_children_of_mem_keptChildren hc
  have hsmaller := Tree.size_lt_of_mem_children hchild
  refine (spanned_normalOf hn' fun sub hsub => ?_).withRole _
  exact hspans.2 sub (List.mem_flatMap.2 ⟨c, hchild, hsub⟩)
termination_by t.size

/-- Every node stands where a part of the tree stands that it comes from. A tree without a normal
form becomes a node that stands where the tree does. -/
theorem exists_span_of_convert {t : Tree} {n : Node} (h : convert source t = .ok n) :
    ∀ v ∈ n.visits, ∃ sub ∈ t.subtrees, v.node.span = spanOf source sub := by
  have hspanned : n.Spanned fun x => ∃ sub ∈ t.subtrees, x = spanOf source sub := by
    rw [convert, convertFrom_enter] at h
    cases ho : normalOf source t with
    | error e =>
      rw [ho] at h
      cases h
    | ok o =>
      rw [ho] at h
      cases o with
      -- A tree that becomes nothing is an empty program, with the span of the tree.
      | none =>
        obtain rfl := Except.ok.inj h
        exact Node.spanned_leaf ⟨t, by simp [Tree.subtrees_eq t], rfl⟩ rfl
      | some m =>
        obtain rfl := Except.ok.inj h
        exact (spanned_normalOf ho fun sub hsub => ⟨sub, hsub, rfl⟩).withRole _
  rw [Node.visits_eq_preorder]
  exact hspanned.visited []

/-- A tree that is accepted is converted. -/
lemma convert_of_ofTree {path : String} {t : Tree} {root : Node}
    (h : ofTree source path t = .ok root) :
    convert source t = .ok root := by
  rw [ofTree] at h
  split at h
  case isTrue => cases h
  case isFalse =>
    cases hn : convert source t with
    | error e =>
      rw [hn] at h
      cases h
    | ok n =>
      rw [hn] at h
      exact congrArg _ (Except.ok.inj h)

end Java

end

end ShapeLint
