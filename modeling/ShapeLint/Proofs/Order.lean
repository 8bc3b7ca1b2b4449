import ShapeLint.Proofs.Workers

/-!
# The order of outcomes

What an analysis without a limit gives, and in which order. Trees are walked with a stack of visits
that are still to be made. `Node.preorder` lists the same visits by recursion over the tree: a node,
and then its children from left to right.

An outcome has a place: the item it belongs to, the visit in the tree of the item, and the rule.
`Stands` says which outcome stands at which place, without a word on how it is found. The outcomes
of a run are exactly those, each once, in the order of their places; rules that did not compile come
before all of them. So a run over items that come in two lots is the run over the first lot,
followed by what the second lot adds.
-/

namespace ShapeLint

/-! ## Walking a tree -/

mutual

/-- The visits of a tree that stands below other nodes: the node itself, then those of its children.
Each visit knows the nodes above it, the nearest first. -/
def Node.preorder (above : List Node) : Node → List Visit
  | ⟨kind, value, role, children, span⟩ =>
    ⟨⟨kind, value, role, children, span⟩, above⟩ ::
      Node.preorderList (⟨kind, value, role, children, span⟩ :: above) children

/-- The visits of several trees, one tree after the other. -/
def Node.preorderList (above : List Node) : List Node → List Visit
  | [] => []
  | n :: ns => Node.preorder above n ++ Node.preorderList above ns

end

lemma Node.preorderList_eq_flatMap (above ns : List Node) :
    Node.preorderList above ns = ns.flatMap (Node.preorder above) := by
  induction ns with
  | nil => rw [Node.preorderList, List.flatMap_nil]
  | cons n ns ih => rw [Node.preorderList, ih, List.flatMap_cons]

/-- The visits below a node are those of the trees that a walk puts on its stack. -/
lemma Node.preorder_eq (above : List Node) (n : Node) :
    n.preorder above = ⟨n, above⟩ :: (Visit.inner ⟨n, above⟩).flatMap fun v =>
      v.node.preorder v.above := by
  obtain ⟨kind, value, role, children, span⟩ := n
  rw [Node.preorder, Node.preorderList_eq_flatMap, Visit.inner, List.flatMap_map]

/-- The visits that follow from a stack are those of its trees, from the topmost down. The induction
follows the walk, which puts the children of a node where it stood. -/
lemma Visit.run_eq_flatMap (stack : List Visit) :
    Visit.run stack = stack.flatMap fun v => v.node.preorder v.above := by
  fun_induction Visit.run stack with
  | case1 => rfl
  | case2 v stack ih =>
    rw [ih, List.flatMap_cons, Node.preorder_eq, List.flatMap_append, List.cons_append]

lemma Node.visits_eq_preorder (root : Node) : root.visits = root.preorder [] := by
  rw [Node.visits, Visit.run_eq_flatMap, List.flatMap_singleton]

namespace Analysis

/-! ## The outcomes of one item -/

/-- Every script has a tree, and no rule fails at a node of it. This is what a run needs to go to
its end. -/
structure Analysable (rules : List Rule) (items : List Item) : Prop where
  rooted : ∀ script, Item.script script ∈ items → ∃ root, script.root? = some root
  tested : ∀ script root, Item.script script ∈ items → script.root? = some root →
    ∀ visit ∈ root.preorder [], ∀ rule ∈ rules, ∃ flagged, rule.applies visit = .ok flagged

lemma Analysable.of_subset {rules : List Rule} {items more : List Item} (h : Analysable rules more)
    (hsub : items ⊆ more) : Analysable rules items where
  rooted script hscript := h.rooted script (hsub hscript)
  tested script root hscript := h.tested script root (hsub hscript)

/-- Whether a rule flags a visited node. A test that fails flags nothing. -/
def flags (visit : Visit) (rule : Rule) : Bool :=
  match rule.applies visit with
  | .ok flagged => flagged
  | .error _ => false

lemma flags_iff {visit : Visit} {rule : Rule} :
    flags visit rule = true ↔ rule.applies visit = .ok true := by
  unfold flags
  cases rule.applies visit with
  | error e => simp
  | ok flagged => simp

/-- The outcomes that an item is expected to have: its error, or for each visit in order the rules
that flag it, in order. -/
def expected (rules : List Rule) : Item → List Outcome
  | .failed path fault => [.scriptError path fault]
  | .script script =>
    match script.root? with
    | none => []
    | some root =>
      (root.preorder []).flatMap fun visit =>
        (rules.filter (flags visit)).map (.issue script · visit)

/-- If no rule fails at a visit, its issues are those of the rules that flag it, in the order of the
rules. -/
lemma issuesAt_eq {script : Script} {visit : Visit} {rules : List Rule}
    (h : ∀ rule ∈ rules, ∃ flagged, rule.applies visit = .ok flagged) :
    issuesAt script visit rules =
      .ok ((rules.filter (flags visit)).map (.issue script · visit)) := by
  induction rules with
  | nil => rfl
  | cons rule rules ih =>
    obtain ⟨flagged, hflagged⟩ := h rule (List.mem_cons_self ..)
    have hrest := ih fun other hother => h other (List.mem_cons_of_mem _ hother)
    rw [issuesAt, hflagged, hrest]
    cases flagged <;> simp [flags, hflagged]

lemma issuesIn_eq {script : Script} {rules : List Rule} {visits : List Visit}
    (h : ∀ visit ∈ visits, ∀ rule ∈ rules, ∃ flagged, rule.applies visit = .ok flagged) :
    issuesIn script rules visits =
      .ok (visits.flatMap fun visit =>
        (rules.filter (flags visit)).map (.issue script · visit)) := by
  induction visits with
  | nil => rfl
  | cons visit visits ih =>
    have hrest := ih fun other hother => h other (List.mem_cons_of_mem _ hother)
    rw [issuesIn, issuesAt_eq (h visit (List.mem_cons_self ..)), hrest, List.flatMap_cons]

/-- What is found in an item is what is expected of it. -/
lemma ofItem_eq_expected {rules : List Rule} {items : List Item}
    (h : Analysable rules items) {item : Item} (hitem : item ∈ items) :
    ofItem rules item = .ok (expected rules item) := by
  cases item with
  | failed path fault => rfl
  | script script =>
    obtain ⟨root, hroot⟩ := h.rooted script hitem
    have htested := h.tested script root hitem hroot
    rw [ofItem, expected, hroot]
    simp only [Node.visits_eq_preorder, issuesIn_eq htested]
    rfl

/-! ## A run without a limit -/

section Unlimited

variable {a : Analysis}

lemma isLimit_of_unlimited (hlimit : a.maxIssues = none) (issues : Nat) :
    a.isLimit issues = false := by
  rw [isLimit, hlimit]

/-- Without a limit, all outcomes of a result are given, and then the run goes on. The state it goes
on in has counted issues, and is otherwise left open. -/
lemma deliver_unlimited (hlimit : a.maxIssues = none) (next : RunState → RunTrace)
    (found : List Outcome) (s : RunState) :
    ∃ s', s'.truncated = s.truncated ∧ s'.issues = s.issues + found.countP Outcome.isIssue ∧
      (a.deliver next found s).outcomes = found ++ (next s').outcomes ∧
      (a.deliver next found s).failure? = (next s').failure? ∧
      (a.deliver next found s).final = (next s').final := by
  induction found generalizing s with
  | nil => exact ⟨s, rfl, rfl, rfl, rfl, rfl⟩
  | cons o os ih =>
    obtain ⟨s', hkept, hissues, houtcomes, hfailure, hfinal⟩ :=
      ih (if o.isIssue then { s with issues := s.issues + 1 } else s)
    refine ⟨s', ?_, ?_, ?_, ?_, ?_⟩
    · rw [hkept]
      split <;> rfl
    · rw [hissues, List.countP_cons]
      cases o.isIssue with
      | false => rfl
      | true => exact Nat.add_right_comm ..
    -- Without a limit no outcome ends the run, so the first is given and the others follow.
    all_goals
      simp only [deliver, isLimit_of_unlimited hlimit, Bool.and_false, Bool.false_eq_true, if_false]
    · exact congrArg (o :: ·) houtcomes
    · exact hfailure
    · exact hfinal

/-- Without a limit, the results are given one after the other, and the run ends of its own accord.
-/
lemma follow_unlimited (hlimit : a.maxIssues = none) (results : List (List Outcome))
    (s : RunState) :
    (a.follow (results.map fun found => .found (.ok found)) s).outcomes = results.flatten ∧
      (a.follow (results.map fun found => .found (.ok found)) s).failure? = none ∧
      (a.follow (results.map fun found => .found (.ok found)) s).final.truncated = s.truncated := by
  induction results generalizing s with
  | nil => exact ⟨rfl, rfl, rfl⟩
  | cons found results ih =>
    simp only [List.map_cons, follow, List.flatten_cons]
    obtain ⟨s', hkept, -, houtcomes, hfailure, hfinal⟩ :=
      deliver_unlimited hlimit (a.follow (results.map fun found => .found (.ok found))) found s
    obtain ⟨ihoutcomes, ihfailure, ihtruncated⟩ := ih s'
    rw [houtcomes, hfailure, hfinal, ihoutcomes, ihfailure, ihtruncated]
    exact ⟨rfl, rfl, hkept⟩

/-- Without a limit, a run does not end before its first item. -/
lemma runItems_eq_follow (hlimit : a.maxIssues = none) (draws : List Draw) :
    a.runItems draws = a.follow (a.steps [] draws) {} := by
  rw [runItems, isLimit_of_unlimited hlimit]
  rfl

/-- The part of a run that deals with items gives what each item is expected to have, in the order
of the items. -/
lemma runItems_unlimited (hlimit : a.maxIssues = none) {draws : List Draw}
    (hdraws : ∀ failure, Draw.broken failure ∉ draws) (h : Analysable a.rules (drawnItems draws)) :
    (a.runItems draws).outcomes = (drawnItems draws).flatMap (expected a.rules) ∧
      (a.runItems draws).failure? = none ∧ (a.runItems draws).final.truncated = false := by
  have hresults : (results (a.steps [] draws)).map Step.found =
      ((drawnItems draws).map (expected a.rules)).map fun found => .found (.ok found) := by
    rw [results_steps [] draws hdraws, List.nil_append, List.map_map, List.map_map]
    refine List.map_congr_left ?_
    intro item hitem
    rw [Function.comp_apply, ofItem_eq_expected h hitem]
    rfl
  -- What is reported does not depend on when items are drawn, so the steps may be taken without the
  -- draws.
  have hagree : RunState.Agree {} {} := ⟨rfl, rfl⟩
  have hreport :=
    @report_follow a a rfl (a.steps [] draws) (not_broken_steps [] draws hdraws) _ _ hagree
  rw [hresults] at hreport
  simp only [RunTrace.report, RunReport.mk.injEq] at hreport
  rw [runItems_eq_follow hlimit, hreport.1, hreport.2.1, hreport.2.2.2, List.flatMap_def]
  exact follow_unlimited hlimit _ {}

/-- The outcomes of a run are the rules that did not compile and then those of its items, with no
more than entries in between. -/
lemma outcomes_run (draws : List Draw) :
    (a.run draws).outcomes =
      a.ruleErrors.map (fun (id, fault) => .ruleError id fault) ++
        (a.runItems draws).outcomes := by
  by_cases hrules : a.rules.isEmpty = true <;>
    simp [run, RunTrace.outcomes, hrules, List.filterMap_append, List.filterMap_map,
      Function.comp_def]

lemma failure?_run (draws : List Draw) : (a.run draws).failure? = (a.runItems draws).failure? := by
  have hnone : a.ruleErrors.findSome? (fun _ => (none : Option RunFailure)) = none := by simp
  by_cases hrules : a.rules.isEmpty = true <;>
    simp [run, RunTrace.failure?, hrules, hnone, List.findSome?_append, List.findSome?_map,
      Function.comp_def]

end Unlimited

/-! ## Places -/

/-- Where an outcome belongs: the position of the item, of the visit in its tree, and of the rule. A
file that could not be loaded has its error at the first visit and the first rule. -/
structure Place where
  item : Nat
  visit : Nat
  rule : Nat
deriving DecidableEq

/-- Items come first, then visits, then rules. -/
def Place.Before (p q : Place) : Prop :=
  p.item < q.item ∨ p.item = q.item ∧ (p.visit < q.visit ∨ p.visit = q.visit ∧ p.rule < q.rule)

/-- Which outcome stands at which place: an item that could not be loaded has its error, and a
script an issue for every node and every rule that flags it. -/
inductive Stands (rules : List Rule) (items : List Item) : Place → Outcome → Prop where
  | failed {i : Nat} {path : String} {fault : Fault} :
      items[i]? = some (.failed path fault) → Stands rules items ⟨i, 0, 0⟩ (.scriptError path fault)
  | issue {i j k : Nat} {script : Script} {root : Node} {visit : Visit} {rule : Rule} :
      items[i]? = some (.script script) → script.root? = some root →
      (root.preorder [])[j]? = some visit → rules[k]? = some rule → rule.applies visit = .ok true →
      Stands rules items ⟨i, j, k⟩ (.issue script rule visit)

/-- The issues at a visit, each with its place. -/
def placedAt (i : Nat) (script : Script) (rules : List Rule) (visit : Visit × Nat) :
    List (Place × Outcome) :=
  (rules.zipIdx.filter fun rule => flags visit.1 rule.1).map fun rule =>
    (⟨i, visit.2, rule.2⟩, .issue script rule.1 visit.1)

/-- The outcomes of an item, each with its place. -/
def placedIn (rules : List Rule) (item : Item × Nat) : List (Place × Outcome) :=
  match item.1 with
  | .failed path fault => [(⟨item.2, 0, 0⟩, .scriptError path fault)]
  | .script script =>
    match script.root? with
    | none => []
    | some root => (root.preorder []).zipIdx.flatMap (placedAt item.2 script rules)

/-- The outcomes of items, each with its place. -/
def placed (rules : List Rule) (items : List Item) : List (Place × Outcome) :=
  items.zipIdx.flatMap (placedIn rules)

/-- A list read with positions and without them. -/
lemma flatMap_zipIdx_map {α β γ : Type} (f : α × Nat → List β) (g : β → γ) (f' : α → List γ)
    (h : ∀ a i, (f (a, i)).map g = f' a) (as : List α) (i : Nat) :
    ((as.zipIdx i).flatMap f).map g = as.flatMap f' := by
  induction as generalizing i with
  | nil => rfl
  | cons a as ih =>
    rw [List.zipIdx_cons, List.flatMap_cons, List.map_append, h, ih, List.flatMap_cons]

/-- Without the places, what stands at a visit is what is expected there. -/
lemma placedAt_map_snd (i : Nat) (script : Script) (rules : List Rule) (visit : Visit) (j : Nat) :
    (placedAt i script rules (visit, j)).map (·.2) =
      (rules.filter (flags visit)).map (.issue script · visit) := by
  have hrules : (rules.zipIdx.filter fun rule => flags visit rule.1).map (·.1) =
      rules.filter (flags visit) := by
    have hmap :=
      List.filter_map (p := flags visit) (f := fun rule : Rule × Nat => rule.1) (l := rules.zipIdx)
    rw [List.zipIdx_map_fst] at hmap
    rw [hmap]
    rfl
  rw [placedAt, List.map_map, ← hrules, List.map_map]
  rfl

lemma placedIn_map_snd (rules : List Rule) (item : Item) (i : Nat) :
    (placedIn rules (item, i)).map (·.2) = expected rules item := by
  cases item with
  | failed path fault => rfl
  | script script =>
    simp only [placedIn, expected]
    cases script.root? with
    | none => rfl
    | some root =>
      exact flatMap_zipIdx_map _ _ _ (fun visit j => placedAt_map_snd i script rules visit j)
        (root.preorder []) 0

lemma placed_map_snd (rules : List Rule) (items : List Item) :
    (placed rules items).map (·.2) = items.flatMap (expected rules) :=
  flatMap_zipIdx_map _ _ _ (placedIn_map_snd rules) items 0

lemma mem_placedAt {i : Nat} {script : Script} {rules : List Rule} {visit : Visit} {j : Nat}
    {p : Place} {o : Outcome} :
    (p, o) ∈ placedAt i script rules (visit, j) ↔
      ∃ k rule, rules[k]? = some rule ∧ rule.applies visit = .ok true ∧ p = ⟨i, j, k⟩ ∧
        o = .issue script rule visit := by
  simp only [placedAt, List.mem_map, List.mem_filter, Prod.exists, flags_iff,
    List.mem_zipIdx_iff_getElem?, Prod.mk.injEq]
  constructor
  · rintro ⟨rule, k, ⟨hrule, hflag⟩, rfl, rfl⟩
    exact ⟨k, rule, hrule, hflag, rfl, rfl⟩
  · rintro ⟨k, rule, hrule, hflag, rfl, rfl⟩
    exact ⟨rule, k, ⟨hrule, hflag⟩, rfl, rfl⟩

/-- The outcomes with their places are those that stand there. Each side is taken apart down to the
item, the visit and the rule. -/
lemma mem_placed {rules : List Rule} {items : List Item} {p : Place} {o : Outcome} :
    (p, o) ∈ placed rules items ↔ Stands rules items p o := by
  simp only [placed, List.mem_flatMap, Prod.exists, List.mem_zipIdx_iff_getElem?]
  constructor
  · rintro ⟨item, i, hitem, hmem⟩
    cases item with
    -- A script that failed has one outcome, wherever its errors lie.
    | failed path fault =>
      simp only [placedIn, List.mem_singleton, Prod.mk.injEq] at hmem
      rw [hmem.1, hmem.2]
      exact .failed hitem
    | script script =>
      cases hroot : script.root? with
      | none => simp [placedIn, hroot] at hmem
      | some root =>
        simp only [placedIn, hroot, List.mem_flatMap, Prod.exists, List.mem_zipIdx_iff_getElem?,
          mem_placedAt] at hmem
        obtain ⟨visit, j, hvisit, k, rule, hrule, hflag, rfl, rfl⟩ := hmem
        exact .issue hitem hroot hvisit hrule hflag
  · rintro (@⟨i, path, fault, hitem⟩ | @⟨i, j, k, script, root, visit, rule, hitem, hroot, hvisit,
      hrule, hflag⟩)
    · exact ⟨_, i, hitem, List.mem_singleton_self _⟩
    · refine ⟨_, i, hitem, ?_⟩
      simp only [placedIn, hroot, List.mem_flatMap, Prod.exists, List.mem_zipIdx_iff_getElem?,
        mem_placedAt]
      exact ⟨visit, j, hvisit, k, rule, hrule, hflag, rfl, rfl⟩

lemma pairwise_zipIdx {α : Type} (as : List α) : as.zipIdx.Pairwise fun a b => a.2 < b.2 := by
  have hrange : (as.zipIdx.map (·.2)).Pairwise (· < ·) := by
    rw [List.zipIdx_map_snd]
    exact List.pairwise_lt_range'
  exact List.pairwise_map.1 hrange

/-- The outcomes of an item have their places in it. -/
lemma item_of_mem_placedIn {rules : List Rule} {item : Item × Nat} {x : Place × Outcome}
    (h : x ∈ placedIn rules item) :
    x.1.item = item.2 := by
  obtain ⟨item, i⟩ := item
  obtain ⟨p, o⟩ := x
  cases item with
  | failed path fault =>
    simp only [placedIn, List.mem_singleton, Prod.mk.injEq] at h
    rw [h.1]
  | script script =>
    cases hroot : script.root? with
    | none => simp [placedIn, hroot] at h
    | some root =>
      simp only [placedIn, hroot, List.mem_flatMap, Prod.exists, mem_placedAt] at h
      obtain ⟨_, _, -, _, _, -, -, rfl, -⟩ := h
      rfl

lemma pairwise_placedAt (i : Nat) (script : Script) (rules : List Rule) (visit : Visit × Nat) :
    (placedAt i script rules visit).Pairwise fun x y => x.1.Before y.1 := by
  rw [placedAt, List.pairwise_map]
  refine ((pairwise_zipIdx rules).filter _).imp ?_
  intro x y hxy
  exact .inr ⟨rfl, .inr ⟨rfl, hxy⟩⟩

/-- Within an item, outcomes come in the order of the visits, and at one visit in the order of the
rules. -/
lemma pairwise_placedIn (rules : List Rule) (item : Item × Nat) :
    (placedIn rules item).Pairwise fun x y => x.1.Before y.1 := by
  obtain ⟨item, i⟩ := item
  cases item with
  | failed path fault => exact List.pairwise_singleton _ _
  | script script =>
    simp only [placedIn]
    cases script.root? with
    | none => exact List.Pairwise.nil
    | some root =>
      rw [List.pairwise_flatMap]
      refine ⟨fun visit _ => pairwise_placedAt i script rules visit, ?_⟩
      refine (pairwise_zipIdx _).imp ?_
      rintro ⟨visit, j⟩ ⟨visit', j'⟩ hlt ⟨p, o⟩ hx ⟨q, o'⟩ hy
      obtain ⟨_, _, -, -, rfl, -⟩ := mem_placedAt.1 hx
      obtain ⟨_, _, -, -, rfl, -⟩ := mem_placedAt.1 hy
      exact .inr ⟨rfl, .inl hlt⟩

/-- The outcomes come in the order of their places, so that none comes twice. -/
lemma pairwise_placed (rules : List Rule) (items : List Item) :
    (placed rules items).Pairwise fun x y => x.1.Before y.1 := by
  rw [placed, List.pairwise_flatMap]
  refine ⟨fun item _ => pairwise_placedIn rules item, ?_⟩
  refine (pairwise_zipIdx items).imp ?_
  intro item item' hlt x hx y hy
  left
  rw [item_of_mem_placedIn hx, item_of_mem_placedIn hy]
  exact hlt

/-! ## The canonical order -/

/-- A run without a limit over items of which none fails ends of its own accord. It gives the rules
that did not compile, in order, and then the outcomes that stand at a place, each exactly once and
in the order of the places. A run over two lots of items is the run over the first, followed by the
run over the second without its rule errors. -/
theorem outcomes_run_eq_placed (a : Analysis) {draws : List Draw} (hlimit : a.maxIssues = none)
    (hdraws : ∀ failure, Draw.broken failure ∉ draws) (h : Analysable a.rules (drawnItems draws)) :
    (a.run draws).failure? = none ∧ (a.run draws).final.truncated = false ∧
      (∃ found : List (Place × Outcome),
        (a.run draws).outcomes =
          a.ruleErrors.map (fun (id, fault) => .ruleError id fault) ++ found.map (·.2) ∧
        found.Pairwise (fun x y => x.1.Before y.1) ∧
        ∀ p o, (p, o) ∈ found ↔ Stands a.rules (drawnItems draws) p o) ∧
      ∀ first second, draws = first ++ second →
        (a.run draws).outcomes =
          (a.run first).outcomes ++ (a.run second).outcomes.drop a.ruleErrors.length := by
  obtain ⟨houtcomes, hfailure, htruncated⟩ := runItems_unlimited hlimit hdraws h
  refine ⟨by rw [failure?_run, hfailure], htruncated, ?_, ?_⟩
  · refine ⟨placed a.rules (drawnItems draws), ?_, pairwise_placed _ _, fun p o => mem_placed⟩
    rw [outcomes_run, houtcomes, placed_map_snd]
  · -- The rules that did not compile are told by both runs, and count once.
    rintro first second rfl
    have hitems : drawnItems (first ++ second) = drawnItems first ++ drawnItems second := by
      simp only [drawnItems, List.filterMap_append]
    rw [hitems] at h houtcomes
    have hfirst := runItems_unlimited hlimit
      (fun failure hf => hdraws failure (List.mem_append_left _ hf))
      (h.of_subset (List.subset_append_left _ _))
    have hsecond := runItems_unlimited hlimit
      (fun failure hf => hdraws failure (List.mem_append_right _ hf))
      (h.of_subset (List.subset_append_right _ _))
    rw [outcomes_run, outcomes_run, outcomes_run, houtcomes, hfirst.1, hsecond.1,
      List.flatMap_append, List.drop_left' (List.length_map ..), List.append_assoc]

/-- A rule for all nodes, one for a name that an excuse takes back where it is a condition, and one
that did not compile. -/
def sample : Analysis :=
  { rules := [{ id := "all", message := "", patterns := [{ expression := .wildcard {} }] },
      { id := "x", message := "", patterns := [{ expression := .reference "x" {} }]
        justifications := [{ expression := .wildcard {}, context := .conditional }] }]
    ruleErrors := [("bad", .fatal "bad")]
    jobs := 3 }

/-- A tree with the name twice, once as a condition. -/
def sampleRoot : Node :=
  { kind := "while_statement"
    children := [{ kind := "identifier", value := .ofString "x", role := some "condition" },
      { kind := "expression_statement", role := some "body"
        children := [{ kind := "identifier", value := .ofString "x" }] }] }

/-- A file that could not be loaded between two scripts. -/
def sampleDraws : List Draw :=
  [.item (.script { path := "A.java", root? := some sampleRoot }), .entry noRulesEntry,
    .item (.failed "B.java" (.fatal "unreadable")),
    .item (.script { path := "C.java", root? := some sampleRoot })]

/-- All rules can be tested at all nodes of the sample, as a look at each of them shows. -/
lemma analysable_sample : Analysable sample.rules (drawnItems sampleDraws) where
  rooted script hscript := by
    simp only [drawnItems, sampleDraws, List.filterMap_cons, List.filterMap_nil, List.mem_cons,
      Item.script.injEq, List.not_mem_nil, or_false, reduceCtorEq, false_or] at hscript
    rcases hscript with rfl | rfl <;> exact ⟨_, rfl⟩
  tested script root hscript hroot visit hvisit rule hrule := by
    have hsample : root = sampleRoot := by
      simp only [drawnItems, sampleDraws, List.filterMap_cons, List.filterMap_nil, List.mem_cons,
        Item.script.injEq, List.not_mem_nil, or_false, reduceCtorEq, false_or] at hscript
      rcases hscript with rfl | rfl <;> exact (Option.some.inj hroot).symm
    subst hsample
    -- The sample is small enough to try every rule at every node.
    have hall : ∀ visit ∈ sampleRoot.preorder [], ∀ rule ∈ sample.rules,
        (rule.applies visit).isOk = true := by
      decide +kernel
    have hok := hall visit hvisit rule hrule
    cases happlies : rule.applies visit with
    | ok b => exact ⟨b, rfl⟩
    | error e =>
      rw [happlies] at hok
      cases hok

theorem outcomes_run_eq_placed_sample :
    sample.maxIssues = none ∧ (∀ failure, Draw.broken failure ∉ sampleDraws) ∧
      Analysable sample.rules (drawnItems sampleDraws) ∧ (sample.run sampleDraws).failure? = none ∧
      ∃ found : List (Place × Outcome),
        (sample.run sampleDraws).outcomes = .ruleError "bad" (.fatal "bad") :: found.map (·.2) ∧
        found.Pairwise (fun x y => x.1.Before y.1) ∧
        ∀ p o, (p, o) ∈ found ↔ Stands sample.rules (drawnItems sampleDraws) p o := by
  have hdraws : ∀ failure, Draw.broken failure ∉ sampleDraws := by simp [sampleDraws]
  obtain ⟨hfailure, -, hfound, -⟩ := outcomes_run_eq_placed sample rfl hdraws analysable_sample
  exact ⟨rfl, hdraws, analysable_sample, hfailure, hfound⟩

end Analysis

end ShapeLint
