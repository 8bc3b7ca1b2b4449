import Mathlib.Data.List.Forall2
import ShapeLint.Proofs.Order

/-!
# Restricting an analysis to a rule

An analysis can be restricted to the rules with one id. What it then gives is what it gave before,
without the outcomes that concern other rules, and so what is found for a rule does not depend on
the rules beside it.

The two analyses take the same steps, with the same items waiting at the same time. A step that
brings outcomes brings those of them that concern the rule (`Step.Restricts`). Where the analysis of
an item fails, that of the restricted rules need not fail, and nothing is said about the steps from
there on: the run has broken off.
-/

namespace ShapeLint

open List (Forall₂)

/-- Whether an outcome concerns the rules with an id: the issues they found and their errors. A
script that could not be loaded concerns all rules. -/
def Outcome.concerns (id : String) : Outcome → Bool
  | .issue _ rule _ => rule.id == id
  | .scriptError _ _ => true
  | .ruleError other _ => other == id

namespace Analysis

variable {id : String}

/-! ## One item -/

/-- At one node, the restricted rules find what the rules with that id find among all rules. The
induction is on the rules; one with another id is dropped on the left, and what it found on the
right. -/
lemma issuesAt_restrict {script : Script} {visit : Visit} {rules : List Rule} {found : List Outcome}
    (h : issuesAt script visit rules = .ok found) :
    issuesAt script visit (rules.filter (·.id == id)) = .ok (found.filter (·.concerns id)) := by
  induction rules generalizing found with
  | nil =>
    cases h
    rfl
  | cons rule rules ih =>
    rw [issuesAt] at h
    split at h
    case h_1 => cases h
    case h_2 flagged hflagged =>
      split at h
      case h_1 => cases h
      case h_2 others hothers =>
        cases h
        -- A rule with another id is left out, and so are the issues that it found.
        by_cases hid : (rule.id == id) = true
        · rw [List.filter_cons, if_pos hid, issuesAt, hflagged, ih hothers]
          cases flagged with
          | false => rfl
          | true => simp [Outcome.concerns, hid]
        · rw [List.filter_cons, if_neg hid, ih hothers]
          cases flagged with
          | false => rfl
          | true => simp [Outcome.concerns, hid]

lemma issuesIn_restrict {script : Script} {rules : List Rule} {visits : List Visit}
    {found : List Outcome} (h : issuesIn script rules visits = .ok found) :
    issuesIn script (rules.filter (·.id == id)) visits = .ok (found.filter (·.concerns id)) := by
  induction visits generalizing found with
  | nil =>
    cases h
    rfl
  | cons visit visits ih =>
    rw [issuesIn] at h
    split at h
    case h_1 => cases h
    case h_2 here hhere =>
      split at h
      case h_1 => cases h
      case h_2 others hothers =>
        cases h
        rw [issuesIn, issuesAt_restrict hhere, ih hothers, List.filter_append]

/-- What the restricted rules find in an item. A file that failed is reported alike for all
rules. -/
lemma ofItem_restrict {rules : List Rule} {item : Item} {found : List Outcome}
    (h : ofItem rules item = .ok found) :
    ofItem (rules.filter (·.id == id)) item = .ok (found.filter (·.concerns id)) := by
  cases item with
  | failed path fault =>
    cases h
    rfl
  | script script =>
    rw [ofItem] at h ⊢
    cases hroot : script.root? with
    | none =>
      simp only [hroot] at h
      cases h
    | some root =>
      simp only [hroot] at h ⊢
      cases hissues : issuesIn script rules root.visits with
      | error failure =>
        rw [hissues] at h
        cases h
      | ok issues =>
        rw [hissues] at h
        cases h
        rw [issuesIn_restrict hissues]
        rfl

/-! ## The steps -/

/-- What a step is in the restricted analysis. Results lose the outcomes that do not concern the
rule; a result that is a failure may become anything, as the rule that failed may be gone. -/
inductive Step.Restricts (id : String) : Step → Step → Prop where
  | entry {e : LogEntry} : Restricts id (.entry e) (.entry e)
  | draw : Restricts id .draw .draw
  | broken {failure : Java.ParseFailure} : Restricts id (.broken failure) (.broken failure)
  | found {found : List Outcome} :
      Restricts id (.found (.ok found)) (.found (.ok (found.filter (·.concerns id))))
  | failed {fault : Fault} {step : Step} : Restricts id (.found (.error fault)) step

lemma restricts_found (rules : List Rule) (item : Item) :
    Step.Restricts id (.found (ofItem rules item))
      (.found (ofItem (rules.filter (·.id == id)) item)) := by
  cases h : ofItem rules item with
  | error fault => exact .failed
  | ok found =>
    rw [ofItem_restrict h]
    exact .found

/-- Both analyses take their steps together, since neither the window nor the items depend on the
rules. -/
lemma restricts_steps (a : Analysis) (waiting : List Item) (draws : List Draw) :
    Forall₂ (Step.Restricts id) (a.steps waiting draws) ((a.restrict id).steps waiting draws) := by
  fun_induction steps a waiting draws with
  | case1 waiting =>
    rw [steps, List.forall₂_map_left_iff, List.forall₂_map_right_iff]
    exact List.forall₂_same.mpr fun item _ => restricts_found a.rules item
  | case2 waiting e draws ih => exact .cons .entry ih
  | case3 waiting failure draws => exact .cons .draw (.cons .broken .nil)
  | case4 waiting i draws h => simp at h
  | case5 waiting i draws first others h hwindow ih =>
    have hwindow' : (a.restrict id).window ≤ others.length + 1 := hwindow
    simp only [steps, h, if_pos hwindow']
    exact .cons .draw (.cons (restricts_found a.rules first) ih)
  | case6 waiting i draws first others h hwindow ih =>
    have hwindow' : ¬ (a.restrict id).window ≤ others.length + 1 := hwindow
    simp only [steps, h, if_neg hwindow']
    exact .cons .draw ih

/-! ## The run -/

/-- Steps that are restricted give the outcomes that concern the rule, and end as the others do,
whatever was counted so far. The induction is on the steps, for all states of both runs. -/
lemma follow_restricts {a b : Analysis} (ha : a.maxIssues = none) (hb : b.maxIssues = none)
    {steps steps' : List Step} (h : Forall₂ (Step.Restricts id) steps steps') (s s' : RunState)
    (hfatal : ∀ fault, (a.follow steps s).failure? ≠ some (.fatal fault)) :
    (b.follow steps' s').outcomes = (a.follow steps s).outcomes.filter (·.concerns id) ∧
      (b.follow steps' s').failure? = (a.follow steps s).failure? := by
  induction h generalizing s s' with
  | nil => exact ⟨rfl, rfl⟩
  | @cons step step' steps steps' hstep _ ih =>
    cases hstep with
    | entry => exact ih s s' hfatal
    | draw => exact ih _ _ hfatal
    | broken => exact ⟨rfl, rfl⟩
    | failed => exact absurd rfl (hfatal _)
    | @found found =>
      -- The two runs have counted different numbers of issues afterwards, so nothing is said about
      -- their states.
      obtain ⟨t, -, -, houtcomes, hfailure, -⟩ := deliver_unlimited ha (a.follow steps) found s
      obtain ⟨t', -, -, houtcomes', hfailure', -⟩ :=
        deliver_unlimited hb (b.follow steps') (found.filter (·.concerns id)) s'
      rw [follow, hfailure] at hfatal
      obtain ⟨ihoutcomes, ihfailure⟩ := ih t t' hfatal
      rw [follow, follow, houtcomes, houtcomes', hfailure, hfailure', ihoutcomes, ihfailure,
        List.filter_append]
      exact ⟨rfl, rfl⟩

/-- The same for whole runs: rules that did not compile come first, and of these too the ones with
the id are kept. -/
lemma run_restrict {a : Analysis} {draws : List Draw} (hlimit : a.maxIssues = none)
    (hfatal : ∀ fault, (a.run draws).failure? ≠ some (.fatal fault)) :
    ((a.restrict id).run draws).outcomes = (a.run draws).outcomes.filter (·.concerns id) ∧
      ((a.restrict id).run draws).failure? = (a.run draws).failure? := by
  have hlimit' : (a.restrict id).maxIssues = none := hlimit
  simp only [failure?_run, runItems_eq_follow hlimit] at hfatal
  obtain ⟨houtcomes, hfailure⟩ :=
    follow_restricts hlimit hlimit' (restricts_steps a [] draws) {} {} hfatal
  rw [outcomes_run, outcomes_run, failure?_run, failure?_run, runItems_eq_follow hlimit,
    runItems_eq_follow hlimit', houtcomes, hfailure, List.filter_append, List.filter_map]
  exact ⟨rfl, rfl⟩

/-- If a run without a limit does not fail over an item, the run restricted to an id gives, in the
same order, the outcomes of it that concern the rules with that id, and ends as it does. Another
analysis that does not fail either and has the same rules with that id, whatever it has besides,
finds the same for them. -/
theorem outcomes_restrict (a : Analysis) (id : String) {draws : List Draw}
    (hlimit : a.maxIssues = none) (hfatal : ∀ fault, (a.run draws).failure? ≠ some (.fatal fault)) :
    ((a.restrict id).run draws).outcomes = (a.run draws).outcomes.filter (·.concerns id) ∧
      ((a.restrict id).run draws).failure? = (a.run draws).failure? ∧
      ∀ b : Analysis, b.restrict id = a.restrict id →
        (∀ fault, (b.run draws).failure? ≠ some (.fatal fault)) →
        (b.run draws).outcomes.filter (·.concerns id) =
          (a.run draws).outcomes.filter (·.concerns id) := by
  obtain ⟨houtcomes, hfailure⟩ := @run_restrict id a draws hlimit hfatal
  refine ⟨houtcomes, hfailure, ?_⟩
  intro b hb hfatal'
  have hlimit' : b.maxIssues = none := (congrArg Analysis.maxIssues hb).trans hlimit
  rw [← houtcomes, ← hb, (run_restrict hlimit' hfatal').1]

/-- The sample, and the sample with its rules in the other order. -/
theorem outcomes_restrict_sample :
    (∀ fault, (sample.run sampleDraws).failure? ≠ some (.fatal fault)) ∧
      ((sample.restrict "x").run sampleDraws).outcomes =
        (sample.run sampleDraws).outcomes.filter (·.concerns "x") ∧
      ((sample.restrict "x").run sampleDraws).failure? = none ∧
      ({ sample with rules := sample.rules.reverse }.run sampleDraws).outcomes.filter
          (·.concerns "x") =
        (sample.run sampleDraws).outcomes.filter (·.concerns "x") := by
  have hdraws : ∀ failure, Draw.broken failure ∉ sampleDraws := by simp [sampleDraws]
  -- The order of the rules does not matter for whether they can be tested.
  have hreverse : Analysable sample.rules.reverse (drawnItems sampleDraws) :=
    ⟨analysable_sample.rooted, fun script root hscript hroot visit hvisit rule hrule =>
      analysable_sample.tested script root hscript hroot visit hvisit rule
        (List.mem_reverse.mp hrule)⟩
  have hended : (sample.run sampleDraws).failure? = none := by
    rw [failure?_run, (runItems_unlimited rfl hdraws analysable_sample).2.1]
  have hended' :
      ({ sample with rules := sample.rules.reverse }.run sampleDraws).failure? = none := by
    rw [failure?_run,
      (@runItems_unlimited { sample with rules := sample.rules.reverse } rfl _ hdraws hreverse).2.1]
  have hfatal : ∀ fault, (sample.run sampleDraws).failure? ≠ some (.fatal fault) := by
    intro fault
    rw [hended]
    exact (Option.some_ne_none _).symm
  obtain ⟨houtcomes, hfailure, hothers⟩ := outcomes_restrict sample "x" rfl hfatal
  refine ⟨hfatal, houtcomes, hfailure.trans hended, hothers _ (by simp [restrict, sample]) ?_⟩
  intro fault
  rw [hended']
  exact (Option.some_ne_none _).symm

end Analysis

end ShapeLint
