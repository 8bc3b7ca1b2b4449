import ShapeLint.Proofs.Order

/-!
# A limit cuts a run short

An analysis can be limited to a number of issues. What it then gives is what it gives without the
limit, up to and with the issue that reaches it; a run with fewer issues is the same run, event by
event and to its end.

Both analyses follow the same steps from the same state. As long as the limit is ahead, `Limited`
compares the two traces: either the limit is not reached and they are equal, or they are equal up to
one issue, after which the limited run stops. Events in front of both keep that (`Limited.append`),
so it is carried from the end of a run to its start.
-/

namespace ShapeLint

/-- How many of the outcomes are issues. -/
def issueCount (outcomes : List Outcome) : Nat :=
  outcomes.countP Outcome.isIssue

lemma issueCount_append (os os' : List Outcome) :
    issueCount (os ++ os') = issueCount os + issueCount os' :=
  List.countP_append

/-- The outcomes start so, with so many issues, and no shorter start of them has as many. There is
at most one such start. -/
structure ShortestStart (n : Nat) (outcomes start : List Outcome) : Prop where
  start_of : start <+: outcomes
  enough : n ≤ issueCount start
  least : ∀ other, other <+: outcomes → n ≤ issueCount other → start <+: other

/-- What ends in the issue that brings the number to `n` is the shortest start with so many. -/
lemma shortestStart_append {n : Nat} {before after : List Outcome} {o : Outcome}
    (ho : o.isIssue = true) (hn : issueCount before + 1 = n) :
    ShortestStart n (before ++ o :: after) (before ++ [o]) := by
  have hsplit : before ++ o :: after = before ++ [o] ++ after := by simp
  refine ⟨⟨after, hsplit.symm⟩, ?_, ?_⟩
  · have hlast : issueCount [o] = 1 := by rw [issueCount, List.countP_singleton, if_pos ho]
    rw [issueCount_append, hlast]
    exact Nat.le_of_eq hn.symm
  · intro other hother henough
    have hbefore : before <+: before ++ o :: after := List.prefix_append ..
    rcases Nat.lt_or_ge before.length other.length with hlonger | hshorter
    · refine List.prefix_of_prefix_length_le ⟨after, hsplit.symm⟩ hother ?_
      rw [List.length_append]
      exact hlonger
    · -- A start that is no longer than what is in front of the issue has one issue less.
      have hle : issueCount other ≤ issueCount before :=
        (List.prefix_of_prefix_length_le hother hbefore hshorter).sublist.countP_le
      omega

namespace RunTrace

/-- A trace with events in front. -/
def after (events : List (RunEvent × RunState)) (t : RunTrace) : RunTrace :=
  { t with events := events ++ t.events }

lemma outcomes_append (events : List (RunEvent × RunState)) (t : RunTrace) :
    (t.after events).outcomes = (mk events t.final).outcomes ++ t.outcomes := by
  simp only [outcomes, after, List.filterMap_append]

lemma failure?_append (events : List (RunEvent × RunState)) (t : RunTrace) :
    (t.after events).failure? = ((mk events t.final).failure?).or t.failure? := by
  simp only [failure?, after, List.findSome?_append]

end RunTrace

namespace Analysis

/-- The analysis with a limit, or without one. -/
def withLimit (a : Analysis) (limit : Option Int) : Analysis :=
  { a with maxIssues := limit }

/-! ## Runs without a limit -/

/-- Without a limit, all issues that are given are counted and nothing is cut off. -/
lemma final_follow {a : Analysis} (hlimit : a.maxIssues = none) (steps : List Step)
    (s : RunState) :
    (a.follow steps s).final.issues = s.issues + issueCount (a.follow steps s).outcomes ∧
      (a.follow steps s).final.truncated = s.truncated := by
  induction steps generalizing s with
  | nil => exact ⟨rfl, rfl⟩
  | cons step steps ih =>
    cases step with
    | entry e => exact ih s
    | draw => exact ih { s with drawn := s.drawn + 1 }
    | broken failure => exact ⟨rfl, rfl⟩
    | found result =>
      cases result with
      | error fault => exact ⟨rfl, rfl⟩
      | ok found =>
        obtain ⟨s', htruncated, hissues, houtcomes, -, hfinal⟩ :=
          deliver_unlimited hlimit (a.follow steps) found s
        obtain ⟨ihissues, ihtruncated⟩ := ih s'
        rw [follow, houtcomes, hfinal, ihissues, ihtruncated, hissues, issueCount_append,
          Nat.add_assoc]
        exact ⟨rfl, htruncated⟩

/-! ## Runs with a limit -/

/-- The trace of a run with the limit `n` beside that of the run without it, from a state on at
which `k` issues were counted. If the limit is not reached, the two are equal. Otherwise they have
the same events up to the issue that reaches it, none of which is a failure; the limited run stops
there, and the other one goes on in some way. -/
def Limited (n k : Nat) (full cut : RunTrace) : Prop :=
  (k + issueCount full.outcomes < n ∧ cut = full) ∨
    ∃ before o state rest, full = RunTrace.after before (RunTrace.push rest (.outcome o) state) ∧
      cut = RunTrace.after before ((stopped { state with issues := n }).push (.outcome o) state) ∧
      o.isIssue = true ∧ k + issueCount (RunTrace.mk before state).outcomes + 1 = n ∧
      (RunTrace.mk before state).failure? = none

/-- Events in front of both traces; the issues among them are counted before the rest. -/
lemma Limited.append {n k : Nat} {full cut : RunTrace} (events : List (RunEvent × RunState))
    {state : RunState} (hno : (RunTrace.mk events state).failure? = none)
    (h : Limited n (k + issueCount (RunTrace.mk events state).outcomes) full cut) :
    Limited n k (full.after events) (cut.after events) := by
  rcases h with ⟨hbelow, rfl⟩ | ⟨before, o, last, rest, rfl, rfl, ho, hn, hnone⟩
  · left
    rw [RunTrace.outcomes_append, issueCount_append, ← Nat.add_assoc]
    exact ⟨hbelow, rfl⟩
  · right
    -- The events in front only move the place at which the run is cut.
    have hassoc : ∀ t : RunTrace, (t.after before).after events = t.after (events ++ before) := by
      intro t
      simp only [RunTrace.after, List.append_assoc]
    refine ⟨events ++ before, o, last, rest, hassoc _, hassoc _, ho, ?_, ?_⟩
    · have houtcomes := RunTrace.outcomes_append events ⟨before, last⟩
      rw [RunTrace.after] at houtcomes
      rw [houtcomes, issueCount_append, ← Nat.add_assoc]
      exact hn
    · have hfailure := RunTrace.failure?_append events ⟨before, last⟩
      rw [RunTrace.after] at hfailure
      rw [hfailure, hnone, Option.or_none]
      exact hno

section

variable {a b : Analysis} {n : Nat} (ha : a.maxIssues = some (n : Int)) (hb : b.maxIssues = none)
include ha hb

/-- Giving outcomes keeps the two runs together, if what comes afterwards does: the limit is reached
by one of these outcomes, or is still ahead. -/
lemma limited_deliver {full cut : RunState → RunTrace}
    (hnext : ∀ s, s.issues < n → Limited n s.issues (full s) (cut s)) (found : List Outcome)
    (s : RunState) (hs : s.issues < n) :
    Limited n s.issues (b.deliver full found s) (a.deliver cut found s) := by
  have hreached : ∀ m : Nat, a.isLimit m = decide (n ≤ m) := by
    intro m
    simp only [isLimit, ha, Int.ofNat_le]
  induction found generalizing s with
  | nil => exact hnext s hs
  | cons o os ih =>
    have hcount : issueCount (RunTrace.mk [(.outcome o, s)] s).outcomes =
        if o.isIssue then 1 else 0 :=
      List.countP_singleton
    simp only [deliver, isLimit_of_unlimited hb, Bool.and_false, Bool.false_eq_true, if_false]
    cases ho : o.isIssue with
    | false =>
      rw [ho] at hcount
      simp only [Bool.false_and, Bool.false_eq_true, if_false]
      exact Limited.append [(.outcome o, s)] rfl (by rw [hcount]; exact ih s hs)
    | true =>
      rw [ho] at hcount
      simp only [Bool.true_and, if_true, hreached, decide_eq_true_eq]
      split
      case isTrue hle =>
        -- This is the issue that reaches the limit.
        obtain rfl : n = s.issues + 1 := by omega
        exact .inr ⟨[], o, s, _, rfl, rfl, ho, rfl, rfl⟩
      case isFalse hlt =>
        exact Limited.append [(.outcome o, s)] rfl
          (by rw [hcount]; exact ih { s with issues := s.issues + 1 } (Nat.not_le.mp hlt))

/-- Following steps keeps the two runs together until the limit is reached. -/
lemma limited_follow (steps : List Step) (s : RunState) (hs : s.issues < n) :
    Limited n s.issues (b.follow steps s) (a.follow steps s) := by
  induction steps generalizing s with
  | nil => exact .inl ⟨hs, rfl⟩
  | cons step steps ih =>
    cases step with
    | entry e => exact @Limited.append n s.issues _ _ [(.entry e, s)] s rfl (ih s hs)
    | draw => exact ih { s with drawn := s.drawn + 1 } hs
    | broken failure => exact .inl ⟨hs, rfl⟩
    | found result =>
      cases result with
      | error fault => exact .inl ⟨hs, rfl⟩
      | ok found => exact limited_deliver ha hb ih found s hs

end

/-- The steps of a run depend on the rules and on how far ahead items are drawn, and on nothing
else. In particular, a limit does not change them. -/
lemma steps_congr {a b : Analysis} (hrules : a.rules = b.rules) (hwindow : a.window = b.window)
    (waiting : List Item) (draws : List Draw) : a.steps waiting draws = b.steps waiting draws := by
  fun_induction steps a waiting draws with
  | case1 waiting => rw [steps, hrules]
  | case2 waiting e draws ih => rw [steps, ih]
  | case3 waiting failure draws => rw [steps]
  | case4 waiting i draws h => simp at h
  | case5 waiting i draws first others h hfull ih =>
    simp only [steps, h, ← hwindow, if_pos hfull, ih, hrules]
  | case6 waiting i draws first others h hfull ih =>
    simp only [steps, h, ← hwindow, if_neg hfull, ih]

lemma run_eq_after (a : Analysis) (draws : List Draw) :
    a.run draws = (a.runItems draws).after (Pool.opening a) :=
  rfl

/-- What is given before the first item is drawn: the rules that did not compile. -/
lemma outcomes_opening (a : Analysis) (s : RunState) :
    (RunTrace.mk (Pool.opening a) s).outcomes =
      a.ruleErrors.map fun (id, fault) => .ruleError id fault := by
  by_cases hrules : a.rules.isEmpty = true <;>
    simp [RunTrace.outcomes, Pool.opening, hrules, List.filterMap_append, List.filterMap_map,
      Function.comp_def]

lemma issueCount_opening (a : Analysis) (s : RunState) :
    issueCount (RunTrace.mk (Pool.opening a) s).outcomes = 0 := by
  rw [outcomes_opening, issueCount, List.countP_map]
  exact List.countP_eq_zero.2 fun _ _ => Bool.false_ne_true

/-- Nothing fails before the first item is drawn. -/
lemma failure?_opening (a : Analysis) (s : RunState) :
    (RunTrace.mk (Pool.opening a) s).failure? = none := by
  have hnone : a.ruleErrors.findSome? (fun _ => (none : Option RunFailure)) = none := by simp
  by_cases hrules : a.rules.isEmpty = true <;>
    simp [RunTrace.failure?, Pool.opening, hrules, hnone, List.findSome?_append, List.findSome?_map,
      Function.comp_def]

/-- The limited run beside the run without a limit. -/
lemma limited_run (a : Analysis) (draws : List Draw) {n : Nat} (hn : 0 < n) :
    Limited n 0 ((a.withLimit none).run draws) ((a.withLimit (some (n : Int))).run draws) := by
  have hahead : (a.withLimit (some (n : Int))).isLimit 0 = false := by
    simp only [isLimit, withLimit, decide_eq_false_iff_not]
    omega
  have hnone : (a.withLimit none).isLimit 0 = false := rfl
  have hsteps : (a.withLimit (some (n : Int))).steps [] draws = (a.withLimit none).steps [] draws :=
    steps_congr (by rfl) (by rfl) [] draws
  rw [run_eq_after, run_eq_after, runItems, runItems, hahead, hnone, hsteps]
  refine Limited.append (Pool.opening a) (failure?_opening a {}) ?_
  rw [issueCount_opening]
  exact limited_follow rfl rfl _ {} hn

/-- Without a limit, a run counts all its issues and is not cut off. This turns what is said of
counts into what is said of outcomes. -/
lemma final_run (a : Analysis) (draws : List Draw) :
    ((a.withLimit none).run draws).final.issues =
        issueCount ((a.withLimit none).run draws).outcomes ∧
      ((a.withLimit none).run draws).final.truncated = false := by
  have hlimit : (a.withLimit none).maxIssues = none := rfl
  obtain ⟨hissues, htruncated⟩ := final_follow hlimit ((a.withLimit none).steps [] draws) {}
  rw [run_eq_after, RunTrace.outcomes_append, issueCount_append, issueCount_opening,
    runItems_eq_follow hlimit]
  exact ⟨hissues, htruncated⟩

/-- With a limit of no issues, a run gives the rules that did not compile and draws nothing. -/
lemma run_of_limit_nonpos (a : Analysis) (draws : List Draw) {limit : Int} (h : limit ≤ 0) :
    (a.withLimit (some limit)).run draws = ⟨Pool.opening a, { truncated := true }⟩ := by
  have hlimit : (a.withLimit (some limit)).isLimit 0 = true := by
    simpa [isLimit, withLimit] using h
  rw [run_eq_after, runItems, hlimit, if_pos rfl, RunTrace.after, List.append_nil]
  rfl

/-- What a run with a limit of at least one issue comes to, beside the run without it. Its counts
tell which of the two cases it is. -/
structure CutAt (n : Nat) (full cut : RunTrace) : Prop where
  /-- If there are issues enough, it gives the shortest start that has as many, and ends of its own
  accord. -/
  enough : n ≤ issueCount full.outcomes →
    ShortestStart n full.outcomes cut.outcomes ∧ cut.failure? = none
  /-- If there are too few, it is the same run, and ends as that does. -/
  few : issueCount full.outcomes < n → cut = full
  issues_eq : cut.final.issues = min n (issueCount full.outcomes)
  truncated_iff : cut.final.truncated = true ↔ n ≤ issueCount full.outcomes

/-- A limit of at least one issue cuts a run. Both halves are read off the comparison of the two
traces. -/
lemma cutAt_run (a : Analysis) (draws : List Draw) {n : Nat} (hn : 0 < n) :
    CutAt n ((a.withLimit none).run draws) ((a.withLimit (some (n : Int))).run draws) := by
  obtain ⟨hissues, htruncated⟩ := final_run a draws
  rcases limited_run a draws hn with
    ⟨hbelow, heq⟩ | ⟨before, o, state, rest, hfull, hcut, ho, hcount, hfailure⟩
  · -- There are fewer issues than the limit, and the two runs are the same.
    rw [Nat.zero_add] at hbelow
    refine ⟨fun henough => absurd hbelow (Nat.not_lt.mpr henough), fun _ => heq, ?_, ?_⟩
    · rw [heq, hissues, Nat.min_eq_right (Nat.le_of_lt hbelow)]
    · rw [heq, htruncated]
      exact ⟨nofun, fun henough => absurd hbelow (Nat.not_lt.mpr henough)⟩
  · have houtcomes : ((a.withLimit none).run draws).outcomes =
        (RunTrace.mk before state).outcomes ++ o :: rest.outcomes := by
      rw [hfull, RunTrace.outcomes_append]
      rfl
    have hstart : ((a.withLimit (some (n : Int))).run draws).outcomes =
        (RunTrace.mk before state).outcomes ++ [o] := by
      rw [hcut, RunTrace.outcomes_append]
      rfl
    rw [Nat.zero_add] at hcount
    -- The outcome at which the run was cut is the issue that reaches the limit.
    have hshortest : ShortestStart n (_ ++ o :: rest.outcomes) (_ ++ [o]) :=
      shortestStart_append ho hcount
    rw [← houtcomes, ← hstart] at hshortest
    have henough : n ≤ issueCount ((a.withLimit none).run draws).outcomes :=
      Nat.le_trans hshortest.enough hshortest.start_of.sublist.countP_le
    refine ⟨fun _ => ⟨hshortest, ?_⟩, fun hfew => absurd hfew (Nat.not_lt.mpr henough), ?_, ?_⟩
    · rw [hcut, RunTrace.failure?_append]
      exact (Option.or_eq_none_iff).mpr ⟨hfailure, rfl⟩
    · rw [hcut, Nat.min_eq_left henough]
      rfl
    · rw [hcut]
      exact ⟨fun _ => henough, fun _ => rfl⟩

/-- A limit of at least one issue cuts the outcomes of a run at the issue that reaches it, and
leaves a run with fewer issues as it is. With a limit of no issues, a run gives the rules that did
not compile, and draws nothing. That holds for every number of workers and every schedule: one that
cannot go on has ended with the trace of the run. -/
theorem run_withLimit (a : Analysis) (draws : List Draw) (limit : Int) :
    (1 ≤ limit →
      CutAt limit.toNat ((a.withLimit none).run draws) ((a.withLimit (some limit)).run draws)) ∧
      (limit ≤ 0 →
        ((a.withLimit (some limit)).run draws).outcomes =
          a.ruleErrors.map (fun (id, fault) => .ruleError id fault) ∧
        ((a.withLimit (some limit)).run draws).failure? = none ∧
        ((a.withLimit (some limit)).run draws).final =
          { issues := 0, truncated := true, drawn := 0 }) ∧
      ∀ max p,
        Relation.ReflTransGen (Pool.Step (a.withLimit max)) (Pool.start (a.withLimit max) draws) p →
        (∀ q, ¬ Pool.Step (a.withLimit max) p q) → p.trace = (a.withLimit max).run draws := by
  refine ⟨fun hpos => ?_, fun hnonpos => ?_, fun max p => Pool.trace_eq_of_stuck⟩
  · have hcast : ((limit.toNat : Nat) : Int) = limit := Int.toNat_of_nonneg (by omega)
    have hcut := cutAt_run a draws (n := limit.toNat) (by omega)
    rwa [hcast] at hcut
  · -- A limit of zero or less is reached before any item is asked for.
    rw [run_of_limit_nonpos a draws hnonpos]
    exact ⟨outcomes_opening a _, failure?_opening a _, rfl⟩

/-- The limit is reached in the last of the three files. -/
theorem run_withLimit_sample :
    (1 : Int) ≤ 7 ∧ 7 ≤ issueCount ((sample.withLimit none).run sampleDraws).outcomes ∧
    CutAt 7 ((sample.withLimit none).run sampleDraws)
      ((sample.withLimit (some 7)).run sampleDraws) ∧ (0 : Int) ≤ 0 ∧
    ((sample.withLimit (some 0)).run sampleDraws).outcomes = [.ruleError "bad" (.fatal "bad")] :=
  ⟨by decide, by decide +kernel, (run_withLimit sample sampleDraws 7).1 (by decide), by decide,
    ((run_withLimit sample sampleDraws 0).2.1 (by decide)).1⟩

end Analysis

end ShapeLint
