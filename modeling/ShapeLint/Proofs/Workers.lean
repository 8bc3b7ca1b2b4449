import Mathlib.Algebra.GroupWithZero.Nat
import Mathlib.Logic.Relation
import ShapeLint.Analysis

/-!
# Workers do not change the report

With several workers, an analysis hands the items that it draws to a pool and takes the results back
in the order in which the items were drawn. `Pool` is the machine that does so. What the workers do
is left open: at any time any task that waits may be started, as long as a worker is free, and any
task that runs may finish. The main thread draws ahead, waits for the oldest task, gives its
outcomes one by one, and ends; then tasks that wait are cancelled and tasks that run are finished.

The argument has two halves. Each state of the pool stands for one trace, that of the events so far
followed by what `Analysis.follow` makes of the rest (`Pool.completion`). No step of the pool
changes that trace, so every schedule ends in the trace of `Analysis.run`. And the report of that
trace depends on the results in the order of their items, and not on how far ahead items are drawn,
so it is the report of the run with one worker.
-/

namespace ShapeLint

/-- What a run comes to: its outcomes in order, why it broke off if it did, how many issues were
counted, and whether its limit was reached. How many items were drawn by then is no part of it, and
neither are the entries of the log. -/
structure RunReport where
  outcomes : List Outcome
  failure? : Option RunFailure
  issues : Nat
  truncated : Bool

namespace RunTrace

/-- The report of a trace. -/
def report (t : RunTrace) : RunReport :=
  ⟨t.outcomes, t.failure?, t.final.issues, t.final.truncated⟩

/-- Events in front of two traces with one report leave them with one report. -/
lemma report_append {t t' : RunTrace} (h : t.report = t'.report)
    (events : List (RunEvent × RunState)) :
    ({ t with events := events ++ t.events } : RunTrace).report =
      ({ t' with events := events ++ t'.events } : RunTrace).report := by
  simp only [report, RunReport.mk.injEq] at h ⊢
  obtain ⟨houtcomes, hfailure, hissues, htruncated⟩ := h
  refine ⟨?_, ?_, hissues, htruncated⟩
  · simp only [outcomes, List.filterMap_append] at houtcomes ⊢
    rw [houtcomes]
  · simp only [failure?, List.findSome?_append] at hfailure ⊢
    rw [hfailure]

lemma report_push_entry (t : RunTrace) (e : LogEntry) (s : RunState) :
    (t.push (.entry e) s).report = t.report :=
  rfl

lemma report_push_outcome {t t' : RunTrace} (h : t.report = t'.report) (o : Outcome)
    (s s' : RunState) :
    (t.push (.outcome o) s).report = (t'.push (.outcome o) s').report := by
  simp only [report, push, outcomes, failure?, RunReport.mk.injEq, List.filterMap_cons,
    List.findSome?_cons] at h ⊢
  rw [h.1]
  exact ⟨rfl, h.2⟩

end RunTrace

/-- Two states that differ at most in how many items were asked for. A run that draws ahead has
asked for more of them. -/
def RunState.Agree (s s' : RunState) : Prop :=
  s.issues = s'.issues ∧ s.truncated = s'.truncated

namespace Analysis

/-! ## The report depends on the results alone -/

section Results

variable {a a' : Analysis}

/-- The results among steps, in order. -/
def results (steps : List Step) : List (Except Fault (List Outcome)) :=
  steps.filterMap fun
    | .found result => some result
    | _ => none

/-- Analyses with one limit reach it with the same numbers of issues. -/
lemma isLimit_congr (hlimit : a.maxIssues = a'.maxIssues) (issues : Nat) :
    a.isLimit issues = a'.isLimit issues := by
  rw [isLimit, isLimit, hlimit]

/-- Outcomes that are given in two agreeing states lead to one report, if what comes afterwards
does. -/
lemma report_deliver (hlimit : a.maxIssues = a'.maxIssues) {next next' : RunState → RunTrace}
    (hnext : ∀ s s', s.Agree s' → (next s).report = (next' s').report) (outcomes : List Outcome)
    {s s' : RunState} (hs : s.Agree s') :
    (a.deliver next outcomes s).report = (a'.deliver next' outcomes s').report := by
  induction outcomes generalizing s s' with
  | nil => exact hnext s s' hs
  | cons o os ih =>
    obtain ⟨hissues, htruncated⟩ := hs
    rw [deliver, deliver]
    refine RunTrace.report_push_outcome ?_ o s s'
    -- Only issues count, so all else leaves the states in agreement.
    cases o.isIssue with
    | false =>
      simp only [Bool.false_and, Bool.false_eq_true, if_false]
      exact ih ⟨hissues, htruncated⟩
    | true =>
      simp only [Bool.true_and, if_true, isLimit_congr hlimit, hissues]
      split
      · rw [stopped, stopped, RunTrace.report, RunTrace.report]
        rfl
      · exact ih ⟨rfl, htruncated⟩

/-- The report of steps is that of their results, one after the other. Entries and draws in between
leave no trace in it. -/
lemma report_follow (hlimit : a.maxIssues = a'.maxIssues) (steps : List Step)
    (hsteps : ∀ failure, Step.broken failure ∉ steps) {s s' : RunState} (hs : s.Agree s') :
    (a.follow steps s).report = (a'.follow ((results steps).map .found) s').report := by
  induction steps generalizing s s' with
  | nil =>
    obtain ⟨hissues, htruncated⟩ := hs
    simp [results, follow, RunTrace.report, RunTrace.outcomes, RunTrace.failure?, hissues,
      htruncated]
  | cons step steps ih =>
    have hrest : ∀ failure, Step.broken failure ∉ steps :=
      fun failure h => hsteps failure (List.mem_cons_of_mem _ h)
    cases step with
    -- Entries and draws change nothing that is reported.
    | entry e =>
      rw [follow, RunTrace.report_push_entry]
      exact ih hrest hs
    | draw => exact ih hrest hs
    | broken failure => exact absurd (List.mem_cons_self ..) (hsteps failure)
    | found result =>
      cases result with
      | error fault =>
        obtain ⟨hissues, htruncated⟩ := hs
        simp [results, follow, RunTrace.report, RunTrace.outcomes, RunTrace.failure?, hissues,
          htruncated]
      | ok outcomes => exact report_deliver hlimit (fun _ _ => ih hrest) outcomes hs

/-- The items that are drawn, in order. -/
def drawnItems (draws : List Draw) : List Item :=
  draws.filterMap fun
    | .item i => some i
    | _ => none

/-- Whatever the window, the results are those of the items in order. The induction is over how the
steps are made, with the items that wait in front of those still to be drawn. -/
lemma results_steps (waiting : List Item) (draws : List Draw)
    (hdraws : ∀ failure, Draw.broken failure ∉ draws) :
    results (a.steps waiting draws) = (waiting ++ drawnItems draws).map (ofItem a.rules) := by
  fun_induction steps a waiting draws with
  | case1 waiting =>
    rw [results, List.filterMap_map, drawnItems, List.filterMap_nil, List.append_nil]
    exact congrFun List.filterMap_eq_map waiting
  | case2 waiting e draws ih =>
    exact ih fun failure h => hdraws failure (List.mem_cons_of_mem _ h)
  | case3 waiting failure draws => exact absurd (List.mem_cons_self ..) (hdraws failure)
  | case4 waiting i draws h => simp at h
  | case5 waiting i draws first others h hwindow ih =>
    have hrest := ih fun failure h => hdraws failure (List.mem_cons_of_mem _ h)
    -- The item at the front is given now, and the others stay in order.
    have hitems :
        waiting ++ drawnItems (.item i :: draws) = first :: (others ++ drawnItems draws) := by
      rw [← List.cons_append, ← h, List.append_assoc]
      rfl
    rw [hitems, List.map_cons, ← hrest]
    rfl
  | case6 waiting i draws first others h hwindow ih =>
    have hrest := ih fun failure h => hdraws failure (List.mem_cons_of_mem _ h)
    have hitems :
        waiting ++ drawnItems (.item i :: draws) = first :: others ++ drawnItems draws := by
      rw [← h, List.append_assoc]
      rfl
    rw [hitems, ← hrest]
    rfl

/-- Steps break off only where a draw does. -/
lemma not_broken_steps (waiting : List Item) (draws : List Draw)
    (hdraws : ∀ failure, Draw.broken failure ∉ draws) :
    ∀ failure, Step.broken failure ∉ a.steps waiting draws := by
  intro failure
  fun_induction steps a waiting draws with
  | case1 waiting => simp
  | case2 waiting e draws ih =>
    simpa using ih fun failure h => hdraws failure (List.mem_cons_of_mem _ h)
  | case3 waiting found draws => exact absurd (List.mem_cons_self ..) (hdraws found)
  | case4 waiting i draws h => simp at h
  | case5 waiting i draws first others h hwindow ih
  | case6 waiting i draws first others h hwindow ih =>
    simpa using ih fun failure h => hdraws failure (List.mem_cons_of_mem _ h)

/-- The report of a run is that of the results of its items, in order. -/
lemma report_runItems (hlimit : a.maxIssues = a'.maxIssues) (hrules : a.rules = a'.rules)
    {draws : List Draw} (hdraws : ∀ failure, Draw.broken failure ∉ draws) :
    (a.runItems draws).report = (a'.runItems draws).report := by
  have hresults : results (a.steps [] draws) = results (a'.steps [] draws) := by
    rw [results_steps [] draws hdraws, results_steps [] draws hdraws, hrules]
  have hagree : RunState.Agree {} {} := ⟨rfl, rfl⟩
  rw [runItems, runItems, isLimit_congr hlimit]
  split
  · rfl
  · rw [report_follow hlimit _ (not_broken_steps [] draws hdraws) hagree, hresults,
      ← report_follow rfl _ (not_broken_steps [] draws hdraws) hagree]

/-- The number of workers makes no difference to the report of a run: it sets the window, and the
window only says when a result is taken. -/
lemma report_run_jobs (a : Analysis) (jobs : Int) {draws : List Draw}
    (hdraws : ∀ failure, Draw.broken failure ∉ draws) :
    (a.run draws).report = (({ a with jobs } : Analysis).run draws).report := by
  have hitems : (a.runItems draws).report = (({ a with jobs } : Analysis).runItems draws).report :=
    report_runItems (by rfl) (by rfl) hdraws
  exact RunTrace.report_append hitems _

end Results

end Analysis

/-! ## The pool -/

/-- How far a task has come: it waits for a worker, or a worker runs it, or it has come to an
end. -/
inductive Progress where
  | queued
  | running
  /-- It has returned, or failed. -/
  | done (result : Except Fault (List Outcome))

/-- An item that was handed to the pool, and how far it has come. -/
structure Task where
  item : Item
  progress : Progress

/-- Whether a worker runs the task. -/
def Task.isRunning (t : Task) : Bool :=
  match t.progress with
  | .running => true
  | _ => false

/-- A task that has come to an end has the result of its item: it returns, or fails with, what the
analysis of that item returned or failed with. -/
def Task.Faithful (a : Analysis) (t : Task) : Prop :=
  ∀ result, t.progress = .done result → result = Analysis.ofItem a.rules t.item

/-- A run with a pool of workers, at some time: what is left to draw, the tasks in the pool, the
outcomes on their way out, the state of the run, and what has happened so far, each event with the
state at that time. -/
structure Pool where
  draws : List Draw
  /-- The tasks whose results were not taken yet, in the order of their items. -/
  pending : List Task := []
  /-- The outcomes of the last result that were not given yet. -/
  giving : List Outcome := []
  state : RunState := {}
  events : List (RunEvent × RunState) := []
  ended : Bool := false

namespace Pool

/-- The trace of what has happened so far. -/
def trace (p : Pool) : RunTrace :=
  ⟨p.events, p.state⟩

/-- Whether the main thread waits for the oldest task: as many as may be are pending, or there is
nothing left to draw. -/
def Waits (a : Analysis) (p : Pool) : Prop :=
  a.window ≤ p.pending.length ∨ p.draws = []

/-- The events before the first item is drawn. -/
def opening (a : Analysis) : List (RunEvent × RunState) :=
  (a.ruleErrors.map (fun (id, fault) => RunEvent.outcome (.ruleError id fault)) ++
    if a.rules.isEmpty then [RunEvent.entry Analysis.noRulesEntry] else []).map (·, {})

/-- The pool at the start of a run. A limit of no issues ends the run at once. -/
def start (a : Analysis) (draws : List Draw) : Pool :=
  { draws, state := { truncated := a.isLimit 0 }, events := opening a, ended := a.isLimit 0 }

/-- What can happen next. The first three steps are those of the workers and of the closing pool, in
any order; the others are those of the main thread. -/
inductive Step (a : Analysis) (p : Pool) : Pool → Prop where
  /-- A free worker starts a task, also after the end as long as the task was not cancelled. -/
  | launch {before after : List Task} {i : Item} :
      p.pending.countP Task.isRunning < a.workers → p.pending = before ++ ⟨i, .queued⟩ :: after →
      Step a p { p with pending := before ++ ⟨i, .running⟩ :: after }
  /-- A task returns or fails. -/
  | finish {before after : List Task} {i : Item} :
      p.pending = before ++ ⟨i, .running⟩ :: after →
      Step a p { p with pending := before ++ ⟨i, .done (Analysis.ofItem a.rules i)⟩ :: after }
  /-- After the end, a task that was not started is cancelled. -/
  | cancel {before after : List Task} {i : Item} :
      p.ended = true → p.pending = before ++ ⟨i, .queued⟩ :: after →
      Step a p { p with pending := before ++ after }
  /-- An entry is written while the next item is loaded. -/
  | log {e : LogEntry} {draws : List Draw} :
      p.ended = false → p.giving = [] → p.pending.length < a.window → p.draws = .entry e :: draws →
      Step a p { p with draws, events := p.events ++ [(.entry e, p.state)] }
  /-- An item is drawn and handed to the pool. -/
  | submit {i : Item} {draws : List Draw} :
      p.ended = false → p.giving = [] → p.pending.length < a.window →
      p.draws = .item i :: draws →
      Step a p { p with
        draws
        pending := p.pending ++ [⟨i, .queued⟩]
        state := { p.state with drawn := p.state.drawn + 1 } }
  /-- Loading breaks off. -/
  | break_ {failure : Java.ParseFailure} {draws : List Draw} :
      p.ended = false → p.giving = [] → p.pending.length < a.window →
      p.draws = .broken failure :: draws →
      Step a p { p with
        draws
        state := { p.state with drawn := p.state.drawn + 1 }
        events := p.events ++
          [(.failed (.broken failure), { p.state with drawn := p.state.drawn + 1 })]
        ended := true }
  /-- The result of the oldest task is taken. -/
  | take {i : Item} {outcomes : List Outcome} {pending : List Task} :
      p.ended = false → p.giving = [] → p.Waits a →
      p.pending = ⟨i, .done (.ok outcomes)⟩ :: pending →
      Step a p { p with pending, giving := outcomes }
  /-- The oldest task has failed, and so does the run. -/
  | fail {i : Item} {fault : Fault} {pending : List Task} :
      p.ended = false → p.giving = [] → p.Waits a →
      p.pending = ⟨i, .done (.error fault)⟩ :: pending →
      Step a p { p with pending, events := p.events ++ [(.failed (.fatal fault), p.state)],
                        ended := true }
  /-- An outcome is given. -/
  | give {o : Outcome} {outcomes : List Outcome} :
      p.ended = false → p.giving = o :: outcomes →
      (o.isIssue && a.isLimit (p.state.issues + 1)) = false →
      Step a p { p with
        giving := outcomes
        state := { p.state with issues := p.state.issues + if o.isIssue then 1 else 0 }
        events := p.events ++ [(.outcome o, p.state)] }
  /-- The issue is given that reaches the limit. -/
  | stop {o : Outcome} {outcomes : List Outcome} :
      p.ended = false → p.giving = o :: outcomes →
      (o.isIssue && a.isLimit (p.state.issues + 1)) = true →
      Step a p { p with
        giving := outcomes
        state := { p.state with issues := p.state.issues + 1, truncated := true }
        events := p.events ++ [(.outcome o, p.state),
          (.entry (Analysis.stopEntry (p.state.issues + 1)),
            { p.state with issues := p.state.issues + 1 })]
        ended := true }
  /-- All results were taken. -/
  | close :
      p.ended = false → p.giving = [] → p.pending = [] → p.draws = [] →
      Step a p { p with ended := true }

/-! ## Every state stands for one trace -/

/-- The steps that are left for the results which were not taken yet. If as many tasks are pending
as may be, the result of the oldest comes next. -/
def rest (a : Analysis) (p : Pool) : List Analysis.Step :=
  match p.pending.map (·.item) with
  | [] => a.steps [] p.draws
  | first :: others =>
    if a.window ≤ p.pending.length
      then .found (Analysis.ofItem a.rules first) :: a.steps others p.draws
    else a.steps (first :: others) p.draws

/-- The trace that a state stands for: what has happened so far, then the outcomes that are still to
be given, then what is left. -/
def completion (a : Analysis) (p : Pool) : RunTrace :=
  if p.ended then p.trace
  else
    let left := a.deliver (a.follow (p.rest a)) p.giving p.state
    { left with events := p.events ++ left.events }

/-- The tasks that have come to an end have the results of their items, and no more are pending than
may be. -/
structure Sound (a : Analysis) (p : Pool) : Prop where
  room : p.pending.length ≤ a.window
  faithful : ∀ t ∈ p.pending, t.Faithful a

lemma window_pos (a : Analysis) : 1 ≤ a.window := by
  unfold Analysis.window Analysis.workers
  split <;> omega

/-- What is left depends on the items of the pending tasks and not on how far these have come. -/
lemma rest_congr {a : Analysis} {p q : Pool}
    (hitems : p.pending.map (·.item) = q.pending.map (·.item)) (hdraws : p.draws = q.draws) :
    p.rest a = q.rest a := by
  have hlength : p.pending.length = q.pending.length := by
    simpa using congrArg List.length hitems
  rw [rest, rest, hitems, hdraws, hlength]

/-- Where the main thread waits, what comes next is the result of the oldest task. -/
lemma rest_of_waits {a : Analysis} {p : Pool} (hsound : p.Sound a) (h : p.Waits a) {t : Task}
    {pending : List Task} (hp : p.pending = t :: pending) :
    p.rest a = .found (Analysis.ofItem a.rules t.item) :: { p with pending }.rest a := by
  have hroom := hsound.room
  rw [hp, List.length_cons] at hroom
  have hshort : ¬ a.window ≤ pending.length := by omega
  have hsteps : ({ p with pending } : Pool).rest a = a.steps (pending.map (·.item)) p.draws := by
    cases hpending : pending.map (·.item) with
    | nil => simp only [rest, hpending]
    | cons first others => simp only [rest, hpending, if_neg hshort]
  rw [hsteps]
  -- The pool waits because its window is full, or because nothing is left to draw.
  rcases h with hwindow | hdraws
  · simp only [rest, hp, List.map_cons, List.length_cons] at hwindow ⊢
    rw [if_pos hwindow]
  · simp only [rest, hp, List.map_cons, List.length_cons, hdraws]
    split
    · rfl
    · simp only [Analysis.steps, List.map_cons]

/-- Where there is room, what comes next is the next draw. -/
lemma rest_of_room {a : Analysis} {p : Pool} (h : p.pending.length < a.window) :
    p.rest a = a.steps (p.pending.map (·.item)) p.draws := by
  cases hitems : p.pending.map (·.item) with
  | nil => simp only [rest, hitems]
  | cons first others => simp only [rest, hitems, if_neg (Nat.not_le.mpr h)]

/-- Handing over an item is the next draw, whether or not the pool is then full. -/
lemma rest_of_item {a : Analysis} {p : Pool} (h : p.pending.length < a.window) {i : Item}
    {draws : List Draw} (hdraws : p.draws = .item i :: draws) {state : RunState} :
    p.rest a = .draw ::
      ({ p with draws, pending := p.pending ++ [⟨i, .queued⟩], state } : Pool).rest a := by
  obtain ⟨first, others, hitems⟩ :=
    List.exists_cons_of_ne_nil (l := p.pending.map (·.item) ++ [i]) (by simp)
  have hlength : others.length = p.pending.length := by
    simpa using (congrArg List.length hitems).symm
  rw [rest_of_room h, hdraws, Analysis.steps, rest]
  simp only [List.map_append, List.map_cons, List.map_nil, List.length_append, List.length_cons,
    List.length_nil, hitems, hlength, Nat.zero_add]
  split <;> rfl

/-- What the workers do to a task changes nothing. -/
lemma completion_of_items {a : Analysis} {p : Pool} {pending : List Task}
    (h : pending.map (·.item) = p.pending.map (·.item)) :
    ({ p with pending } : Pool).completion a = p.completion a := by
  have hrest : ({ p with pending } : Pool).rest a = p.rest a := rest_congr h rfl
  rw [completion, completion, hrest]
  rfl

/-- No step changes the trace that the state stands for. What the workers do is not in it; what the
main thread does was already what came next. -/
theorem Step.completion_eq {a : Analysis} {p q : Pool} (h : Step a p q) (hsound : p.Sound a) :
    q.completion a = p.completion a := by
  cases h with
  | launch hfree hp => exact completion_of_items (by rw [hp]; simp)
  | finish hp => exact completion_of_items (by rw [hp]; simp)
  -- Only after the end are tasks cancelled, and then there is nothing left.
  | cancel hended hp => simp only [completion, hended, if_true, trace]
  | @log e draws hended hgiving hroom hdraws =>
    have hrest : p.rest a = .entry e :: ({ p with draws } : Pool).rest a := by
      rw [rest_of_room hroom, hdraws, Analysis.steps]
      exact congrArg _ (rest_of_room (p := { p with draws }) hroom).symm
    simp only [completion, hended, Bool.false_eq_true, if_false, hgiving, Analysis.deliver, hrest,
      Analysis.follow, RunTrace.push, List.append_assoc, List.singleton_append]
    rfl
  | @submit i draws hended hgiving hroom hdraws =>
    have hrest : p.rest a = .draw :: rest a
        { p with draws, pending := p.pending ++ [⟨i, .queued⟩],
                 state := { p.state with drawn := p.state.drawn + 1 } } :=
      rest_of_item hroom hdraws
    simp only [completion, hended, Bool.false_eq_true, if_false, hgiving, Analysis.deliver, hrest,
      Analysis.follow]
  | @break_ failure draws hended hgiving hroom hdraws =>
    have hrest : p.rest a = [.draw, .broken failure] := by
      rw [rest_of_room hroom, hdraws, Analysis.steps]
    simp only [completion, hended, Bool.false_eq_true, if_false, if_true, hgiving, Analysis.deliver,
      hrest, Analysis.follow, trace]
  | @take i outcomes pending hended hgiving hwaits hp =>
    have hresult := hsound.faithful _ (hp ▸ List.mem_cons_self ..) _ rfl
    have hrest := rest_of_waits hsound hwaits hp
    rw [← hresult] at hrest
    simp only [completion, hended, Bool.false_eq_true, if_false, hgiving, Analysis.deliver, hrest,
      Analysis.follow]
    rfl
  | @fail i fault pending hended hgiving hwaits hp =>
    have hresult := hsound.faithful _ (hp ▸ List.mem_cons_self ..) _ rfl
    have hrest := rest_of_waits hsound hwaits hp
    rw [← hresult] at hrest
    simp only [completion, hended, Bool.false_eq_true, if_false, if_true, hgiving, Analysis.deliver,
      hrest, Analysis.follow, trace]
  | @give o outcomes hended hgiving hlimit =>
    have hrest : ({ p with giving := outcomes } : Pool).rest a = p.rest a := rest_congr rfl rfl
    have hdeliver : a.deliver (a.follow (p.rest a)) (o :: outcomes) p.state =
        (a.deliver (a.follow (p.rest a)) outcomes
          { p.state with issues := p.state.issues + if o.isIssue then 1 else 0 }).push
            (.outcome o) p.state := by
      rw [Analysis.deliver]
      cases hissue : o.isIssue with
      | false => simp
      | true =>
        rw [hissue, Bool.true_and] at hlimit
        simp [hlimit]
    simp only [completion, hended, Bool.false_eq_true, if_false, hgiving, hdeliver, RunTrace.push,
      List.append_assoc, List.singleton_append]
    rfl
  | @stop o outcomes hended hgiving hlimit =>
    obtain ⟨hissue, hreached⟩ := (Bool.and_eq_true _ _).mp hlimit
    have hdeliver : a.deliver (a.follow (p.rest a)) (o :: outcomes) p.state =
        (Analysis.stopped { p.state with issues := p.state.issues + 1 }).push
          (.outcome o) p.state := by
      rw [Analysis.deliver]
      simp [hissue, hreached]
    simp only [completion, hended, Bool.false_eq_true, if_false, if_true, hgiving, hdeliver,
      RunTrace.push, Analysis.stopped, trace]
  | close hended hgiving hp hdraws =>
    have hrest : p.rest a = [] := by
      simp only [rest, hp, hdraws, List.map_nil, Analysis.steps]
    simp only [completion, hended, Bool.false_eq_true, if_false, if_true, hgiving, Analysis.deliver,
      hrest, Analysis.follow, trace, List.append_nil]

/-- Every step keeps the pool sound: a task is added only where there is room, and one that ends has
the result of its item. -/
lemma Step.sound {a : Analysis} {p q : Pool} (h : Step a p q) (hsound : p.Sound a) : q.Sound a := by
  obtain ⟨hroom, hfaithful⟩ := hsound
  cases h with
  | launch _ hp =>
    rw [hp] at hroom hfaithful
    obtain ⟨hbefore, -, hafter⟩ := by
      simpa only [List.forall_mem_append, List.forall_mem_cons] using hfaithful
    refine ⟨by simpa using hroom, ?_⟩
    rw [List.forall_mem_append, List.forall_mem_cons]
    exact ⟨hbefore, fun _ h => (by cases h), hafter⟩
  | finish hp =>
    rw [hp] at hroom hfaithful
    obtain ⟨hbefore, -, hafter⟩ := by
      simpa only [List.forall_mem_append, List.forall_mem_cons] using hfaithful
    refine ⟨by simpa using hroom, ?_⟩
    rw [List.forall_mem_append, List.forall_mem_cons]
    exact ⟨hbefore, fun _ h => (Progress.done.inj h).symm, hafter⟩
  | cancel _ hp =>
    rw [hp] at hroom hfaithful
    obtain ⟨hbefore, -, hafter⟩ := by
      simpa only [List.forall_mem_append, List.forall_mem_cons] using hfaithful
    rw [List.length_append, List.length_cons] at hroom
    refine ⟨by rw [List.length_append]; omega, ?_⟩
    rw [List.forall_mem_append]
    exact ⟨hbefore, hafter⟩
  -- A task that was not started has no result to be faithful.
  | submit _ _ hfree =>
    refine ⟨by rw [List.length_append]; exact hfree, ?_⟩
    rw [List.forall_mem_append, List.forall_mem_singleton]
    exact ⟨hfaithful, fun _ h => (by cases h)⟩
  | take _ _ _ hp | fail _ _ _ hp =>
    rw [hp] at hroom hfaithful
    exact ⟨Nat.le_of_succ_le hroom, (List.forall_mem_cons.mp hfaithful).2⟩
  | log | break_ | give | stop | close => exact ⟨hroom, hfaithful⟩

/-! ## Every schedule comes to an end -/

/-- How many outcomes a result has. -/
def outcomeCount : Except Fault (List Outcome) → Nat
  | .ok outcomes => outcomes.length
  | .error _ => 0

/-- How many steps a task can still take or bring about: to be started, to end, to be taken, and to
have its outcomes given. -/
def taskWeight (a : Analysis) (t : Task) : Nat :=
  match t.progress with
  | .queued => 3 + outcomeCount (Analysis.ofItem a.rules t.item)
  | .running => 2 + outcomeCount (Analysis.ofItem a.rules t.item)
  | .done result => 1 + outcomeCount result

/-- How many steps a draw can bring about. -/
def drawWeight (a : Analysis) : Draw → Nat
  | .item i => 4 + outcomeCount (Analysis.ofItem a.rules i)
  | _ => 1

/-- How many steps there are left at most. Each step takes one away, if not more. -/
def weight (a : Analysis) (p : Pool) : Nat :=
  (p.draws.map (drawWeight a)).sum + (p.pending.map (taskWeight a)).sum + p.giving.length +
    if p.ended then 0 else 1

/-- Every step brings the end nearer. Drawing an item takes its weight from the draws, and adds one
less to the tasks. -/
lemma Step.weight_lt {a : Analysis} {p q : Pool} (h : Step a p q) : q.weight a < p.weight a := by
  cases h with
  | launch _ hp | finish hp | cancel _ hp =>
    simp only [weight, hp, List.map_append, List.map_cons, List.sum_append, List.sum_cons,
      taskWeight]
    omega
  | log hended _ _ hdraws | submit hended _ _ hdraws | break_ hended _ _ hdraws =>
    simp only [weight, hdraws, hended, List.map_append, List.map_cons, List.map_nil,
      List.sum_append, List.sum_cons, List.sum_nil, drawWeight, taskWeight, Bool.false_eq_true,
      if_false, if_true]
    omega
  | take hended hgiving _ hp | fail hended hgiving _ hp =>
    simp only [weight, hp, hgiving, hended, List.map_cons, List.sum_cons, taskWeight, outcomeCount,
      List.length_nil, Bool.false_eq_true, if_false, if_true]
    omega
  -- An outcome that is given leaves one less to give; a run that ends leaves nothing to do.
  | give hended hgiving | stop hended hgiving =>
    simp only [weight, hgiving, hended, List.length_cons, Bool.false_eq_true, if_false, if_true]
    omega
  | close hended =>
    simp only [weight, hended, Bool.false_eq_true, if_false, if_true]
    omega

/-- There is no endless schedule. -/
theorem wellFounded_step (a : Analysis) : WellFounded fun q p => Step a p q :=
  Subrelation.wf (fun h => Step.weight_lt h) (measure (weight a)).wf

/-! ## No schedule gets stuck -/

/-- If no worker is free, some task runs. -/
lemma exists_running {pending : List Task} (h : 0 < pending.countP Task.isRunning) :
    ∃ before after i, pending = before ++ ⟨i, .running⟩ :: after := by
  obtain ⟨t, ht, hrunning⟩ := List.countP_pos_iff.mp h
  obtain ⟨before, after, hsplit⟩ := List.append_of_mem ht
  obtain ⟨i, progress⟩ := t
  cases progress with
  | running => exact ⟨before, after, i, hsplit⟩
  | queued | done => cases hrunning

/-- The main thread waits only for a task that can go on, or that another one keeps from starting.
-/
lemma exists_step_of_pending {a : Analysis} {p : Pool} (hended : p.ended = false)
    (hgiving : p.giving = []) (hwaits : p.Waits a) {t : Task} {pending : List Task}
    (hp : p.pending = t :: pending) : ∃ q, Step a p q := by
  obtain ⟨i, progress⟩ := t
  cases progress with
  | queued =>
    by_cases hfree : p.pending.countP Task.isRunning < a.workers
    · exact ⟨_, .launch hfree (hp.trans (List.nil_append _).symm)⟩
    · have hworkers : 1 ≤ a.workers := Nat.le_max_left _ _
      have hrunning : 0 < p.pending.countP Task.isRunning := by omega
      obtain ⟨before, after, j, hsplit⟩ := exists_running hrunning
      exact ⟨_, .finish hsplit⟩
  | running => exact ⟨_, .finish (hp.trans (List.nil_append _).symm)⟩
  | done result =>
    cases result with
    | ok outcomes => exact ⟨_, .take hended hgiving hwaits hp⟩
    | error fault => exact ⟨_, .fail hended hgiving hwaits hp⟩

/-- A run that has not ended can go on: it gives an outcome, waits for a task that can go on, draws,
or closes. -/
lemma exists_step {a : Analysis} {p : Pool} (hended : p.ended = false) : ∃ q, Step a p q := by
  cases hgiving : p.giving with
  | cons o outcomes =>
    cases hlimit : o.isIssue && a.isLimit (p.state.issues + 1) with
    | false => exact ⟨_, .give hended hgiving hlimit⟩
    | true => exact ⟨_, .stop hended hgiving hlimit⟩
  | nil =>
    -- A pool that does not wait draws; one that waits takes the result of its first task, or is
    -- done.
    by_cases hwaits : p.Waits a
    · cases hp : p.pending with
      | cons t pending => exact exists_step_of_pending hended hgiving hwaits hp
      | nil =>
        have hdraws : p.draws = [] := by
          rcases hwaits with hwindow | hdraws
          · have := window_pos a
            rw [hp, List.length_nil] at hwindow
            omega
          · exact hdraws
        exact ⟨_, .close hended hgiving hp hdraws⟩
    · obtain ⟨hroom, hdraws⟩ := not_or.mp hwaits
      have hroom : p.pending.length < a.window := Nat.not_le.mp hroom
      obtain ⟨d, draws, hd⟩ := List.exists_cons_of_ne_nil hdraws
      cases d with
      | entry e => exact ⟨_, .log hended hgiving hroom hd⟩
      | item i => exact ⟨_, .submit hended hgiving hroom hd⟩
      | broken failure => exact ⟨_, .break_ hended hgiving hroom hd⟩

/-! ## Runs -/

lemma start_sound (a : Analysis) (draws : List Draw) : (start a draws).Sound a :=
  ⟨Nat.zero_le _, by simp [start]⟩

/-- At its start, the pool stands for the trace of the run. -/
theorem completion_start (a : Analysis) (draws : List Draw) :
    (start a draws).completion a = a.run draws := by
  have hrest : (start a draws).rest a = a.steps [] draws := rfl
  rw [completion, hrest, Analysis.run, Analysis.runItems]
  cases hlimit : a.isLimit 0 with
  | true => simp only [start, hlimit, if_true, trace, opening, List.append_nil]
  | false =>
    simp only [start, hlimit, Bool.false_eq_true, if_false, opening, Analysis.deliver]

/-- Along every schedule, the pool stands for the trace of the run, by induction on the steps
taken. -/
lemma completion_of_reaches {a : Analysis} {draws : List Draw} {p : Pool}
    (h : Relation.ReflTransGen (Step a) (start a draws) p) :
    p.Sound a ∧ p.completion a = a.run draws := by
  induction h with
  | refl => exact ⟨start_sound a draws, completion_start a draws⟩
  | tail _ hstep ih => exact ⟨hstep.sound ih.1, (hstep.completion_eq ih.1).trans ih.2⟩

/-- A schedule that cannot go on has ended. -/
lemma ended_of_stuck {a : Analysis} {p : Pool} (h : ∀ q, ¬ Step a p q) : p.ended = true := by
  cases hended : p.ended with
  | true => rfl
  | false =>
    obtain ⟨q, hq⟩ := exists_step (a := a) hended
    exact absurd hq (h q)

/-- A schedule that cannot go on has ended with the trace of the run. -/
theorem trace_eq_of_stuck {a : Analysis} {draws : List Draw} {p : Pool}
    (h : Relation.ReflTransGen (Step a) (start a draws) p) (hstuck : ∀ q, ¬ Step a p q) :
    p.trace = a.run draws := by
  obtain ⟨-, htrace⟩ := completion_of_reaches h
  rwa [completion, ended_of_stuck hstuck, if_pos rfl] at htrace

/-- A run over items gives the same outcomes, ends the same way and leaves the same counts for every
number of workers and every order in which they start and finish their tasks, as it does with one
worker: no schedule is endless, and a schedule that cannot go on has ended with that report. -/
theorem report_eq_of_schedule (a : Analysis) {draws : List Draw}
    (hdraws : ∀ failure, Draw.broken failure ∉ draws) :
    (a.run draws).report = (({ a with jobs := 1 } : Analysis).run draws).report ∧
      (WellFounded fun q p => Step a p q) ∧
      ∀ p, Relation.ReflTransGen (Step a) (start a draws) p → (∀ q, ¬ Step a p q) →
        p.ended = true ∧ p.trace.report = (({ a with jobs := 1 } : Analysis).run draws).report := by
  have hjobs := a.report_run_jobs 1 hdraws
  refine ⟨hjobs, wellFounded_step a, ?_⟩
  intro p hp hstuck
  have hended := ended_of_stuck hstuck
  obtain ⟨-, htrace⟩ := completion_of_reaches hp
  rw [completion, hended, if_pos rfl] at htrace
  exact ⟨hended, by rw [htrace, hjobs]⟩

/-- A file that cannot be loaded. -/
def unreadable (path : String) : Item :=
  .failed path (.fatal "unreadable")

/-- What two workers end with that were given two such files. -/
def overtaken : Pool :=
  { draws := []
    state := { drawn := 2 }
    events := [(.entry Analysis.noRulesEntry, {}),
      (.outcome (.scriptError "A.java" (.fatal "unreadable")), { drawn := 2 }),
      (.outcome (.scriptError "B.java" (.fatal "unreadable")), { drawn := 2 })]
    ended := true }

/-- The second of two tasks is started and finished before the first one is, and its result is still
given behind that of the first. -/
lemma reaches_overtaken :
    Relation.ReflTransGen (Step { rules := [], jobs := 2 })
      (start { rules := [], jobs := 2 } [.item (unreadable "A.java"), .item (unreadable "B.java")])
      overtaken := by
  refine .head (.submit rfl rfl (by decide) rfl) (.head (.submit rfl rfl (by decide) rfl) ?_)
  refine .head
    (@Step.launch _ _ [⟨unreadable "A.java", .queued⟩] [] (unreadable "B.java") (by decide) rfl) ?_
  refine .head (@Step.finish _ _ [⟨unreadable "A.java", .queued⟩] [] (unreadable "B.java") rfl) ?_
  refine .head (@Step.launch _ _ [] _ (unreadable "A.java") (by decide) rfl) ?_
  refine .head (@Step.finish _ _ [] _ (unreadable "A.java") rfl) ?_
  refine .head (.take rfl rfl (.inr rfl) rfl) (.head (.give rfl rfl rfl) ?_)
  refine .head (.take rfl rfl (.inr rfl) rfl) (.head (.give rfl rfl rfl) ?_)
  exact .head (.close rfl rfl rfl rfl) .refl

theorem report_eq_of_schedule_overtaken :
    (∀ failure,
      Draw.broken failure ∉ [Draw.item (unreadable "A.java"), .item (unreadable "B.java")]) ∧
      (∀ q, ¬ Step { rules := [], jobs := 2 } overtaken q) ∧ overtaken.ended = true ∧
      overtaken.trace.report =
        (Analysis.run { rules := [] }
          [.item (unreadable "A.java"), .item (unreadable "B.java")]).report := by
  have hdraws : ∀ failure,
      Draw.broken failure ∉ [Draw.item (unreadable "A.java"), .item (unreadable "B.java")] := by
    simp
  have hstuck : ∀ q, ¬ Step { rules := [], jobs := 2 } overtaken q := by
    intro q hq
    cases hq with
    | launch _ hp | finish hp | cancel _ hp => simp [overtaken] at hp
    | log hended | submit hended | break_ hended | take hended | fail hended | give hended
    | stop hended | close hended => cases hended
  exact ⟨hdraws, hstuck, (report_eq_of_schedule _ hdraws).2.2 overtaken reaches_overtaken hstuck⟩

end Pool

end ShapeLint
