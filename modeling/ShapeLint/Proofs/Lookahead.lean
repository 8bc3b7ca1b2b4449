import ShapeLint.Proofs.Limit

/-!
# How far ahead items are drawn

Items are loaded when they are drawn, so an analysis must not draw more of them than it needs. A
reader of its outcomes may stop at any time, and whenever it does, only few items have been drawn of
which it has not been given all outcomes.

A `Session` is a run with a pool of workers together with its books: which items were drawn, which
were handed to the pool, and of which the results were taken. The books are kept by comparing the
pool before a step with the pool after it, so they hold what the steps do and not what they are
meant to do. `Session.Kept` is what every step keeps: an item that was drawn is delivered, or being
delivered, or pending, and the last two together are no more than the window has room for. Every run
ends like some session, and so each of its events tells of such a number of drawn items
(`Session.Paced`).
-/

namespace ShapeLint

open Analysis (drawnItems ofItem)

/-- The outcomes of an item, none if it cannot be analysed. -/
def Analysis.outcomesOf (a : Analysis) (i : Item) : List Outcome :=
  (ofItem a.rules i).toOption.getD []

namespace Pool

variable {a : Analysis} {p q : Pool}

/-! ## What a step does to the items -/

/-- The draws that are gone between two pools. -/
def gone (p q : Pool) : List Draw :=
  p.draws.take (p.draws.length - q.draws.length)

/-- The items of the tasks that are new behind the others. -/
def added (p q : Pool) : List Item :=
  (q.pending.drop p.pending.length).map (·.item)

/-- The items of the tasks that are gone in front of the others, while the run goes on. After its
end tasks are cancelled anywhere, and no result is taken. -/
def removed (p q : Pool) : List Item :=
  if q.ended then [] else (p.pending.take (p.pending.length - q.pending.length)).map (·.item)

/-- What is drawn is handed to the pool: the items among the draws that are gone are those of the
new tasks. -/
lemma Step.draws_eq (h : Step a p q) :
    p.draws = gone p q ++ q.draws ∧ added p q = drawnItems (gone p q) := by
  cases h with
  | launch _ hp | finish hp | cancel _ hp => simp [gone, added, drawnItems, hp]
  | log _ _ _ hdraws | submit _ _ _ hdraws | break_ _ _ _ hdraws =>
    simp [gone, added, drawnItems, hdraws]
  | take _ _ _ hp | fail _ _ _ hp => simp [gone, added, drawnItems, hp]
  | give | stop | close => simp [gone, added, drawnItems]

/-- Tasks are added behind the others and removed in front of them, so the order of items is
kept. -/
lemma Step.items_eq (h : Step a p q) (hended : q.ended = false) :
    p.pending.map (·.item) ++ added p q = removed p q ++ q.pending.map (·.item) := by
  cases h with
  | launch _ hp | finish hp => simp [added, removed, hp]
  | cancel hend => exact absurd hended (by simp [hend])
  | log | give => simp [added, removed]
  | submit => simp [added, removed]
  | take hend _ _ hp => simp [added, removed, hp, hend]
  | break_ | fail | stop | close => cases hended

/-- A run that has ended does not go on, and has no more events, whatever its workers still do. -/
lemma Step.ended_of_ended (h : Step a p q) (hended : p.ended = true) :
    q.ended = true ∧ q.events = p.events := by
  cases h with
  | launch | finish | cancel => exact ⟨hended, rfl⟩
  | log hend | submit hend | break_ hend | take hend | fail hend | give hend | stop hend
  | close hend =>
    rw [hended] at hend
    cases hend

lemma Step.live_of_live (h : Step a p q) (hended : q.ended = false) : p.ended = false := by
  cases hp : p.ended with
  | false => rfl
  | true =>
    rw [(h.ended_of_ended hp).1] at hended
    cases hended

/-- The run counts the items that it draws. -/
lemma Step.count_eq (h : Step a p q) (hended : q.ended = false) :
    q.state.drawn = p.state.drawn + (drawnItems (gone p q)).length := by
  cases h with
  | launch | finish | cancel | take | give => simp [gone, drawnItems]
  | log _ _ _ hdraws | submit _ _ _ hdraws => simp [gone, drawnItems, hdraws]
  | break_ | fail | stop | close => cases hended

/-- A step that ends the run, or comes after its end, draws no item and takes no result. -/
lemma Step.drawn_of_ended (h : Step a p q) (hended : q.ended = true) :
    drawnItems (gone p q) = [] ∧ q.giving <:+ p.giving := by
  cases h with
  | launch | finish | cancel | fail | close => simp [gone, drawnItems]
  | log hend | submit hend | take hend | give hend => exact absurd hended (by simp [hend])
  | break_ _ _ _ hdraws => simp [gone, drawnItems, hdraws]
  | stop _ hgiving => simp [gone, drawnItems, hgiving]

/-- A result that is taken holds the outcomes of its item. -/
lemma Sound.outcomesOf_eq (hsound : p.Sound a) {i : Item} {outcomes : List Outcome}
    {pending : List Task} (hp : p.pending = ⟨i, .done (.ok outcomes)⟩ :: pending) :
    a.outcomesOf i = outcomes := by
  have hresult : .ok outcomes = ofItem a.rules i :=
    hsound.faithful _ (hp ▸ List.mem_cons_self ..) _ rfl
  rw [Analysis.outcomesOf, ← hresult]
  rfl

/-- Outcomes come to be given only when a result is taken, and then there is room for another task.
While they are given, nothing is drawn, so the room stays. -/
lemma Step.giving_cases (h : Step a p q) (hsound : p.Sound a) (hended : q.ended = false)
    (hgiving : q.giving ≠ []) :
    (q.pending.length < a.window ∧ ∃ i, removed p q = [i] ∧ q.giving = a.outcomesOf i) ∨
      (q.pending.length = p.pending.length ∧ removed p q = [] ∧ q.giving <:+ p.giving) := by
  have hroom := hsound.room
  cases h with
  | launch _ hp | finish hp => exact .inr (by simp [removed, hp])
  | cancel hend => exact absurd hended (by simp [hend])
  | log _ hnone | submit _ hnone => exact absurd hnone hgiving
  | @take i outcomes pending hend _ _ hp =>
    rw [hp, List.length_cons] at hroom
    exact .inl ⟨hroom, i, by simp [removed, hp, hend], (hsound.outcomesOf_eq hp).symm⟩
  | give _ hsome => exact .inr (by simp [removed, hsome])
  | break_ | fail | stop | close => cases hended

/-- What has been given and is to be given grows by the outcomes of the results that are taken. -/
lemma Step.outcomes_eq (h : Step a p q) (hsound : p.Sound a) :
    q.trace.outcomes ++ q.giving =
      p.trace.outcomes ++ p.giving ++ (removed p q).flatMap a.outcomesOf := by
  cases h with
  | launch _ hp | finish hp => simp [removed, hp, trace, RunTrace.outcomes]
  | cancel hend => simp [removed, hend, trace, RunTrace.outcomes]
  | log _ hnone | break_ _ hnone => simp [removed, hnone, trace, RunTrace.outcomes]
  | submit => simp [removed, trace, RunTrace.outcomes]
  | take hend hnone _ hp =>
    simp [removed, hp, hend, hnone, trace, RunTrace.outcomes, hsound.outcomesOf_eq hp]
  | fail => simp [removed, trace, RunTrace.outcomes]
  | give _ hsome => simp [removed, hsome, trace, RunTrace.outcomes]
  | stop _ hsome => simp [removed, hsome, trace, RunTrace.outcomes]
  | close => simp [removed, trace, RunTrace.outcomes]

/-- Every pool can go on until it is stuck, since no schedule is endless. -/
lemma exists_stuck (a : Analysis) (p : Pool) :
    ∃ q, Relation.ReflTransGen (Step a) p q ∧ ∀ r, ¬ Step a q r := by
  induction p using (wellFounded_step a).induction with
  | _ p ih =>
    by_cases h : ∃ q, Step a p q
    · obtain ⟨q, hstep⟩ := h
      obtain ⟨r, hr, hstuck⟩ := ih q hstep
      exact ⟨r, .head hstep hr, hstuck⟩
    · exact ⟨p, .refl, not_exists.mp h⟩

/-- The events so far are the first ones of the trace that a pool stands for. -/
lemma events_prefix_completion (p : Pool) : p.events <+: (p.completion a).events := by
  rw [completion]
  split
  · exact List.prefix_refl _
  · exact List.prefix_append _ _

end Pool

/-! ## Sessions -/

/-- A run with a pool, and what has become of the items so far, in order: which were drawn, which
were handed to the pool, and of which the results were taken from it. -/
structure Session where
  pool : Pool
  drawn : List Item := []
  submitted : List Item := []
  taken : List Item := []

namespace Session

/-- A session at the start of a run. -/
def start (a : Analysis) (draws : List Draw) : Session :=
  { pool := Pool.start a draws }

/-- The session after a step of its pool. The books are kept by comparing the two pools. -/
def after (s : Session) (q : Pool) : Session :=
  { pool := q
    drawn := s.drawn ++ drawnItems (s.pool.gone q)
    submitted := s.submitted ++ s.pool.added q
    taken := s.taken ++ s.pool.removed q }

/-- What can happen next: the pool takes a step, or the reader of the outcomes stops and so closes
the run. -/
inductive Step (a : Analysis) (s : Session) : Session → Prop where
  | go {q : Pool} : Pool.Step a s.pool q → Step a s (s.after q)
  | quit : Step a s { s with pool := { s.pool with ended := true } }

/-- The items of which all outcomes were given: those whose results were taken, except for the last
one while outcomes of it are still to be given. -/
def delivered (s : Session) : List Item :=
  if s.pool.giving = [] then s.taken else s.taken.dropLast

/-- What the books of a session over some draws say. The last line is what is to be proved; the
others are what a step needs in order to keep it. -/
structure Kept (a : Analysis) (draws : List Draw) (s : Session) : Prop where
  sound : s.pool.Sound a
  completion : s.pool.ended = false → s.pool.completion a = a.run draws
  /-- The events are those of the run, as far as it has come. -/
  events : s.pool.events <+: (a.run draws).events
  /-- What was drawn is what is gone from the draws. -/
  drawn : ∃ past, draws = past ++ s.pool.draws ∧ s.drawn = drawnItems past
  submitted : s.submitted = s.drawn
  /-- As long as the run goes on, it counts what was drawn. -/
  count : s.pool.ended = false → s.pool.state.drawn = s.drawn.length
  /-- What was drawn and not taken is pending. -/
  pending : s.pool.ended = false → s.drawn = s.taken ++ s.pool.pending.map (·.item)
  taken : s.taken <+: s.drawn
  /-- While outcomes are given, there is room for another task. -/
  room : s.pool.ended = false → s.pool.giving ≠ [] → s.pool.pending.length < a.window
  /-- What is to be given are the last outcomes of the item that was taken last. -/
  giving : s.pool.giving ≠ [] →
    ∃ others i, s.taken = others ++ [i] ∧ s.pool.giving <:+ a.outcomesOf i
  /-- What was given and is to be given are the outcomes of the items that were taken. -/
  given : s.pool.trace.outcomes ++ s.pool.giving =
    (RunTrace.mk (Pool.opening a) {}).outcomes ++ s.taken.flatMap a.outcomesOf
  ahead : s.drawn.length ≤ s.delivered.length + a.window

variable {a : Analysis} {draws : List Draw} {s : Session}

lemma kept_start (a : Analysis) (draws : List Draw) : (start a draws).Kept a draws where
  sound := Pool.start_sound a draws
  completion _ := Pool.completion_start a draws
  events := Pool.completion_start a draws ▸ Pool.events_prefix_completion _
  drawn := ⟨[], rfl, rfl⟩
  submitted := rfl
  count _ := rfl
  pending _ := rfl
  taken := List.prefix_refl _
  room _ h := absurd rfl h
  giving h := absurd rfl h
  given := by simp [start, Pool.start, Pool.trace, RunTrace.outcomes]
  ahead := Nat.zero_le _

/-- In a run that goes on, an item that was drawn is delivered, or in delivery, or pending. If one
is in delivery, fewer are pending. -/
lemma ahead_of_pending (hroom : s.pool.pending.length ≤ a.window)
    (hpending : s.drawn = s.taken ++ s.pool.pending.map (·.item))
    (hless : s.pool.giving ≠ [] → s.pool.pending.length < a.window) :
    s.drawn.length ≤ s.delivered.length + a.window := by
  have hlength : s.drawn.length = s.taken.length + s.pool.pending.length := by
    rw [hpending, List.length_append, List.length_map]
  rw [delivered]
  split
  case isTrue => omega
  case isFalse hgiving =>
    have := hless hgiving
    rw [List.length_dropLast]
    omega

/-- Nothing that was delivered ceases to be. -/
lemma length_delivered_le {t : Session} (htaken : s.taken <+: t.taken)
    (hgiving : t.pool.giving ≠ [] → s.pool.giving ≠ []) :
    s.delivered.length ≤ t.delivered.length := by
  have hlength := htaken.length_le
  rw [delivered, delivered]
  split <;> split <;> simp_all <;> omega

section Go

variable {q : Pool} (hs : s.Kept a draws) (h : Pool.Step a s.pool q)
include hs h

/-- As long as it goes on, the pool stands for the run. -/
lemma Kept.completion_go (hp : s.pool.ended = false) : q.completion a = a.run draws :=
  (h.completion_eq hs.sound).trans (hs.completion hp)

/-- The events are a first part of those of the run, and stay so after the end. -/
lemma Kept.events_go : q.events <+: (a.run draws).events := by
  cases hp : s.pool.ended with
  | false => exact hs.completion_go h hp ▸ Pool.events_prefix_completion _
  | true => exact (h.ended_of_ended hp).2 ▸ hs.events

lemma Kept.drawn_go : ∃ past, draws = past ++ q.draws ∧ (s.after q).drawn = drawnItems past := by
  obtain ⟨past, hpast, hdrawn⟩ := hs.drawn
  refine ⟨past ++ s.pool.gone q, ?_, ?_⟩
  · rw [List.append_assoc, ← h.draws_eq.1, hpast]
  · simp only [after, hdrawn, drawnItems, List.filterMap_append]

lemma Kept.pending_go (hq : q.ended = false) :
    (s.after q).drawn = (s.after q).taken ++ q.pending.map (·.item) := by
  have hp := h.live_of_live hq
  simp only [after]
  rw [hs.pending hp, ← h.draws_eq.2, List.append_assoc, h.items_eq hq, List.append_assoc]

/-- Results are taken in the order in which items were drawn. -/
lemma Kept.taken_go : (s.after q).taken <+: (s.after q).drawn := by
  cases hq : q.ended with
  | false => exact ⟨_, (hs.pending_go h hq).symm⟩
  | true =>
    simp only [after, Pool.removed, hq, if_true, List.append_nil]
    exact hs.taken.trans (List.prefix_append _ _)

lemma Kept.room_go (hq : q.ended = false) (hgiving : q.giving ≠ []) :
    q.pending.length < a.window := by
  rcases h.giving_cases hs.sound hq hgiving with ⟨hless, -⟩ | ⟨hlength, -, hbefore⟩
  · exact hless
  · rw [hlength]
    exact hs.room (h.live_of_live hq) (hbefore.ne_nil hgiving)

/-- What is to be given are the last outcomes of one item, be it one that was just taken or one that
was being delivered. -/
lemma Kept.giving_go (hgiving : q.giving ≠ []) :
    ∃ others i, (s.after q).taken = others ++ [i] ∧ q.giving <:+ a.outcomesOf i := by
  -- A step that takes no result leaves the item that was taken last.
  have hkeep : s.pool.removed q = [] → q.giving <:+ s.pool.giving →
      ∃ others i, (s.after q).taken = others ++ [i] ∧ q.giving <:+ a.outcomesOf i := by
    intro hnone hsuffix
    obtain ⟨others, i, htaken, hgiven⟩ := hs.giving (hsuffix.ne_nil hgiving)
    exact ⟨others, i, by rw [after, hnone, List.append_nil, htaken], hsuffix.trans hgiven⟩
  cases hq : q.ended with
  | true => exact hkeep (by rw [Pool.removed, hq, if_pos rfl]) (h.drawn_of_ended hq).2
  | false =>
    rcases h.giving_cases hs.sound hq hgiving with ⟨-, i, hsome, hgiven⟩ | ⟨-, hnone, hsuffix⟩
    · exact ⟨s.taken, i, by rw [after, hsome], hgiven ▸ List.suffix_refl _⟩
    · exact hkeep hnone hsuffix

/-- The number of items drawn ahead. In a run that goes on it is bounded by what is pending; a step
that ends the run draws nothing. -/
lemma Kept.ahead_go : (s.after q).drawn.length ≤ (s.after q).delivered.length + a.window := by
  cases hq : q.ended with
  | false => exact ahead_of_pending (h.sound hs.sound).room (hs.pending_go h hq) (hs.room_go h hq)
  | true =>
    obtain ⟨hnone, hgiving⟩ := h.drawn_of_ended hq
    have hmore : s.delivered.length ≤ (s.after q).delivered.length :=
      length_delivered_le (List.prefix_append _ _) hgiving.ne_nil
    have hsame : (s.after q).drawn = s.drawn := by
      simp only [after, hnone, List.append_nil]
    have hbefore := hs.ahead
    rw [hsame]
    omega

/-- A step of the pool keeps the books, one line after the other. -/
lemma Kept.go : (s.after q).Kept a draws where
  sound := h.sound hs.sound
  completion hq := hs.completion_go h (h.live_of_live hq)
  events := hs.events_go h
  drawn := hs.drawn_go h
  submitted := by simp only [after, hs.submitted, h.draws_eq.2]
  count hq := by rw [after, h.count_eq hq, hs.count (h.live_of_live hq), List.length_append]
  pending := hs.pending_go h
  taken := hs.taken_go h
  room := hs.room_go h
  giving := hs.giving_go h
  given := by rw [after, h.outcomes_eq hs.sound, hs.given, List.flatMap_append, List.append_assoc]
  ahead := hs.ahead_go h

end Go

/-- What a step keeps. -/
lemma Kept.step {t : Session} (hs : s.Kept a draws) (h : Step a s t) : t.Kept a draws := by
  cases h with
  | go h => exact hs.go h
  | quit =>
    exact
      { sound := ⟨hs.sound.room, hs.sound.faithful⟩
        completion := nofun
        events := hs.events
        drawn := hs.drawn
        submitted := hs.submitted
        count := nofun
        pending := nofun
        taken := hs.taken
        room := nofun
        giving := hs.giving
        given := hs.given
        ahead := hs.ahead }

/-- The books are kept along every session. -/
lemma kept_of_reaches (h : Relation.ReflTransGen (Step a) (start a draws) s) : s.Kept a draws := by
  induction h with
  | refl => exact kept_start a draws
  | tail _ hstep ih => exact ih.step hstep

/-- All outcomes of the items that are delivered were given, behind those that come before the first
item. While an item is in delivery, the outcomes that are still to be given are all its own. -/
lemma Kept.delivered_given (hs : s.Kept a draws) :
    (RunTrace.mk (Pool.opening a) {}).outcomes ++ s.delivered.flatMap a.outcomesOf <+:
      s.pool.trace.outcomes := by
  have hgiven := hs.given
  rw [delivered]
  split
  case isTrue hnone =>
    rw [hnone, List.append_nil] at hgiven
    exact hgiven ▸ List.prefix_refl _
  case isFalse hsome =>
    obtain ⟨others, i, htaken, part, hpart⟩ := hs.giving hsome
    rw [htaken, List.flatMap_append, List.flatMap_singleton, ← hpart, ← List.append_assoc,
      ← List.append_assoc] at hgiven
    rw [htaken, List.dropLast_concat, List.append_cancel_right hgiven]
    exact List.prefix_append _ _

lemma Kept.delivered_prefix (hs : s.Kept a draws) : s.delivered <+: s.drawn := by
  rw [delivered]
  split
  · exact hs.taken
  · exact (List.dropLast_prefix _).trans hs.taken

lemma window_le (a : Analysis) : a.window ≤ 2 * max 1 a.jobs.toNat := by
  unfold Analysis.window Analysis.workers
  split <;> omega

/-- Without workers to share them, items are drawn one at a time. -/
lemma window_of_jobs_le (h : a.jobs ≤ 1) : a.window = 1 := by
  have hworkers : a.workers = 1 := by
    unfold Analysis.workers
    omega
  rw [Analysis.window, if_pos hworkers]

/-! ## The pace of a run

What holds of sessions is told of the run itself by its events, each of which has the number of
items drawn by then. -/

/-- With these outcomes given, some of the first items are delivered, and of so many that were drawn
only few are not. -/
def Covered (a : Analysis) (draws : List Draw) (given : List Outcome) (drawn : Nat) : Prop :=
  ∃ done, done <+: drawnItems draws ∧ drawn ≤ done.length + a.window ∧
    (done ≠ [] → (RunTrace.mk (Pool.opening a) {}).outcomes ++ done.flatMap a.outcomesOf <+: given)

/-- Whenever an outcome is given, few items were drawn that are not delivered. -/
def Paced (a : Analysis) (draws : List Draw) (events : List (RunEvent × RunState)) : Prop :=
  ∀ before o state after, events = before ++ (.outcome o, state) :: after →
    Covered a draws (RunTrace.mk (before ++ [(.outcome o, state)]) state).outcomes state.drawn

/-- Events keep the pace if those in front do and each outcome among the new ones is covered by what
was given up to it. -/
lemma Paced.append {events new : List (RunEvent × RunState)} (h : Paced a draws events)
    (hnew : ∀ before o state after, new = before ++ (.outcome o, state) :: after →
      Covered a draws (RunTrace.mk (events ++ before ++ [(.outcome o, state)]) state).outcomes
        state.drawn) :
    Paced a draws (events ++ new) := by
  intro before o state after heq
  rcases List.append_eq_append_iff.mp heq with ⟨more, rfl, hsplit⟩ | ⟨rest, hbefore, hsplit⟩
  · exact hnew more o state after hsplit
  rcases List.cons_eq_append_iff.mp hsplit with ⟨rfl, hall⟩ | ⟨rest, rfl, -⟩
  · rw [List.append_nil] at hbefore
    have hfirst := hnew [] o state after hall
    rwa [List.append_nil, hbefore] at hfirst
  · exact h before o state rest hbefore

/-- An event that gives no outcome changes nothing. -/
lemma Paced.silent {events : List (RunEvent × RunState)} (h : Paced a draws events)
    {event : RunEvent} (hevent : ∀ o, event ≠ .outcome o) (state : RunState) :
    Paced a draws (events ++ [(event, state)]) := by
  refine h.append fun before o st after heq => ?_
  have hmem : (RunEvent.outcome o, st) ∈ [(event, state)] :=
    heq ▸ List.mem_append_right _ (List.mem_cons_self ..)
  exact absurd (congrArg Prod.fst (List.mem_singleton.mp hmem)).symm (hevent o)

/-- An outcome keeps the pace if what was given with it covers what was drawn. -/
lemma Paced.outcome {events : List (RunEvent × RunState)} (h : Paced a draws events) {o : Outcome}
    {state : RunState}
    (hcovered :
      Covered a draws (RunTrace.mk (events ++ [(.outcome o, state)]) state).outcomes state.drawn) :
    Paced a draws (events ++ [(.outcome o, state)]) := by
  refine h.append fun before o' st after heq => ?_
  rcases List.singleton_eq_append_iff.mp heq with ⟨rfl, hlast⟩ | ⟨-, hnone⟩
  · obtain ⟨⟨rfl⟩, rfl⟩ := Prod.mk.inj (List.cons.inj hlast).1
    rwa [List.append_nil]
  · cases hnone

/-- Before the first item is drawn there is nothing to cover. -/
lemma paced_opening (a : Analysis) (draws : List Draw) : Paced a draws (Pool.opening a) := by
  intro before o state after heq
  have hmem : (RunEvent.outcome o, state) ∈ Pool.opening a :=
    heq ▸ List.mem_append_right _ (List.mem_cons_self ..)
  obtain ⟨event, -, hevent⟩ := List.mem_map.mp hmem
  obtain ⟨-, rfl⟩ := Prod.mk.inj hevent
  exact ⟨[], List.nil_prefix, Nat.zero_le _, fun h => absurd rfl h⟩

/-- What was given covers what was drawn, by the books. -/
lemma Kept.covered (hs : s.Kept a draws) :
    Covered a draws s.pool.trace.outcomes s.drawn.length := by
  obtain ⟨past, hdraws, hdrawn⟩ := hs.drawn
  have hfirst : s.drawn <+: drawnItems draws := by
    rw [hdraws, hdrawn, drawnItems, drawnItems, List.filterMap_append]
    exact List.prefix_append ..
  exact ⟨s.delivered, hs.delivered_prefix.trans hfirst, hs.ahead, fun _ => hs.delivered_given⟩

/-- A step keeps the pace: it gives no outcome, or gives one without drawing, so that the books
after it apply. -/
lemma Kept.paced_go {q : Pool} (hs : s.Kept a draws) (h : Pool.Step a s.pool q)
    (hp : Paced a draws s.pool.events) :
    Paced a draws q.events := by
  have hcovered := (hs.go h).covered
  -- An outcome is given without drawing.
  have hdrawn : s.pool.ended = false → q.draws = s.pool.draws →
      (s.after q).drawn.length = s.pool.state.drawn := by
    intro hended hdraws
    rw [hs.count hended, after, Pool.gone, hdraws]
    simp [drawnItems]
  cases h with
  | launch | finish | cancel | submit | take | close => exact hp
  | log | break_ | fail => exact hp.silent (fun _ h => by cases h) _
  | give hended =>
    rw [hdrawn hended rfl] at hcovered
    exact hp.outcome hcovered
  | @stop o outcomes hended =>
    rw [hdrawn hended rfl] at hcovered
    have hgiven : Paced a draws (s.pool.events ++ [(.outcome o, s.pool.state)]) := by
      refine hp.outcome ?_
      simpa [after, Pool.trace, RunTrace.outcomes] using hcovered
    have hentry :
        ∀ o', RunEvent.entry (Analysis.stopEntry (s.pool.state.issues + 1)) ≠ .outcome o' :=
      fun _ h => by cases h
    have hboth := hgiven.silent hentry { s.pool.state with issues := s.pool.state.issues + 1 }
    rw [List.append_assoc] at hboth
    exact hboth

lemma paced_of_reaches (h : Relation.ReflTransGen (Step a) (start a draws) s) :
    Paced a draws s.pool.events := by
  induction h with
  | refl => exact paced_opening a draws
  | tail hbefore hstep ih =>
    cases hstep with
    | go h => exact (kept_of_reaches hbefore).paced_go h ih
    | quit => exact ih

/-- Every schedule of the pool is one of a session, as keeping books hinders no step. -/
lemma exists_session {p : Pool} (h : Relation.ReflTransGen (Pool.Step a) (Pool.start a draws) p) :
    ∃ s : Session, Relation.ReflTransGen (Step a) (start a draws) s ∧ s.pool = p := by
  induction h with
  | refl => exact ⟨start a draws, .refl, rfl⟩
  | @tail p q _ hstep ih =>
    obtain ⟨s, hs, rfl⟩ := ih
    exact ⟨s.after q, hs.tail (.go hstep), rfl⟩

/-- The run itself keeps the pace: some schedule ends in its trace, and sessions keep the pace. -/
lemma paced_run (a : Analysis) (draws : List Draw) : Paced a draws (a.run draws).events := by
  obtain ⟨p, hp, hstuck⟩ := Pool.exists_stuck a (Pool.start a draws)
  obtain ⟨s, hs, rfl⟩ := exists_session hp
  have hpaced := paced_of_reaches hs
  have hevents : s.pool.events = (a.run draws).events :=
    congrArg RunTrace.events (Pool.trace_eq_of_stuck hp hstuck)
  rwa [hevents] at hpaced

/-- **Items are drawn when they are needed.** The window is at most twice the number of workers, and
one if there are no workers to share the items. At every time, whatever the workers have done and
whether or not the reader has stopped, no more items were drawn that are not delivered than the
window; the items that were drawn are the first ones, and each was submitted once and in that order.
So it is whenever the run gives an outcome. -/
theorem drawn_le_delivered (a : Analysis) (draws : List Draw) :
    a.window ≤ 2 * max 1 a.jobs.toNat ∧ (a.jobs ≤ 1 → a.window = 1) ∧
      (∀ s, Relation.ReflTransGen (Step a) (start a draws) s →
        s.drawn.length ≤ s.delivered.length + a.window ∧
        (∃ past, draws = past ++ s.pool.draws ∧ s.drawn = drawnItems past) ∧
        s.submitted = s.drawn ∧
        s.delivered <+: s.drawn ∧
        (RunTrace.mk (Pool.opening a) {}).outcomes ++ s.delivered.flatMap a.outcomesOf <+:
          s.pool.trace.outcomes ∧
        s.pool.events <+: (a.run draws).events ∧
        (s.pool.ended = false → s.pool.state.drawn = s.drawn.length)) ∧
      Paced a draws (a.run draws).events := by
  refine ⟨window_le a, window_of_jobs_le, fun s h => ?_, paced_run a draws⟩
  have hs := kept_of_reaches h
  exact ⟨hs.ahead, hs.drawn, hs.submitted, hs.delivered_prefix, hs.delivered_given,
    hs.events, hs.count⟩

/-- Five files that cannot be loaded. -/
def unreadables : List Item :=
  ["A.java", "B.java", "C.java", "D.java", "E.java"].map Pool.unreadable

/-- Two workers whose reader stops after the outcome of the first file. The second file was analysed
before the first, and the fifth was drawn after the first was delivered. -/
def left : Session :=
  { pool :=
      { draws := [.item (Pool.unreadable "F.java")]
        pending := ⟨Pool.unreadable "B.java", .done (ofItem [] (Pool.unreadable "B.java"))⟩ ::
          (unreadables.drop 2).map (⟨·, .queued⟩)
        state := { drawn := 5 }
        events := [(.entry Analysis.noRulesEntry, {}),
          (.outcome (.scriptError "A.java" (.fatal "unreadable")), { drawn := 4 })]
        ended := true }
    drawn := unreadables
    submitted := unreadables
    taken := unreadables.take 1 }

/-- Four items are drawn, the second and then the first are analysed, the first is given, a fifth is
drawn, and the reader stops. -/
lemma reaches_left :
    Relation.ReflTransGen (Step { rules := [], jobs := 2 })
      (start { rules := [], jobs := 2 } ((unreadables ++ [Pool.unreadable "F.java"]).map .item))
      left := by
  refine .head (.go (.submit rfl rfl (by decide) rfl))
    (.head (.go (.submit rfl rfl (by decide) rfl)) ?_)
  refine .head (.go (.submit rfl rfl (by decide) rfl))
    (.head (.go (.submit rfl rfl (by decide) rfl)) ?_)
  refine .head (.go (@Pool.Step.launch _ _ [⟨Pool.unreadable "A.java", .queued⟩] _
    (Pool.unreadable "B.java") (by decide) rfl)) ?_
  refine .head (.go (@Pool.Step.finish _ _ [⟨Pool.unreadable "A.java", .queued⟩] _
    (Pool.unreadable "B.java") rfl)) ?_
  refine .head (.go (@Pool.Step.launch _ _ [] _ (Pool.unreadable "A.java") (by decide) rfl)) ?_
  refine .head (.go (@Pool.Step.finish _ _ [] _ (Pool.unreadable "A.java") rfl)) ?_
  refine .head (.go (.take rfl rfl (.inl (by decide)) rfl)) (.head (.go (.give rfl rfl rfl)) ?_)
  refine .head (.go (.submit rfl rfl (by decide) rfl)) (.head .quit ?_)
  exact .refl

/-- A run without workers that has drawn its first item. -/
def alone : Session :=
  { pool :=
      { draws := [.item (Pool.unreadable "B.java")]
        pending := [⟨Pool.unreadable "A.java", .queued⟩]
        state := { drawn := 1 }
        events := [(.entry Analysis.noRulesEntry, {})] }
    drawn := [Pool.unreadable "A.java"]
    submitted := [Pool.unreadable "A.java"] }

lemma reaches_alone :
    Relation.ReflTransGen (Step { rules := [], jobs := 0 })
      (start { rules := [], jobs := 0 }
        ([Pool.unreadable "A.java", Pool.unreadable "B.java"].map .item)) alone :=
  .head (.go (.submit rfl rfl (by decide) rfl)) .refl

theorem drawn_le_delivered_left :
    left.drawn.length = 5 ∧ left.delivered.length = 1 ∧
      left.drawn.length ≤ left.delivered.length + 4 ∧
      left.submitted = left.drawn ∧ alone.drawn.length = 1 ∧
      alone.drawn.length ≤ alone.delivered.length + 1 := by
  have hleft := (drawn_le_delivered _ _).2.2.1 left reaches_left
  have halone := (drawn_le_delivered _ _).2.2.1 alone reaches_alone
  exact ⟨rfl, rfl, hleft.1, hleft.2.2.1, rfl, halone.1⟩

end Session

end ShapeLint
