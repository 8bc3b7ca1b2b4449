import ShapeLint.Rule.Basic
import ShapeLint.Script

/-!
# Analysis

An analysis applies rules to items, one item after another, and gives outcomes: the rules that did
not compile first, then for each item its error or its issues, in the order of the visited nodes
and, at one node, of the rules. With several workers, items are asked for ahead of the one whose
outcomes are given, but the outcomes are the same. A run can be limited to a number of issues.

`Analysis.run` gives all that happens in a run, each event with the state of the run at that time,
so that the state at the moment when a reader stops is the state beside the last event it has read.
-/

namespace ShapeLint

/-- What an analysis finds: that a rule flags a node of a script, that a script could not be loaded,
or that a rule does not compile and is not applied. -/
inductive Outcome where
  | issue (script : Script) (rule : Rule) (visit : Visit)
  | scriptError (path : String) (fault : Fault)
  | ruleError (id : String) (fault : Fault)
deriving Inhabited

namespace Outcome

/-- Whether an outcome is an issue. -/
def isIssue : Outcome → Bool
  | issue _ _ _ => true
  | _ => false

end Outcome

/-- Why a run breaks off: because of an unexpected failure, or because a script could not be loaded
and not because it is wrong. -/
inductive RunFailure where
  | fatal (fault : Fault)
  | broken (failure : Java.ParseFailure)
deriving Inhabited

/-- The failure of a run in which a script could not be matched. Both ways are failures of the
linter itself, not of the script. -/
def MatchFailure.toFault (path : String) : MatchFailure → Fault
  | .tooDeep =>
    .fatal ("internal error while analyzing " ++ path ++ ": the pattern is nested too deeply")
  | .untestable name => .fatal ("no matcher registered for " ++ name)

/-- What is analysed, and how: the rules in order, the ids of the rules that did not compile with
the reasons, after how many issues the run ends, and how many workers there are. -/
structure Analysis where
  rules : List Rule
  ruleErrors : List (String × Fault) := []
  maxIssues : Option Int := none
  jobs : Int := 1
deriving Inhabited

/-- The state of a run: how many issues were given and counted, whether the run ended because of its
limit, and how many items were asked for. -/
structure RunState where
  /-- An issue is counted when the next outcome is asked for, so the one that was given last is not
  in yet. -/
  issues : Nat := 0
  truncated : Bool := false
  drawn : Nat := 0
deriving DecidableEq, Inhabited

/-- What happens in a run: an entry is written to the log, an outcome is given, or the run breaks
off. -/
inductive RunEvent where
  | entry (e : LogEntry)
  | outcome (o : Outcome)
  | failed (failure : RunFailure)
deriving Inhabited

/-- All that happens in a run, each event with the state at that time, and the state at the end.
They differ where a run ends because of its limit. -/
structure RunTrace where
  events : List (RunEvent × RunState)
  final : RunState
deriving Inhabited

namespace RunTrace

/-- A trace with an event in front. -/
def push (t : RunTrace) (event : RunEvent) (state : RunState) : RunTrace :=
  { t with events := (event, state) :: t.events }

/-- The outcomes, in order. -/
def outcomes (t : RunTrace) : List Outcome :=
  t.events.filterMap fun (event, _) =>
    match event with
    | .outcome o => some o
    | _ => none

/-- Why the run broke off, if it did. -/
def failure? (t : RunTrace) : Option RunFailure :=
  t.events.findSome? fun (event, _) =>
    match event with
    | .failed failure => some failure
    | _ => none

end RunTrace

namespace Analysis

/-- The analysis restricted to the rules with an id. Rules with that id that did not compile stay
reported. -/
def restrict (a : Analysis) (id : String) : Analysis :=
  { a with rules := a.rules.filter (·.id == id), ruleErrors := a.ruleErrors.filter (·.1 == id) }

/-- The number of workers, which is at least one. -/
def workers (a : Analysis) : Nat :=
  max 1 a.jobs.toNat

/-- How many items are asked for before the outcomes of the first of them are given. A single worker
asks for no item ahead. -/
def window (a : Analysis) : Nat :=
  if a.workers = 1 then 1 else 2 * a.workers

/-! ## One script -/

/-- The issues at a visited node, in the order of the rules. A rule that cannot be tested ends the
search, and no issue at the node is given then. -/
def issuesAt (script : Script) (visit : Visit) : List Rule → Except MatchFailure (List Outcome)
  | [] => .ok []
  | rule :: rules =>
    match rule.applies visit with
    | .error e => .error e
    | .ok flagged =>
      match issuesAt script visit rules with
      | .error e => .error e
      | .ok others => .ok (if flagged then .issue script rule visit :: others else others)

/-- The issues at several visited nodes. One node at which a rule cannot be tested takes the issues
at all of them away. -/
def issuesIn (script : Script) (rules : List Rule) : List Visit → Except MatchFailure (List Outcome)
  | [] => .ok []
  | visit :: visits =>
    match issuesAt script visit rules with
    | .error e => .error e
    | .ok found =>
      match issuesIn script rules visits with
      | .error e => .error e
      | .ok others => .ok (found ++ others)

/-- The outcomes of an item. All of them are there before the first is given. -/
def ofItem (rules : List Rule) : Item → Except Fault (List Outcome)
  | .failed path fault => .ok [.scriptError path fault]
  | .script script =>
    match script.root? with
    | none =>
      .error (.fatal
        ("internal error while analyzing " ++ script.path ++ ": the script has no tree"))
    | some root => (issuesIn script rules root.visits).mapError (·.toFault script.path)

/-! ## All items -/

/-- A step of a run before outcomes are counted: an entry is written to the log, an item is asked
for, the outcomes of an item are there, or loading breaks off. -/
inductive Step where
  | entry (e : LogEntry)
  | draw
  | found (result : Except Fault (List Outcome))
  | broken (failure : Java.ParseFailure)
deriving Inhabited

/-- The steps over the draws that are left, with the items that were asked for and whose outcomes
were not given yet. A new item waits behind these; if the window is full then, the outcomes of the
first are due. Where loading breaks off, the outcomes that wait are never given. -/
def steps (a : Analysis) (waiting : List Item) : List Draw → List Step
  | [] => waiting.map fun i => .found (ofItem a.rules i)
  | .entry e :: draws => .entry e :: steps a waiting draws
  | .broken failure :: _ => [.draw, .broken failure]
  | .item i :: draws =>
    match waiting ++ [i] with
    | [] => steps a [] draws
    | first :: others =>
      if a.window ≤ others.length + 1
        then .draw :: .found (ofItem a.rules first) :: steps a others draws
      else .draw :: steps a (first :: others) draws

/-! ## Counting issues -/

/-- Whether a number of issues reaches the limit. A limit of zero or less is reached from the
start. -/
def isLimit (a : Analysis) (issues : Nat) : Bool :=
  match a.maxIssues with
  | some limit => limit ≤ issues
  | none => false

/-- The entry for a run that reaches its limit. -/
def stopEntry (issues : Nat) : LogEntry :=
  ⟨.info, .analysis, "stopping after " ++ toString issues ++ " issues"⟩

/-- The end of a run that has reached its limit. -/
def stopped (state : RunState) : RunTrace :=
  { events := [(.entry (stopEntry state.issues), state)],
    final := { state with truncated := true } }

/-- Gives outcomes one by one, counts the issues among them, and goes on unless the limit is
reached. An outcome is given in the state before it is counted. -/
def deliver (a : Analysis) (next : RunState → RunTrace) : List Outcome → RunState → RunTrace
  | [], state => next state
  | o :: os, state =>
    let after := if o.isIssue then { state with issues := state.issues + 1 } else state
    (if o.isIssue && a.isLimit after.issues then stopped after else deliver a next os after).push
      (.outcome o) state

/-- The trace of steps from a state on. -/
def follow (a : Analysis) : List Step → RunState → RunTrace
  | [], state => { events := [], final := state }
  | .entry e :: steps, state => (follow a steps state).push (.entry e) state
  | .draw :: steps, state => follow a steps { state with drawn := state.drawn + 1 }
  | .broken failure :: _, state =>
    { events := [(.failed (.broken failure), state)], final := state }
  | .found (.error fault) :: _, state =>
    { events := [(.failed (.fatal fault), state)], final := state }
  | .found (.ok outcomes) :: steps, state => deliver a (follow a steps) outcomes state

/-- The part of a run that deals with items. -/
def runItems (a : Analysis) (draws : List Draw) : RunTrace :=
  if a.isLimit 0 then { events := [], final := { truncated := true } }
  else a.follow (a.steps [] draws) {}

/-- The entry for a run without rules. -/
def noRulesEntry : LogEntry :=
  ⟨.warning, .analysis, "no rules to apply"⟩

/-- A run over the items that are drawn. The rules that did not compile come first and do not
count. -/
def run (a : Analysis) (draws : List Draw) : RunTrace :=
  let items := a.runItems draws
  let errors := a.ruleErrors.map fun (id, fault) => RunEvent.outcome (.ruleError id fault)
  let warnings := if a.rules.isEmpty then [RunEvent.entry noRulesEntry] else []
  { items with events := (errors ++ warnings).map (·, ({} : RunState)) ++ items.events }

end Analysis

end ShapeLint
