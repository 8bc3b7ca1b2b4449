import Mathlib.Logic.Basic
import ShapeLint.Cli.Run
import ShapeLint.Proofs.Files

/-!
# A check accounts for itself

A check that reports as a document writes one document, and the document tells how the check ended:
with a configuration that could not be loaded, with what broke the analysis off, or with all
outcomes of the analysis. The one exception is a check that is asked for a rule that is not there:
it tells the log, and writes nothing.

`Told` is what the report and the tally are after a number of outcomes, and `tell_json` keeps it
outcome by outcome. What a run does with its report is then read off for each of its ends.
-/

namespace ShapeLint

namespace Report

/-! ## Documents -/

/-- A field of a document, the first one with its key. -/
def Json.field? (key : String) : Json → Option Json
  | .obj fields => fields.lookup key
  | _ => none

/-- An issue as it stands in a document. -/
def issueJson? : Outcome → Option Json
  | .issue script rule visit => some (issueJson script rule visit)
  | _ => none

/-- A script that could not be loaded as it stands in a document. -/
def scriptErrorJson? : Outcome → Option Json
  | .scriptError path fault =>
    some (.obj [("path", .str path), ("error", (Problem.fault fault).json)])
  | _ => none

/-- A rule that does not compile as it stands in a document. -/
def ruleErrorJson? : Outcome → Option Json
  | .ruleError id fault => some (.obj [("rule", .str id), ("error", (Problem.fault fault).json)])
  | _ => none

/-- The document for outcomes: three lists, in each of which they stand in order. -/
def outcomesJson (outcomes : List Outcome) : Json :=
  .obj [("issues", .arr (outcomes.filterMap issueJson?)),
    ("errors", .arr (outcomes.filterMap scriptErrorJson?)),
    ("rule_errors", .arr (outcomes.filterMap ruleErrorJson?))]

/-- The report in the form of a document that was told of outcomes, and has printed nothing. -/
def toldOf (outcomes : List Outcome) : Report :=
  { format := .json
    issues := outcomes.filterMap issueJson?
    scriptErrors := outcomes.filterMap scriptErrorJson?
    ruleErrors := outcomes.filterMap ruleErrorJson? }

/-- One more outcome is added to its list, and nothing is written. -/
lemma outcome_toldOf (outcomes : List Outcome) (o : Outcome) :
    (toldOf outcomes).outcome o = (toldOf (outcomes ++ [o]), {}) := by
  cases o <;> simp [toldOf, outcome, List.filterMap_append, issueJson?, scriptErrorJson?,
    ruleErrorJson?]

lemma finish_toldOf (outcomes : List Outcome) :
    (toldOf outcomes).finish.out = (outcomesJson outcomes).render ++ "\n" :=
  rfl

/-- The document for what broke an analysis off. -/
def fatalJson (p : Problem) : Json :=
  .obj [("fatal_error", .obj [("message", .str p.text), p.trailField])]

lemma out_fatal_toldOf (outcomes : List Outcome) (p : Problem) :
    ((toldOf outcomes).fatal p).2.out = "" :=
  rfl

lemma finish_fatal_toldOf (outcomes : List Outcome) (p : Problem) :
    ((toldOf outcomes).fatal p).1.finish.out = (fatalJson p).render ++ "\n" :=
  rfl

/-- The document for a configuration that could not be loaded. -/
def configJson (path : String) (p : Problem) : Json :=
  .obj [("config_errors", .arr [.obj [("path", .str path), ("error", p.json)]])]

lemma finish_configError (path : String) (p : Problem) :
    (({ format := .json } : Report).configError path p).1.finish.out =
      (configJson path p).render ++ "\n" :=
  rfl

/-- The list of issues in a document is empty exactly if no outcome is an issue. -/
lemma issues_eq_nil_iff {outcomes : List Outcome} :
    outcomes.filter (·.isIssue) = [] ↔ outcomes.filterMap issueJson? = [] := by
  rw [List.filterMap_eq_nil_iff, List.filter_eq_nil_iff]
  refine forall₂_congr fun o _ => ?_
  cases o <;> simp [issueJson?, Outcome.isIssue]

/-- All other outcomes stand in one of the two other lists. -/
lemma errors_eq_nil_iff {outcomes : List Outcome} :
    outcomes.filter (fun o => !o.isIssue) = [] ↔
      outcomes.filterMap scriptErrorJson? = [] ∧ outcomes.filterMap ruleErrorJson? = [] := by
  rw [List.filterMap_eq_nil_iff, List.filterMap_eq_nil_iff, List.filter_eq_nil_iff, ← forall₂_and]
  refine forall₂_congr fun o _ => ?_
  cases o <;> simp [scriptErrorJson?, ruleErrorJson?, Outcome.isIssue]

end Report

namespace Cli

open Files (FileSystem Path)
open Report (Json configJson fatalJson issueJson? outcomesJson ruleErrorJson?
  scriptErrorJson? toldOf)

/-! ## Telling a report -/

/-- The number of issues and of other outcomes. -/
def tallyOf (outcomes : List Outcome) : Tally :=
  { issues := (outcomes.filter (·.isIssue)).length,
    errors := (outcomes.filter fun o => !o.isIssue).length }

lemma count_tallyOf (outcomes : List Outcome) (o : Outcome) :
    (tallyOf outcomes).count o = tallyOf (outcomes ++ [o]) := by
  cases o <;> simp [tallyOf, Tally.count, Outcome.isIssue, List.filter_append]

/-- Nothing is printed. -/
def Quiet (effects : List Effect) : Prop :=
  ∀ text, .out text ∉ effects

lemma quiet_entries (log : List LogEntry) : Quiet (log.map .entry) := by
  simp [Quiet]

lemma Quiet.append {effects others : List Effect} (h : Quiet effects) (hothers : Quiet others) :
    Quiet (effects ++ others) := by
  intro text hmem
  exact (List.mem_append.1 hmem).elim (h text) (hothers text)

/-- A report in the form of a document and a tally that were told of outcomes, without a text being
printed. -/
structure Told (outcomes : List Outcome) (t : Telling) : Prop where
  report : t.report = toldOf outcomes
  tally : t.tally = tallyOf outcomes
  quiet : Quiet t.effects

/-- The outcomes in front of what breaks an analysis off; all of them if nothing does. -/
def toldOutcomes : List RunEvent → List Outcome
  | [] => []
  | .entry _ :: events => toldOutcomes events
  | .outcome o :: events => o :: toldOutcomes events
  | .failed _ :: _ => []

/-- What breaks an analysis off. -/
def toldFailure? : List RunEvent → Option RunFailure
  | [] => none
  | .entry _ :: events | .outcome _ :: events => toldFailure? events
  | .failed failure :: _ => some failure

/-- Telling events keeps what is known of report and tally, outcome by outcome. -/
lemma Told.tell {outcomes : List Outcome} {t : Telling} (h : Told outcomes t)
    (events : List RunEvent) :
    Told (outcomes ++ toldOutcomes events) (tell events t) := by
  induction events generalizing outcomes t with
  | nil => rwa [toldOutcomes, List.append_nil]
  | cons event events ih =>
    cases event with
    -- The log is no part of what is printed as the report.
    | entry e =>
      exact ih ⟨h.report, h.tally, h.quiet.append (by simp [Quiet])⟩
    | outcome o =>
      have hstep : Told (outcomes ++ [o]) { t with
          report := (t.report.outcome o).1
          effects := t.effects ++ effectsOf (t.report.outcome o).2
          tally := t.tally.count o } := by
        rw [h.report, h.tally, Report.outcome_toldOf, count_tallyOf]
        exact ⟨rfl, rfl, by simpa [effectsOf] using h.quiet⟩
      have hrest := ih hstep
      rwa [List.append_assoc, List.singleton_append] at hrest
    | failed failure =>
      rw [toldOutcomes, List.append_nil]
      exact ⟨h.report, h.tally, h.quiet⟩

/-- The failure that is kept is the first one among the events. -/
lemma failure?_tell (events : List RunEvent) (t : Telling) (h : t.failure? = none) :
    (tell events t).failure? = toldFailure? events := by
  induction events generalizing t with
  | nil => exact h
  | cons event events ih =>
    cases event with
    | entry e => exact ih _ h
    | outcome o => exact ih _ h
    | failed failure => rfl

lemma toldFailure?_eq (trace : RunTrace) :
    toldFailure? (trace.events.map (·.1)) = trace.failure? := by
  rw [RunTrace.failure?]
  induction trace.events with
  | nil => rfl
  | cons event events ih =>
    obtain ⟨event, state⟩ := event
    cases event with
    | entry e => simpa [toldFailure?] using ih
    | outcome o => simpa [toldFailure?] using ih
    | failed failure => simp [toldFailure?]

/-- If nothing breaks the analysis off, all its outcomes are told. -/
lemma toldOutcomes_eq (trace : RunTrace) (h : trace.failure? = none) :
    toldOutcomes (trace.events.map (·.1)) = trace.outcomes := by
  rw [RunTrace.failure?] at h
  rw [RunTrace.outcomes]
  generalize trace.events = events at h ⊢
  induction events with
  | nil => rfl
  | cons event events ih =>
    obtain ⟨event, state⟩ := event
    cases event with
    | entry e => simpa [toldOutcomes] using ih (by simpa using h)
    | outcome o => simpa [toldOutcomes] using ih (by simpa using h)
    | failed failure => simp at h

/-! ## What is printed -/

/-- The text that effects print. -/
def printed (effects : List Effect) : String :=
  String.join (effects.map fun
    | .out text => text
    | _ => "")

lemma printed_append (effects others : List Effect) :
    printed (effects ++ others) = printed effects ++ printed others := by
  simp [printed, String.join_append]

lemma Quiet.printed {effects : List Effect} (h : Quiet effects) : printed effects = "" := by
  induction effects with
  | nil => rfl
  | cons e effects ih =>
    have hrest : Cli.printed effects = "" :=
      ih fun text hmem => h text (List.mem_cons_of_mem _ hmem)
    have hcons : Cli.printed (e :: effects) = Cli.printed [e] ++ Cli.printed effects :=
      printed_append [e] effects
    rw [hcons, hrest]
    cases e with
    | out text => exact absurd (List.mem_cons_self ..) (h text)
    | _ => rfl

/-- Writing to both outputs prints what is written to the first. -/
lemma printed_effectsOf (w : Report.Writing) : printed (effectsOf w) = w.out := by
  rw [effectsOf]
  by_cases hout : w.out = "" <;> by_cases herr : w.err = "" <;>
    simp [hout, herr, printed, String.join]

/-! ## How a check ends -/

/-- The configuration that a check asks for. -/
def loaded (fs : FileSystem) (o : CheckOptions) : Except ConfigProblem Config :=
  (Config.load fs (Path.ofString o.config) ((o.root?.filter (· != "")).map Path.ofString)).2

/-- The analysis that a check runs. -/
def traceOf (fs : FileSystem) (o : CheckOptions) (c : Config) : RunTrace :=
  (checkAnalysis c o).run ((checkSelection c o).draws fs)

/-- A check is asked for a rule that its configuration does not have, compiled or not. The
configuration must be there for that. -/
def AsksUnknown (fs : FileSystem) (o : CheckOptions) : Prop :=
  ∃ c id, loaded fs o = .ok c ∧ o.rule? = some id ∧ (∀ rule ∈ c.rules, rule.id ≠ id) ∧
    ∀ e ∈ c.ruleErrors, e.1 ≠ id

/-- A document accounts for how a check ends. It has a field for a configuration that could not be
loaded exactly if the status says so; a field for what broke the analysis off only with the status
of an error; and else it lists all outcomes of an analysis that came to its end, and the status
follows from whether there are issues or errors. -/
structure Accounts (fs : FileSystem) (o : CheckOptions) (j : Json) (status : Status) : Prop where
  config : (j.field? "config_errors").isSome ↔ status.code ∈ [3, 4, 5, 6]
  fatal : (j.field? "fatal_error").isSome → status.code = 1
  outcomes : j.field? "config_errors" = none → j.field? "fatal_error" = none →
    ∃ c, loaded fs o = .ok c ∧ (traceOf fs o c).failure? = none ∧ ∃ issues errors ruleErrors,
      issues = (traceOf fs o c).outcomes.filterMap issueJson? ∧
      errors = (traceOf fs o c).outcomes.filterMap scriptErrorJson? ∧
      ruleErrors = (traceOf fs o c).outcomes.filterMap ruleErrorJson? ∧
      j = .obj [("issues", .arr issues), ("errors", .arr errors),
        ("rule_errors", .arr ruleErrors)] ∧
      status.code = if issues ≠ [] then 2 else if errors ≠ [] ∨ ruleErrors ≠ [] then 1 else 0

/-- The document for a configuration that could not be loaded accounts for it, whatever the
reason. -/
lemma accounts_config (fs : FileSystem) (o : CheckOptions) (failure : ConfigFailure)
    (errors : Json) :
    Accounts fs o (.obj [("config_errors", errors)]) (.config failure) where
  config := by cases failure <;> simp [Json.field?, Status.code]
  fatal := by simp [Json.field?]
  outcomes := by simp [Json.field?]

lemma accounts_fatal (fs : FileSystem) (o : CheckOptions) (problem : Json) :
    Accounts fs o (.obj [("fatal_error", problem)]) .error where
  config := by simp [Json.field?, Status.code]
  fatal := by simp [Status.code]
  outcomes := by simp [Json.field?]

/-- The status of an analysis can be told from its document: issues come before errors. -/
lemma code_checkStatus (outcomes : List Outcome) :
    (checkStatus (tallyOf outcomes)).code =
      if outcomes.filterMap issueJson? ≠ [] then 2
      else if outcomes.filterMap scriptErrorJson? ≠ [] ∨ outcomes.filterMap ruleErrorJson? ≠ [] then
        1
      else 0 := by
  have hissues : 0 < (tallyOf outcomes).issues ↔ outcomes.filterMap issueJson? ≠ [] := by
    rw [Ne, ← Report.issues_eq_nil_iff, tallyOf, List.length_pos_iff]
  have herrors : 0 < (tallyOf outcomes).errors ↔
      outcomes.filterMap scriptErrorJson? ≠ [] ∨ outcomes.filterMap ruleErrorJson? ≠ [] := by
    rw [← not_and_or, ← Report.errors_eq_nil_iff, tallyOf, List.length_pos_iff]
  simp only [checkStatus, hissues, herrors]
  split
  · rfl
  · split <;> rfl

/-- The document of an analysis that came to its end accounts for it. -/
lemma accounts_outcomes {fs : FileSystem} {o : CheckOptions} {c : Config} (hc : loaded fs o = .ok c)
    (h : (traceOf fs o c).failure? = none) :
    Accounts fs o (outcomesJson (traceOf fs o c).outcomes)
      (checkStatus (tallyOf (traceOf fs o c).outcomes)) where
  config := by
    have hcode : (checkStatus (tallyOf (traceOf fs o c).outcomes)).code ≤ 2 := by
      rw [checkStatus]
      split
      · decide
      · split <;> decide
    refine iff_of_false (by simp [Json.field?, outcomesJson]) fun hmem => ?_
    simp only [List.mem_cons, List.not_mem_nil, or_false] at hmem
    omega
  fatal := by simp [Json.field?, outcomesJson]
  outcomes := fun _ _ => ⟨c, hc, h, _, _, _, rfl, rfl, rfl, rfl, code_checkStatus _⟩

/-- What a check that reports as a document comes to, before its report goes where it is asked to
go: it breaks off, it is asked for an unknown rule and prints nothing, or it prints one document
that accounts for it. -/
inductive Ends (fs : FileSystem) (o : CheckOptions) (r : Run) : Prop where
  | broken : r.status = .broken → Ends fs o r
  | unknown :
      AsksUnknown fs o → printed r.effects = "" → r.status = .error → r.files = fs → Ends fs o r
  | reported (j : Json) :
      ¬ AsksUnknown fs o → Accounts fs o j r.status → printed r.effects = j.render ++ "\n" →
      r.files = fs → Ends fs o r

section

variable {fs : FileSystem} {o : CheckOptions}

lemma hasRule_eq_false_iff {c : Config} {id : String} :
    hasRule c id = false ↔ (∀ rule ∈ c.rules, rule.id ≠ id) ∧ ∀ e ∈ c.ruleErrors, e.1 ≠ id := by
  simp [hasRule, Config.rule?]

/-- An analysis that is reported as a document. It is told event by event, and then finished or
broken off. -/
lemma ends_withAnalysis (hjson : o.output.format = .json) {c : Config} (hc : loaded fs o = .ok c)
    (hknown : ¬ AsksUnknown fs o) :
    Ends fs o (withAnalysis fs { format := o.output.format } (traceOf fs o c) fun t =>
      { status := checkStatus t, files := fs
        effects := [.entry ⟨.info, .program,
          toString t.issues ++ " issues, " ++ toString t.errors ++ " errors"⟩] }) := by
  have htold : Told (toldOutcomes ((traceOf fs o c).events.map (·.1)))
      (tell ((traceOf fs o c).events.map (·.1)) { report := { format := .json } }) := by
    have hstart : Told [] { report := { format := .json } } := ⟨rfl, rfl, by simp [Quiet]⟩
    simpa using hstart.tell ((traceOf fs o c).events.map (·.1))
  have hfailure :=
    failure?_tell ((traceOf fs o c).events.map (·.1)) { report := { format := .json } } rfl
  rw [toldFailure?_eq] at hfailure
  rw [withAnalysis, hjson]
  simp only [hfailure]
  -- The run came to its end, was ended by an unexpected failure, or broke off.
  cases hend : (traceOf fs o c).failure? with
  | none =>
    rw [toldOutcomes_eq _ hend] at htold
    refine .reported (outcomesJson (traceOf fs o c).outcomes) hknown ?_ ?_ rfl
    · simp only [Run.before, htold.tally]
      exact accounts_outcomes hc hend
    · simp only [Run.before, printed_append, htold.quiet.printed, printed_effectsOf, htold.report,
        Report.finish_toldOf]
      rw [String.empty_append]
      exact String.append_empty
  | some failure =>
    cases failure with
    | fatal f =>
      refine .reported (fatalJson (.fault f)) hknown (accounts_fatal fs o _) ?_ rfl
      simp only [Run.before, printed_append, htold.quiet.printed, printed_effectsOf, htold.report,
        Report.out_fatal_toldOf, Report.finish_fatal_toldOf, String.empty_append]
    | broken failure => exact .broken rfl

/-- Entries in front of what a check does are not printed. -/
lemma Ends.before {r : Run} (h : Ends fs o r) (log : List LogEntry) :
    Ends fs o (r.before (log.map .entry)) := by
  have hprinted : printed (r.before (log.map .entry)).effects = printed r.effects := by
    rw [Run.before, printed_append, (quiet_entries log).printed, String.empty_append]
  cases h with
  | broken hstatus => exact .broken hstatus
  | unknown hunknown hout hstatus hfiles =>
    exact .unknown hunknown (hprinted.trans hout) hstatus hfiles
  | reported j hknown haccounts hout hfiles =>
    exact .reported j hknown haccounts (hprinted.trans hout) hfiles

/-- With a configuration, the check is asked for an unknown rule, or it runs its analysis. -/
lemma ends_checkWith (hjson : o.output.format = .json) {c : Config} (hc : loaded fs o = .ok c) :
    Ends fs o (checkWith fs o c) := by
  have hunknown : AsksUnknown fs o ↔ (o.rule?.any fun id => !hasRule c id) = true := by
    cases hrule : o.rule? with
    | none => simp [AsksUnknown, hrule]
    | some id => simp [AsksUnknown, hrule, hc, hasRule_eq_false_iff]
  rw [checkWith]
  by_cases hany : (o.rule?.any fun id => !hasRule c id) = true
  · rw [if_pos hany]
    exact .unknown (hunknown.2 hany) rfl rfl rfl
  · rw [if_neg hany]
    exact ends_withAnalysis hjson hc fun h => hany (hunknown.1 h)

/-- A check that reports as a document ends in one of these ways, whatever becomes of its
configuration. -/
lemma ends_withConfig (hjson : o.output.format = .json) :
    Ends fs o (withConfig fs { format := o.output.format } o.config o.root? (checkWith fs o)) := by
  unfold withConfig
  dsimp only
  generalize hboth :
    Config.load fs (Path.ofString o.config) ((o.root?.filter (· != "")).map Path.ofString) = both
  have hload : loaded fs o = both.2 := congrArg Prod.snd hboth
  refine Ends.before ?_ _
  obtain ⟨log, result⟩ := both
  cases result with
  | ok c => exact ends_checkWith hjson hload
  | error problem =>
    -- Without a configuration no rule is unknown.
    have hknown : ¬ AsksUnknown fs o := by
      rintro ⟨c, id, hc, -⟩
      rw [hload] at hc
      cases hc
    cases problem with
    | fault f =>
      refine .reported (configJson o.config (.fault f)) hknown (accounts_config fs o _ _) ?_ rfl
      simp only [hjson, printed_append, printed_effectsOf, Report.finish_configError]
      exact String.empty_append
    | _ => exact .broken rfl

/-! ## Where the report goes -/

/-- The bytes of an array as a list, as the loop that makes it reads them. -/
lemma toList_loop_eq (bytes : ByteArray) (i : Nat) (read : List UInt8) :
    ByteArray.toList.loop bytes i read = read.reverse ++ bytes.data.toList.drop i := by
  fun_induction ByteArray.toList.loop bytes i read with
  | case1 i read h ih =>
    have hlt : i < bytes.data.toList.length := h
    have hget : bytes.get! i = bytes.data.toList[i] := by
      rw [Array.getElem_toList]
      exact getElem!_pos bytes.data i hlt
    rw [ih, List.drop_eq_getElem_cons hlt, ← hget]
    simp
  | case2 i read h =>
    rw [List.drop_eq_nil_of_le (by simpa using h)]
    simp

/-- A text can be told from the bytes that a file holds. -/
lemma toList_bytes_injective {bytes others : ByteArray} (h : bytes.toList = others.toList) :
    bytes = others := by
  rw [ByteArray.toList, ByteArray.toList, toList_loop_eq, toList_loop_eq] at h
  exact ByteArray.ext (Array.toList_inj.1 (by simpa using h))

/-- All that a run writes to its output is a text: it is printed, or it is what the file that was
asked for holds in the end, and then nothing is printed. -/
def Writes (target? : Option Path) (text : String) (r : Run) : Prop :=
  match target? with
  | none => r.out = text
  | some p => r.out = "" ∧ r.files.read p = .ok text.toUTF8.toList

lemma out_eq_printed (r : Run) : r.out = printed r.effects :=
  rfl

lemma printed_filter (effects : List Effect) :
    printed (effects.filter fun
      | .out _ => false
      | _ => true) = "" := by
  refine Quiet.printed fun text hmem => ?_
  simp at hmem

/-- Opening the output writes an empty file there. -/
lemma exists_write_of_openOutput {target? : Option String} {opened : FileSystem} {p : Path}
    (h : openOutput fs target? = .ok (opened, some p)) :
    ∃ made : FileSystem, made.write p [] = .ok opened := by
  rw [openOutput.eq_def] at h
  split at h
  · cases h
  · cases h
  · split at h
    · cases h
    · split at h
      · cases h
      case _ made _ =>
        split at h
        · cases h
        case _ hwrite =>
          cases h
          exact ⟨made, hwrite⟩

/-- A run whose report goes to a file that was opened for it writes there what it would print. -/
lemma writes_redirect {made opened : FileSystem} {p : Path}
    (hopened : made.write p [] = .ok opened) {r : Run} (hfiles : r.files = opened) :
    Writes (some p) (printed r.effects) (redirect p r) := by
  obtain ⟨written, hwrite⟩ :=
    Files.FileSystem.exists_write_of_write hopened (printed r.effects).toUTF8.toList
  rw [redirect, out_eq_printed, hfiles, hwrite]
  exact ⟨printed_filter _, Files.FileSystem.read_of_write hwrite⟩

/-- Two texts that are all a run writes are the same text. -/
lemma Writes.unique {target? : Option Path} {text other : String} {r : Run}
    (h : Writes target? text r) (hother : Writes target? other r) : text = other := by
  cases target? with
  | none => exact h.symm.trans hother
  | some p =>
    have hbytes := Except.ok.inj (h.2.symm.trans hother.2)
    exact String.toByteArray_inj.1 (toList_bytes_injective hbytes)

/-- What is written where the report goes, for each end of a check. -/
lemma writes_check {opened : FileSystem} {target? : Option Path}
    (hopen : openOutput fs o.output.target? = .ok (opened, target?)) {text : String}
    (hfiles : (withConfig opened { format := o.output.format } o.config o.root?
      (checkWith opened o)).files = opened)
    (hprinted : printed (withConfig opened { format := o.output.format } o.config o.root?
      (checkWith opened o)).effects = text) :
    Writes target? text (check fs o) := by
  rw [check, withOutput, hopen]
  cases target? with
  | none => exact hprinted
  | some p =>
    obtain ⟨made, hwrite⟩ := exists_write_of_openOutput hopen
    exact hprinted ▸ writes_redirect hwrite hfiles

lemma status_redirect (p : Path) (r : Run) : (redirect p r).status = r.status := by
  rw [redirect]
  split <;> rfl

/-- Where the report goes makes no difference to the status. -/
lemma status_check {opened : FileSystem} {target? : Option Path}
    (hopen : openOutput fs o.output.target? = .ok (opened, target?)) :
    (check fs o).status =
      (withConfig opened { format := o.output.format } o.config o.root?
        (checkWith opened o)).status := by
  rw [check, withOutput, hopen]
  cases target? with
  | none => rfl
  | some p => exact status_redirect p _

end

/-- A check that reports as a document and is not broken off writes a document that accounts for how
it ended, exactly if it is not asked for a rule that is not there. If it is, it writes nothing. -/
theorem check_accounts_iff (fs : FileSystem) (o : CheckOptions) (hjson : o.output.format = .json)
    (hreturns : (check fs o).status ≠ .broken) :
    ∃ opened target?, openOutput fs o.output.target? = .ok (opened, target?) ∧
      ((∃ j, Writes target? (j.render ++ "\n") (check fs o) ∧
        Accounts opened o j (check fs o).status) ↔ ¬ AsksUnknown opened o) ∧
      (AsksUnknown opened o → Writes target? "" (check fs o) ∧ (check fs o).status.code = 1) := by
  obtain ⟨opened, target?, hopen⟩ :
      ∃ opened target?, openOutput fs o.output.target? = .ok (opened, target?) := by
    cases hopen : openOutput fs o.output.target? with
    | ok result => exact ⟨result.1, result.2, rfl⟩
    | error message =>
      rw [check, withOutput, hopen] at hreturns
      exact absurd rfl hreturns
  refine ⟨opened, target?, hopen, ?_⟩
  rw [status_check hopen] at hreturns ⊢
  cases @ends_withConfig opened o hjson with
  | broken hstatus => exact absurd hstatus hreturns
  -- Nothing is written then, and the text of a document is never empty.
  | unknown hunknown hprinted hstatus hfiles =>
    have hwrites := writes_check hopen hfiles hprinted
    refine ⟨iff_of_false ?_ (not_not.2 hunknown), fun _ => ⟨hwrites, by rw [hstatus]; rfl⟩⟩
    rintro ⟨j, hj, -⟩
    have hempty := hj.unique hwrites
    simp at hempty
  | reported j hknown haccounts hprinted hfiles =>
    have hwrites := writes_check hopen hfiles hprinted
    exact ⟨iff_of_true ⟨j, hwrites, haccounts⟩ hknown, fun h => absurd h hknown⟩

/-- A directory with an empty configuration. -/
def bareFiles : FileSystem :=
  { tree := .directory [("javasee.yml", .file [])], here := { root := "/" } }

/-- A check of a file that is not there, with a report that goes to a file in a new directory. -/
def missingScript : CheckOptions :=
  { paths := ["Missing.java"], output := { format := .json, target? := some "out/report.json" } }

theorem check_accounts_iff_missingScript :
    missingScript.output.format = .json ∧ (check bareFiles missingScript).status ≠ .broken ∧
      ∃ opened target?, openOutput bareFiles missingScript.output.target? = .ok (opened, target?) ∧
        ((∃ j, Writes target? (j.render ++ "\n") (check bareFiles missingScript) ∧
          Accounts opened missingScript j (check bareFiles missingScript).status) ↔
            ¬ AsksUnknown opened missingScript) ∧
        (AsksUnknown opened missingScript →
          Writes target? "" (check bareFiles missingScript) ∧
            (check bareFiles missingScript).status.code = 1) :=
  ⟨rfl, by decide +kernel, check_accounts_iff bareFiles missingScript rfl (by decide +kernel)⟩

/-- A check for a rule that is not there. -/
def unknownRule : CheckOptions :=
  { rule? := some "nope", output := { format := .json } }

/-- A check for a rule that is not there ends with a status, but writes no document. -/
theorem check_unaccounted : (check bareFiles unknownRule).status = .error ∧
    ¬ ∃ j : Json, (check bareFiles unknownRule).out = j.render ++ "\n" := by
  have hout : (check bareFiles unknownRule).out = "" := by decide +kernel
  refine ⟨by decide +kernel, ?_⟩
  rintro ⟨j, hj⟩
  rw [hout] at hj
  simp at hj

end Cli

end ShapeLint
