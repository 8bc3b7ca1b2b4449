import ShapeLint.Cli.Command
import ShapeLint.Cli.Template
import ShapeLint.Cli.Usage
import ShapeLint.Config.Basic
import ShapeLint.Files.Selection
import ShapeLint.Rule.Example

/-!
# Running commands

A run of the program on all files comes to a status, to what it has printed and told the log, in
order, and to the files as they are afterwards. A report that goes to a file is made as if it were
printed, and moved to the file at the end.
-/

namespace ShapeLint.Cli

open ShapeLint.Files (FileError FileSystem Path Selection)

/-- How the program ends: all is well, something failed, there are issues, the configuration could
not be loaded, the arguments are wrong, or something that no report tells of ended the run. -/
inductive Status where
  | ok
  | error
  | issues
  | config (failure : ConfigFailure)
  | usage
  | broken
deriving DecidableEq, Inhabited

/-- The number of a status. Two pairs of them cannot be told apart from outside. -/
def Status.code : Status → Nat
  | ok => 0
  | error | broken => 1
  | issues | usage => 2
  | config .missing => 3
  | config .malformed => 4
  | config .misshapen => 5
  | config .unreadable => 6

/-- Something that a run does in passing: it tells the log, prints a text, or prints a text
beside. -/
inductive Effect where
  | entry (e : LogEntry)
  | out (text : String)
  | err (text : String)
deriving DecidableEq, Inhabited

/-- What a run comes to: how it ends, what it does in passing in order, and the files afterwards. -/
structure Run where
  status : Status
  effects : List Effect := []
  files : FileSystem
deriving Inhabited

namespace Run

/-- The text that was printed. -/
def out (r : Run) : String :=
  String.join (r.effects.map fun
    | .out text => text
    | _ => "")

/-- The text that was printed beside, with the entries of the log that are shown. -/
def err (r : Run) (verbosity : Nat) : String :=
  String.join (r.effects.map fun
    | .err text => text
    | .entry e => if e.isShown verbosity then e.line else ""
    | .out _ => "")

/-- A run with something done before. -/
def before (r : Run) (effects : List Effect) : Run :=
  { r with effects := effects ++ r.effects }

/-- A run that breaks off. -/
def broken (files : FileSystem) (message : String) : Run :=
  { status := .broken,
    effects := [.entry ⟨.error, .program, "Unhandled exception: " ++ message⟩], files }

end Run

/-- What a report writes, as effects. -/
def effectsOf (w : Report.Writing) : List Effect :=
  (if w.out = "" then [] else [.out w.out]) ++ (if w.err = "" then [] else [.err w.err])

/-! ## Output files -/

/-- Opens the file that a report goes to, which empties it; nothing if the report is printed.
Directories on the way to it are made. -/
def openOutput (fs : FileSystem) : Option String → Except String (FileSystem × Option Path)
  | none | some "-" => .ok (fs, none)
  | some target =>
    match (Path.ofString target).expandHome? fs.homes with
    | none => .error "Could not determine home directory."
    | some p =>
      match fs.makeDirectories p.parent with
      | .error e => .error (e.message p.parent)
      | .ok made =>
        match made.write p [] with
        | .error e => .error (e.message p)
        | .ok opened => .ok (opened, some p)

/-- A run with what it prints moved to a file. The log and what is printed beside stay. -/
def redirect (p : Path) (r : Run) : Run :=
  let kept := r.effects.filter fun
    | .out _ => false
    | _ => true
  match r.files.write p r.out.toUTF8.toList with
  | .ok files => { r with effects := kept, files }
  | .error _ => { r with effects := kept }

/-- A run whose report goes where it is asked to go. -/
def withOutput (fs : FileSystem) (output : Output) (run : FileSystem → Run) : Run :=
  match openOutput fs output.target? with
  | .error message => .broken fs message
  | .ok (opened, none) => run opened
  | .ok (opened, some p) => redirect p (run opened)

/-! ## Loading a configuration -/

/-- What is wrong with a configuration that cannot be reported as a fault, in words. -/
def problemMessage : ConfigProblem → String
  | .fault f => f.text
  | .unlistedKeys => "keys cannot be listed"
  | .unshownValue => "a value cannot be shown"
  | .badGlob _ => "unacceptable pattern"
  | .notText => "the file holds no text"
  | .badScalar => "invalid scalar"
  | .badBool => "invalid truth value"

/-- The failure that a fault of a configuration stands for. -/
def configFailure (f : Fault) : ConfigFailure :=
  match f.kind with
  | .config failure _ => failure
  | _ => .unreadable

/-- Goes on with a configuration, or reports why it cannot be loaded. What cannot be reported breaks
the run off. -/
def withConfig (fs : FileSystem) (report : Report) (config : String) (root? : Option String)
    (next : Config → Run) : Run :=
  let root? := (root?.filter (· != "")).map Path.ofString
  let (log, result) := Config.load fs (Path.ofString config) root?
  let run :=
    match result with
    | .ok c => next c
    | .error (.fault f) =>
      let (told, writing) := report.configError config (.fault f)
      { status := .config (configFailure f),
        effects := effectsOf writing ++ effectsOf told.finish, files := fs }
    | .error problem => .broken fs (problemMessage problem)
  run.before (log.map .entry)

/-! ## Reporting an analysis -/

/-- How often issues and errors were found. -/
structure Tally where
  issues : Nat := 0
  errors : Nat := 0
deriving DecidableEq, Inhabited

/-- Counts an outcome. -/
def Tally.count (t : Tally) (o : Outcome) : Tally :=
  if o.isIssue then { t with issues := t.issues + 1 } else { t with errors := t.errors + 1 }

/-- What comes of telling a report what happens in an analysis: the report afterwards, what is
written and told the log, what was found, and why the analysis broke off if it did. -/
structure Telling where
  report : Report
  effects : List Effect := []
  tally : Tally := {}
  failure? : Option RunFailure := none
deriving Inhabited

/-- Tells a report what happens, up to what breaks the analysis off. -/
def tell : List RunEvent → Telling → Telling
  | [], t => t
  | .entry e :: events, t => tell events { t with effects := t.effects ++ [.entry e] }
  | .outcome o :: events, t =>
    let (report, writing) := t.report.outcome o
    tell events { t with report, effects := t.effects ++ effectsOf writing,
                         tally := t.tally.count o }
  | .failed failure :: _, t => { t with failure? := some failure }

/-- The words for a failure to parse that is not reported as a fault. -/
def parseMessage : Java.ParseFailure → String
  | .rejected f => f.text
  | .badNumeral .malformed => "invalid numeral"
  | .badNumeral .overflow => "hexadecimal value too large to represent as a float"
  | .emptyUpdate => "an update without an operand"

/-- Reports an analysis to its end, and goes on with what was found unless it broke off. After an
unexpected failure the report is ended too, and otherwise is left as it is. -/
def withAnalysis (fs : FileSystem) (report : Report) (trace : RunTrace)
    (next : Tally → Run) : Run :=
  let told := tell (trace.events.map (·.1)) { report }
  let run : Run :=
    match told.failure? with
    | none => (next told.tally).before (effectsOf told.report.finish)
    | some (.fatal f) =>
      let (ended, writing) := told.report.fatal (.fault f)
      { status := .error, effects := effectsOf writing ++ effectsOf ended.finish, files := fs }
    | some (.broken failure) => .broken fs (parseMessage failure)
  run.before told.effects

/-! ## Checking -/

/-- Whether a configuration has a rule with an id, compiled or not. A rule that did not compile can
be asked for, and then its error is reported. -/
def hasRule (c : Config) (id : String) : Bool :=
  (c.rule? id).isSome || c.ruleErrors.any (·.1 == id)

/-- The analysis that a check asks for. -/
def checkAnalysis (c : Config) (o : CheckOptions) : Analysis :=
  let all : Analysis := { rules := c.rules, ruleErrors := c.ruleErrors, jobs := o.jobs }
  match o.rule? with
  | some id => all.restrict id
  | none => all

/-- The files that a check asks for. -/
def checkSelection (c : Config) (o : CheckOptions) : Selection :=
  { paths := if o.paths.isEmpty then [c.root] else o.paths.map Path.ofString, exclude := c.exclude,
    root := c.root }

/-- The status of a check that came to its end. Issues count before errors. -/
def checkStatus (t : Tally) : Status :=
  if 0 < t.issues then .issues else if 0 < t.errors then .error else .ok

/-- Checks files against the rules of a configuration. -/
def checkWith (fs : FileSystem) (o : CheckOptions) (c : Config) : Run :=
  if (o.rule?.any fun id => !hasRule c id) then
    { status := .error, files := fs
      effects := [.entry ⟨.error, .program,
        "no rule with id " ++ Text.quoted (o.rule?.getD "") ++ " in " ++ o.config⟩] }
  else
    let trace := (checkAnalysis c o).run ((checkSelection c o).draws fs)
    withAnalysis fs { format := o.output.format } trace fun t =>
      { status := checkStatus t, files := fs
        effects := [.entry
          ⟨.info, .program, toString t.issues ++ " issues, " ++ toString t.errors ++ " errors"⟩] }

/-- Checks files against the rules of the configuration that is asked for. -/
def check (fs : FileSystem) (o : CheckOptions) : Run :=
  withOutput fs o.output fun fs =>
    withConfig fs { format := o.output.format } o.config o.root? (checkWith fs o)

/-! ## Finding -/

/-- The rule that stands for a pattern. Its message is the pattern. -/
def findSpec (pattern : String) : RuleSpec :=
  { id := "find", message := pattern, patterns := [pattern] }

/-- Finds what a rule flags. -/
def findWith (fs : FileSystem) (o : FindOptions) (rule : Rule) : Run :=
  let trace := ({ rules := [rule], maxIssues := o.max? } : Analysis).run
    (({ paths := o.paths.map Path.ofString } : Selection).draws fs)
  withAnalysis fs { format := o.output.format } trace fun t =>
    let line := toString t.issues ++ " results" ++ (if trace.final.truncated then " (truncated)"
      else "") ++ "\n"
    { status := .ok, effects := if o.output.format = .text then [.out line] else [], files := fs }

/-- Finds what matches a pattern. A pattern that does not compile is told before the report is
opened. -/
def find (fs : FileSystem) (o : FindOptions) : Run :=
  let spec := findSpec o.pattern
  let run : Run :=
    match Rule.compile spec with
    | .ok rule => withOutput fs o.output fun fs => findWith fs o rule
    | .error (.badPattern f) =>
      { status := .error, effects := [.err (f.text ++ "\n")], files := fs }
    | .error e => .broken fs e.message
  run.before (spec.entries.map .entry)

/-! ## Testing -/

/-- A fault as it stands below a heading. -/
def underHeading (f : Fault) : String :=
  String.ofList (Text.indented "    ".toList f.text.toList) ++ "\n"

/-- What is printed of an example. -/
def exampleText (e : Example) : String :=
  let place := e.rule ++ ": " ++ e.kind.word ++ "[" ++ toString e.index ++ "]"
  if e.passed then ""
  else
    match e.fault?, e.kind with
    | some f, _ => place ++ " does not parse\n" ++ underHeading f
    | none, .before => place ++ " should match but did not\n"
    | none, .after => place ++ " should not match but matched " ++ toString e.matched ++ " times\n"

/-- The examples of a rule, up to one that cannot be run, and what the log is told meanwhile. -/
def runExamples (rule : Rule) :
    List (Section × Nat × String) → List Effect × Except Example.Failure (List Example)
  | [] => ([], .ok [])
  | (kind, index, snippet) :: snippets =>
    let entries :=
      match Java.parse (Example.path rule.id kind index) (.ofString (Example.wrap snippet)) with
      | .ok root => [Effect.entry (Script.convertedEntry root)]
      | .error _ => []
    match Example.check rule kind index snippet with
    | .error e => (entries, .error e)
    | .ok (e, _) =>
      let (effects, others) := runExamples rule snippets
      (entries ++ effects, others.map (e :: ·))

/-- What is printed of a rule that did not compile. -/
def disabledText (id : String) (f : Fault) : String :=
  id ++ ": pattern does not compile\n" ++ underHeading f

/-- The words for examples that cannot be run. -/
def exampleFailureMessage : Example.Failure → String
  | .parse failure => parseMessage failure
  | .test _ => "the pattern is nested too deeply"

/-- Tests rules by their examples: what is printed, and all examples unless one cannot be run. -/
def testRules : List Rule → List Effect × Except Example.Failure (List Example)
  | [] => ([], .ok [])
  | rule :: rules =>
    if rule.before.isEmpty && rule.after.isEmpty then
      let (effects, examples) := testRules rules
      (.entry ⟨.info, .program, "rule " ++ rule.id ++ " has no examples"⟩ :: effects, examples)
    else
      match runExamples rule (Example.snippets rule) with
      | (effects, .error e) => (effects, .error e)
      | (effects, .ok examples) =>
        let (more, others) := testRules rules
        (effects ++ [.out (String.join (examples.map exampleText))] ++ more,
          others.map (examples ++ ·))

/-- Tests the rules of a configuration. Rules that did not compile count as failures, and are told
first. -/
def testWith (fs : FileSystem) (c : Config) : Run :=
  let disabled := c.ruleErrors.map fun (id, f) => Effect.out (disabledText id f)
  let (effects, result) := testRules c.rules
  let run : Run :=
    match result with
    | .error e => .broken fs (exampleFailureMessage e)
    | .ok examples =>
      let failures := c.ruleErrors.length + (examples.filter fun e => !e.passed).length
      let line := "Tested " ++ toString (c.rules.length + c.ruleErrors.length) ++ " rules with "
        ++ toString examples.length ++ " examples: " ++ toString failures ++ " failures\n"
      { status := if 0 < failures then .error else .ok, effects := [.out line], files := fs }
  run.before (disabled ++ effects)

/-- Tests the rules of the configuration in a file. -/
def test (fs : FileSystem) (config : String) : Run :=
  withConfig fs { format := .text } config none (testWith fs)

/-! ## All commands -/

/-- Writes a configuration to start from. A file that is there is written over only if that is asked
for. -/
def init (fs : FileSystem) (config : String) (force : Bool) : Run :=
  let p := Path.ofString config
  if fs.exists? p && !force then
    { status := .error, files := fs
      effects := [.entry ⟨.error, .program, p.text ++ " already exists (use --force to overwrite)"⟩]
        }
  else
    match fs.write p template.toUTF8.toList with
    | .error e => .broken fs (e.message p)
    | .ok written =>
      { status := .ok, effects := [.out ("Wrote " ++ p.text ++ "\n")], files := written }

/-- Runs a command. -/
def runCommand (fs : FileSystem) : Command → Run
  | .check o => check fs o
  | .find o => find fs o
  | .test config => test fs config
  | .init config force => init fs config force
  | .version => { status := .ok, effects := [.out versionLine], files := fs }
  | .help => { status := .ok, effects := [.out helpText], files := fs }

/-- Ends the program without a command. -/
def runEnding (fs : FileSystem) : Ending → Run
  | .help command? => { status := .ok, effects := [.out (helpFor command?)], files := fs }
  | .version => { status := .ok, effects := [.out versionLine], files := fs }
  | .refused reason =>
    { status := .usage,
      effects := [.err (usageLine none ++ "javasee: error: " ++ reason ++ "\n")], files := fs }

/-- Runs what was asked for. Without a command, help is printed beside. -/
def runInvocation (fs : FileSystem) (i : Invocation) : Run :=
  match i.command? with
  | some command => runCommand fs command
  | none => { status := .error, effects := [.err helpText], files := fs }

/-- Runs the program on arguments: what the run comes to, and how much of the log is shown. -/
def run (fs : FileSystem) (arguments : List String) : Run × Nat :=
  match parse arguments with
  | .error ending => (runEnding fs ending, 0)
  | .ok i => (runInvocation fs i, i.verbosity)

end ShapeLint.Cli
