import ShapeLint.Config.Schema
import ShapeLint.Rule.Entries
import ShapeLint.Text.Utf8

/-!
# Configurations

A configuration holds compiled rules and excluded paths. Its rules are its own and those of the
files that it imports, and no two of them have one id. A rule that does not compile is left out and
reported; all others take part. Loading tells the log what it does.
-/

namespace ShapeLint

/-- A configuration: the file it comes from, the rules that compiled, the ids of those that did not
with the reasons, the wildcards of paths that are left out, and the directory that these are seen
from. -/
structure Config where
  path? : Option Files.Path
  rules : List Rule := []
  ruleErrors : List (String × Fault) := []
  exclude : List String := []
  root : Files.Path := .here
deriving Inhabited

/-- What came of an attempt, and what was told to the log meanwhile, also where the attempt
failed. -/
abbrev Logged (α : Type) := List LogEntry × Except ConfigProblem α

namespace Config

/-- The rule with an id. -/
def rule? (c : Config) (id : String) : Option Rule :=
  c.rules.find? (·.id == id)

/-! ## Compiling rules -/

/-- The rules among written ones that compile. -/
def compiled (specs : List RuleSpec) : List Rule :=
  specs.filterMap fun spec =>
    match Rule.compile spec with
    | .ok rule => some rule
    | .error _ => none

/-- The written rules that do not compile, with the reason. A rule without patterns is none of them,
but a document that gives one is refused before. -/
def disabled (specs : List RuleSpec) : List (String × Fault) :=
  specs.filterMap fun spec =>
    match Rule.compile spec with
    | .error (.badPattern fault) => some (spec.id, fault)
    | _ => none

/-- What the log is told of a rule in a configuration. -/
def specEntries (spec : RuleSpec) : List LogEntry :=
  spec.entries ++
    match Rule.compile spec with
    | .error e => [⟨.warning, .config, "rule " ++ spec.id ++ " disabled: " ++ e.message⟩]
    | .ok _ => []

/-! ## Files -/

/-- A text in which every line ends in a line feed. -/
def unifyLines : List Char → List Char
  | '\r' :: '\n' :: s => '\n' :: unifyLines s
  | '\r' :: s => '\n' :: unifyLines s
  | c :: s => c :: unifyLines s
  | [] => []

/-- What is reported if a file cannot be read. That there is none has a code of its own. -/
def readFault (p : Files.Path) : Files.FileError → Fault
  | .notFound => Fault.of (.config .missing p.text) ("configuration file not found: " ++ p.text)
  | e => Fault.of (.config .unreadable p.text)
    ("cannot read " ++ p.text ++ ": " ++ e.message p)

/-- What is reported if a file is malformed. -/
def malformedFault (p : Files.Path) (problem : Yaml.Problem) : Fault :=
  Fault.of (.config .malformed p.text) ("invalid YAML: " ++ problem.message)
    (Span.of p.text (problem.line + 1) (problem.column + 1) 0 0)

/-- The document that a file holds. Only what can be reported is a fault; other failures break the
run off. -/
def readDocument (fs : Files.FileSystem) (p : Files.Path) : Except ConfigProblem Document :=
  match fs.read p with
  | .error e => .error (.fault (readFault p e))
  | .ok bytes =>
    match Text.decodeStrict? bytes with
    | none => .error .notText
    | some text =>
      match Yaml.load (unifyLines text) with
      | .ok d => .ok d
      | .error (.malformed problem) => .error (.fault (malformedFault p problem))
      | .error .badScalar => .error .badScalar
      | .error .badBool => .error .badBool

/-! ## Imports -/

/-- The rules that a file holds: under their key, or as a list. Other keys of an imported file are
not looked at. -/
def fileSpecs (fs : Files.FileSystem) (p : Files.Path) : Except ConfigProblem (List RuleSpec) :=
  match readDocument fs p with
  | .error e => .error e
  | .ok .null => .ok []
  | .ok (.list items) => Schema.rulesFrom (some p) 0 items
  | .ok d =>
    match Schema.mapping (some p) p.text d with
    | .error e => .error e
    | .ok entries => Schema.rules (some p) entries

/-- The rules of several files, in order. The first that fails ends reading. -/
def filesSpecs (fs : Files.FileSystem) : List Files.Path → Logged (List RuleSpec)
  | [] => ([], .ok [])
  | p :: ps =>
    let entry : LogEntry := ⟨.info, .config, "importing rules from " ++ p.text⟩
    match fileSpecs fs p with
    | .error e => ([entry], .error e)
    | .ok specs =>
      let (log, others) := filesSpecs fs ps
      (entry :: log, others.map (specs ++ ·))

/-- The rules of the files that a glob selects. That it selects none is no failure, and is told to
the log. -/
def globSpecs (fs : Files.FileSystem) (base : Files.Path) (pattern : String) :
    Logged (List RuleSpec) :=
  match Files.Glob.ofString pattern with
  | .error e => ([], .error (.badGlob e))
  | .ok glob =>
    match glob.select fs base with
    | [] => ([⟨.warning, .config, "import " ++ Text.quoted pattern ++ " matched no files"⟩], .ok [])
    | paths => filesSpecs fs paths

/-- The rules of several imports, counted from a number on. -/
def importSpecs (fs : Files.FileSystem) (base : Files.Path) (origin : Schema.Origin) :
    Nat → List Document → Logged (List RuleSpec)
  | _, [] => ([], .ok [])
  | i, d :: ds =>
    match Schema.importGlob origin i d with
    | .error e => ([], .error e)
    | .ok pattern =>
      match globSpecs fs base pattern with
      | (log, .error e) => (log, .error e)
      | (log, .ok specs) =>
        let (rest, others) := importSpecs fs base origin (i + 1) ds
        (log ++ rest, others.map (specs ++ ·))

/-- The rules that the entries of a configuration import. -/
def imported (fs : Files.FileSystem) (base : Files.Path) (origin : Schema.Origin)
    (entries : List (Document × Document)) : Logged (List RuleSpec) :=
  match Schema.imports origin entries with
  | .error e => ([], .error e)
  | .ok items => importSpecs fs base origin 0 items

/-! ## Configurations -/

/-- The excluded paths of a configuration, once its rules are found to have different ids. Ids are
compared after the paths are read, so a wrong path is reported first. -/
def excluded (origin : Schema.Origin) (entries : List (Document × Document))
    (specs : List RuleSpec) :
    Except ConfigProblem (List String) :=
  match Schema.textsAt origin "exclude" "exclude" entries with
  | .error e => .error e
  | .ok exclude => (Schema.distinct origin [] specs).map fun _ => exclude

/-- The entry for a configuration that was loaded. -/
def loadedEntry (specs : List RuleSpec) : LogEntry :=
  ⟨.info, .config, "loaded " ++ toString (compiled specs).length ++ " rules ("
    ++ toString (disabled specs).length ++ " disabled)"⟩

/-- The configuration that a document denotes. Imports are looked for where its file lies. Nothing
is compiled before all rules are there. -/
def ofDocument (fs : Files.FileSystem) (path? root? : Option Files.Path) (d : Document) :
    Logged Config :=
  let base := (path?.map (·.parent)).getD .here
  match Schema.top path? d with
  | .error e => ([], .error e)
  | .ok entries =>
    match Schema.rules path? entries with
    | .error e => ([], .error e)
    | .ok own =>
      match imported fs base path? entries with
      | (log, .error e) => (log, .error e)
      | (log, .ok others) =>
        let specs := own ++ others
        match excluded path? entries specs with
        | .error e => (log, .error e)
        | .ok exclude =>
          (log ++ specs.flatMap specEntries ++ [loadedEntry specs],
            .ok { path?, rules := compiled specs, ruleErrors := disabled specs, exclude,
                  root := root?.getD base })

/-- The configuration in a file. Excluded paths are seen from the root, or from the directory of the
file if there is none. -/
def load (fs : Files.FileSystem) (path : Files.Path) (root? : Option Files.Path) : Logged Config :=
  let entry : LogEntry := ⟨.info, .config, "loading configuration " ++ path.text⟩
  match readDocument fs path with
  | .error e => ([entry], .error e)
  | .ok d =>
    let (log, result) := ofDocument fs (some path) root? d
    (entry :: log, result)

end Config

end ShapeLint
