import ShapeLint.Analysis

/-!
# Reports

A report is told what happens in a run and writes about it. As text it writes a line for each issue
and a few for each error as they come. As a document it collects everything and writes a single JSON
document at the end. A silent report writes only about what ends the run.
-/

namespace ShapeLint.Report

/-- The form of a report: nothing but what ends the run, lines of text, or a JSON document. -/
inductive Format where
  | silent
  | text
  | json
deriving DecidableEq, Inhabited

namespace Format

/-- The formats that can be asked for, by name. -/
def named : List (String × Format) :=
  [("json", .json), ("text", .text)]

/-- The format with a name. -/
def ofName (name : String) : Except String Format :=
  match named.lookup name with
  | some f => .ok f
  | none => .error ("unknown format " ++ Text.quoted name)

end Format

/-- What a report is told of a failure: a fault, or only a message. -/
inductive Problem where
  | fault (f : Fault)
  | plain (message : String)
deriving Inhabited

namespace Problem

/-- A problem as text. -/
def text : Problem → String
  | .fault f => f.text
  | .plain message => message

/-- The trail that is shown for a problem: the lines of its text. -/
def trail (p : Problem) : List String :=
  (Text.lines p.text.toList).map String.ofList

/-- The field with the trail of a problem. -/
def trailField (p : Problem) : String × Json :=
  ("backtrace", Json.strings p.trail)

/-- A problem as a document. That of a fault has the fields of its diagnostic. -/
def json (p : Problem) : Json :=
  match p with
  | .fault f =>
    match f.diagnostic.json with
    | .obj fields => .obj (fields ++ [p.trailField])
    | other => other
  | .plain message => .obj [("message", .str message), p.trailField]

end Problem

/-- What a report writes: to the report itself, and beside it. -/
structure Writing where
  out : String := ""
  err : String := ""
deriving DecidableEq, Inhabited

end ShapeLint.Report

namespace ShapeLint

open ShapeLint.Report (Format Json Problem Writing)

/-- A report and what it has collected: issues, scripts that could not be loaded, rules that did not
compile, configurations that could not be loaded, and what ended the run. Each list is in the order
in which it is written. Only a report in the form of a document collects anything. -/
structure Report where
  format : Format
  issues : List Json := []
  scriptErrors : List Json := []
  ruleErrors : List Json := []
  configErrors : List Json := []
  fatal? : Option Json := none
deriving Inhabited

namespace Report

/-- A heading with a problem under it. -/
def headed (heading : String) (p : Problem) : Writing :=
  { err := heading ++ "\n" ++ p.text ++ "\n" }

/-! ## Issues -/

/-- An issue as a line of text. -/
def issueLine (script : Script) (rule : Rule) (visit : Visit) : String :=
  let span := visit.node.span
  script.path ++ ":" ++ toString span.line ++ ":" ++ toString span.column ++ "\t"
    ++ String.ofList (Text.trim (script.line span.line)) ++ "\t" ++ rule.summary ++ " (" ++
      rule.id ++ ")\n"

/-- An issue as a document. -/
def issueJson (script : Script) (rule : Rule) (visit : Visit) : Json :=
  let span := visit.node.span
  .obj [("script", .str script.path),
    ("rule", .obj [("id", .str rule.id), ("message", .str rule.message),
      ("justifications", Json.strings rule.justificationTexts)]),
    ("location", .obj
      [("start", Json.pair span.line span.column), ("end", Json.pair span.endLine span.endColumn)])]

/-! ## What a report is told -/

/-- Tells of an outcome. Text is written at once, issues to the report and errors beside it. -/
def outcome (r : Report) (o : Outcome) : Report × Writing :=
  match r.format, o with
  | .silent, _ => (r, {})
  | .text, .issue script rule visit => (r, { out := issueLine script rule visit })
  | .text, .scriptError path fault => (r, headed ("Failed to load script: " ++ path) (.fault fault))
  | .text, .ruleError id fault => (r, headed ("Failed to compile rule: " ++ id) (.fault fault))
  | .json, .issue script rule visit =>
    ({ r with issues := r.issues ++ [issueJson script rule visit] }, {})
  | .json, .scriptError path fault =>
    ({ r with scriptErrors :=
      r.scriptErrors ++ [.obj [("path", .str path), ("error", (Problem.fault fault).json)]] }, {})
  | .json, .ruleError id fault =>
    ({ r with ruleErrors :=
      r.ruleErrors ++ [.obj [("rule", .str id), ("error", (Problem.fault fault).json)]] }, {})

/-- Tells of a configuration that could not be loaded, under the name by which it was asked for. -/
def configError (r : Report) (path : String) (p : Problem) : Report × Writing :=
  match r.format with
  | .silent => (r, {})
  | .text => (r, headed ("Failed to load configuration: " ++ path) p)
  | .json =>
    ({ r with configErrors := r.configErrors ++ [.obj [("path", .str path), ("error", p.json)]] },
      {})

/-- Tells of what ends the run. It is written beside the report in every form, a silent one
included. -/
def fatal (r : Report) (p : Problem) : Report × Writing :=
  let trail := p.trail.map fun line => "  " ++ line ++ "\n"
  let writing : Writing :=
    { err := "Fatal error: " ++ p.text ++ "\nBacktrace:\n" ++ String.join trail }
  match r.format with
  | .json => ({ r with fatal? := some (.obj [("message", .str p.text), p.trailField]) }, writing)
  | _ => (r, writing)

/-- The document of a report: what ended the run, or else the configuration errors, or else all
outcomes. -/
def document (r : Report) : Json :=
  match r.fatal? with
  | some problem => .obj [("fatal_error", problem)]
  | none =>
    if r.configErrors.isEmpty then
      .obj [("issues", .arr r.issues), ("errors", .arr r.scriptErrors),
        ("rule_errors", .arr r.ruleErrors)]
    else .obj [("config_errors", .arr r.configErrors)]

/-- What is written at the end. -/
def finish (r : Report) : Writing :=
  match r.format with
  | .json => { out := r.document.render ++ "\n" }
  | _ => {}

end Report

end ShapeLint
