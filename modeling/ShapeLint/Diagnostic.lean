import ShapeLint.Report.Json
import ShapeLint.Span
import ShapeLint.Text.Lines

/-!
# Diagnostics

Everything that can go wrong in a run is reported as a diagnostic: a code, a message, a place, notes
and a hint. `Diagnostic.text` writes it the way compilers do, with the line it is about and a row of
carets under the place; `Diagnostic.json` writes the same as a document.
-/

namespace ShapeLint

open ShapeLint.Report (Json)

/-- How bad a diagnostic is: the run cannot go on, something could not be done, or something looks
wrong. -/
inductive Severity where
  | fatal
  | error
  | warning
deriving DecidableEq, Inhabited

/-- The word for a severity. -/
def Severity.word : Severity → String
  | .fatal => "fatal"
  | .error => "error"
  | .warning => "warning"

/-- The codes of the diagnostics. Those of configurations are that the file does not exist, is not
well formed, has the wrong shape, has two rules with one id, or could not be loaded for another
reason; those of patterns, that a text is not well formed, that the mark for any arguments stands
beside others, or that a literal has no value; those of scripts, that one could not be read or is
not well formed. The last is for failures of the linter itself. -/
inductive Code where
  | configNotFound
  | configSyntax
  | configSchema
  | duplicateRuleId
  | configUnknown
  | patternSyntax
  | misplacedRepeatedParameter
  | invalidLiteral
  | scriptRead
  | scriptSyntax
  | internalError
deriving DecidableEq, Inhabited

namespace Code

/-- The number of a code. Those of configurations lie below 1000, those of patterns from 1000, those
of scripts from 2000, and failures of the linter itself from 9000 on. -/
def number : Code → Nat
  | configNotFound => 1
  | configSyntax => 2
  | configSchema => 3
  | duplicateRuleId => 4
  | configUnknown => 5
  | patternSyntax => 1000
  | misplacedRepeatedParameter => 1001
  | invalidLiteral => 1002
  | scriptRead => 2000
  | scriptSyntax => 2001
  | internalError => 9000

/-- The stage of a run that a code belongs to. -/
def phase (c : Code) : String :=
  if c.number < 1000 then "config"
  else if c.number < 2000 then "pattern"
  else if c.number < 3000 then "script"
  else "internal"

/-- The severity that goes with a code unless another is given. -/
def severity : Code → Severity
  | internalError => .fatal
  | _ => .error

/-- A code as it is written: a prefix and four digits. -/
def text (c : Code) : String :=
  let digits := toString c.number
  "JSEE-" ++ String.ofList (List.replicate (4 - digits.length) '0') ++ digits

end Code

/-- A report of something that went wrong: a code and a message, the place it is about, and a
severity, which is that of the code unless another is given. Notes stand in the order in which they
were added; a hint and the line of the place are empty where there is none. -/
structure Diagnostic where
  code : Code
  message : String
  span : Span := {}
  severity : Severity := code.severity
  notes : List String := []
  hint : String := ""
  sourceLine : String := ""
deriving Inhabited

namespace Diagnostic

/-- How many carets mark the place: one for each column, as far as it lies on one line. A place
without width gets one caret. -/
def width (d : Diagnostic) : Nat :=
  if d.span.endLine = d.span.line then max 1 (d.span.endColumn - d.span.column) else 1

/-- The row of carets. -/
def caret (d : Diagnostic) : String :=
  "    " ++ String.ofList (List.replicate (d.span.column - 1) ' ' ++ List.replicate d.width '^')

/-- The line that a diagnostic is about, with carets under the place if its column is known. -/
def excerpt (d : Diagnostic) : List String :=
  if d.sourceLine = "" then []
  else ("    " ++ d.sourceLine) :: if d.span.column = 0 then [] else [d.caret]

/-- The first line of a diagnostic. -/
def headline (d : Diagnostic) : String :=
  d.span.text ++ ": " ++ d.severity.word ++ ": " ++ d.message ++ " [" ++ d.code.text ++ "]"

/-- A diagnostic as lines of text. -/
def text (d : Diagnostic) : String :=
  "\n".intercalate (d.headline :: d.excerpt ++ d.notes.map ("note: " ++ ·)
    ++ if d.hint = "" then [] else ["hint: " ++ d.hint])

/-- A diagnostic as a document. -/
def json (d : Diagnostic) : Json :=
  .obj [("code", .str d.code.text), ("severity", .str d.severity.word),
    ("phase", .str d.code.phase),
    ("message", .str d.message),
    ("location", .obj [("file", .str d.span.file), ("start", Json.pair d.span.line d.span.column),
      ("end", Json.pair d.span.endLine d.span.endColumn)]),
    ("notes", Json.strings d.notes), ("hint", .str d.hint)]

end Diagnostic

end ShapeLint
