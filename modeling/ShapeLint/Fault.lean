import ShapeLint.Diagnostic
import ShapeLint.Text.Quoted

/-!
# Faults

A fault is a diagnostic together with what it is a failure of: a pattern, a script, a configuration
or the run itself. The kind decides which code a fault has unless another is given, and what a
caller does about it: a pattern that does not compile disables its rule, a script that cannot be
read is skipped, a configuration that cannot be loaded and a fatal fault end the run.
-/

namespace ShapeLint

/-- How a configuration failed to load: the file does not exist, is not well formed, holds a
document of the wrong shape, or could not be read. -/
inductive ConfigFailure where
  | missing
  | malformed
  | misshapen
  | unreadable
deriving DecidableEq, Inhabited

/-- What a fault is a failure of: nothing in particular, a pattern, a script, a configuration, or
the run itself. Of a pattern it keeps the text, the part of it found at the place, and the rule that
the pattern belongs to once that is known; of a script and a configuration, the path. -/
inductive FaultKind where
  | general
  | pattern (source token : String) (rule? : Option String)
  | script (path : String)
  | config (failure : ConfigFailure) (path : String)
  | fatal
deriving DecidableEq, Inhabited

/-- The code of a fault, unless another is given. -/
def FaultKind.code : FaultKind → Code
  | .general => .internalError
  | .pattern _ _ _ => .patternSyntax
  | .script _ => .scriptSyntax
  | .config .missing _ => .configNotFound
  | .config .malformed _ => .configSyntax
  | .config .misshapen _ => .configSchema
  | .config .unreadable _ => .configUnknown
  | .fatal => .internalError

/-- A failure that a run reports: what it is a failure of, and how it is reported. -/
structure Fault where
  kind : FaultKind
  diagnostic : Diagnostic
deriving Inhabited

namespace Fault

/-- The message of a fault. -/
def message (f : Fault) : String :=
  f.diagnostic.message

/-- A fault of a kind with a message and the code that goes with the kind. -/
def of (kind : FaultKind) (message : String) (span : Span := {}) : Fault :=
  { kind, diagnostic := { code := kind.code, message, span } }

/-- A fault with its line of source filled in: the line of the pattern that it is about. -/
def withExcerpt (f : Fault) : Fault :=
  match f.kind with
  | .pattern source _ _ =>
    let line := String.ofList (Text.lineAt source.toList f.diagnostic.span.line)
    { f with diagnostic := { f.diagnostic with sourceLine := line } }
  | _ => f

/-- A fault with a note added at the end. -/
def addNote (f : Fault) (note : String) : Fault :=
  { f with diagnostic := { f.diagnostic with notes := f.diagnostic.notes ++ [note] } }

/-- A pattern fault with the rule that the pattern belongs to, which is also noted. -/
def forRule (f : Fault) (rule : String) : Fault :=
  let kind :=
    match f.kind with
    | .pattern source token _ => .pattern source token (some rule)
    | kind => kind
  { f with kind }.addNote ("in rule " ++ Text.quoted rule)

/-- A fault as lines of text. -/
def text (f : Fault) : String :=
  f.diagnostic.text

/-- A failure of the run itself. -/
def fatal (message : String) : Fault :=
  of .fatal message

end Fault

end ShapeLint
