import ShapeLint.Document
import ShapeLint.Fault
import ShapeLint.Files.Glob
import ShapeLint.Rule.Basic
import ShapeLint.Yaml.Load

/-!
# The shape of a configuration

A configuration is a mapping with rules, imports and excluded paths, all of which may be absent. A
rule is a mapping with an id, a message and patterns, and maybe justifications, tags and examples.
Where several texts are asked for, one text may stand alone. Nothing else is accepted, and the first
thing that is wrong is reported.
-/

namespace ShapeLint

/-- Why a configuration could not be loaded. Only a fault is reported; all else breaks the run off:
keys that are no texts and so cannot be listed in a report, a wrong value with too many digits to be
shown in one, an import that is no glob, a file that holds no text, a scalar that is not written
like what it is to be, and a truth value that is none. -/
inductive ConfigProblem where
  | fault (f : Fault)
  | unlistedKeys
  | unshownValue
  | badGlob (e : Files.GlobError)
  | notText
  | badScalar
  | badBool
deriving Inhabited

namespace Schema

/-- The file that a configuration comes from, as it is named in reports. -/
abbrev Origin := Option Files.Path

/-- The name of a file in reports, empty where there is none. -/
def originText (origin : Origin) : String :=
  (origin.map (·.text)).getD ""

/-- A report that a configuration has the wrong shape. -/
def misshapen (origin : Origin) (message : String) : ConfigProblem :=
  let path := originText origin
  .fault (Fault.of (.config .misshapen path) message (Span.inFile {} path))

section

variable (origin : Origin)

/-- The entries of a mapping. -/
def mapping (what : String) : Document → Except ConfigProblem (List (Document × Document))
  | .map entries => .ok entries
  | d => .error (misshapen origin (what ++ " must be a mapping, got " ++ d.typeName))

/-- The items of a list. -/
def list (what : String) : Document → Except ConfigProblem (List Document)
  | .list items => .ok items
  | d => .error (misshapen origin (what ++ " must be a list, got " ++ d.typeName))

/-- A text. What is no text is shown in the report, unless an integer in it is too long. -/
def text (what : String) : Document → Except ConfigProblem String
  | .text s => .ok s
  | d =>
    if d.isShowable then
      .error (misshapen origin
        (what ++ " must be a string, got " ++ d.typeName ++ ": " ++ d.display))
    else .error .unshownValue

/-- The texts of a list, counted from a number on. -/
def textsFrom (what : String) : Nat → List Document → Except ConfigProblem (List String)
  | _, [] => .ok []
  | i, d :: ds =>
    match text origin (what ++ "[" ++ toString i ++ "]") d with
    | .error e => .error e
    | .ok s => (textsFrom what (i + 1) ds).map (s :: ·)

/-- Several texts: none, one alone, or a list. One alone counts as a list of one. -/
def texts (what : String) : Document → Except ConfigProblem (List String)
  | .null => .ok []
  | .text s => .ok [s]
  | d =>
    match list origin what d with
    | .error e => .error e
    | .ok items => textsFrom origin what 0 items

/-- Several texts under a key; none if it is absent. -/
def textsAt (what key : String) (entries : List (Document × Document)) :
    Except ConfigProblem (List String) :=
  texts origin what ((Document.lookup? key entries).getD .null)

/-! ## Keys -/

/-- The keys of entries as texts, or nothing if one of them is none. -/
def keyTexts : List Document → Option (List String)
  | [] => some []
  | .text s :: keys => (keyTexts keys).map (s :: ·)
  | _ :: _ => none

/-- The keys of entries that are not among those that are known. -/
def unknownKeys (known : List String) (entries : List (Document × Document)) : List Document :=
  (entries.map (·.1)).filter fun key =>
    match key with
    | .text s => !known.contains s
    | _ => true

/-- Refuses entries with keys that are not known; the report lists them in order. It cannot if one
of them is no text. -/
def onlyKeys (known : List String) (lead : String) (entries : List (Document × Document)) :
    Except ConfigProblem Unit :=
  match unknownKeys known entries with
  | [] => .ok ()
  | unknown =>
    match keyTexts unknown with
    | none => .error .unlistedKeys
    | some keys =>
      .error (misshapen origin (lead ++ ", ".intercalate (keys.mergeSort fun a b => a ≤ b)))

/-- The value under a key that must be there. -/
def required (what key : String) (entries : List (Document × Document)) :
    Except ConfigProblem Document :=
  match Document.lookup? key entries with
  | some d => .ok d
  | none => .error (misshapen origin (what ++ ": missing required key " ++ Text.quoted key))

/-! ## Rules -/

/-- The keys of a rule. -/
def ruleKeys : List String :=
  ["id", "message", "pattern", "justification", "tags", "before", "after"]

/-- The keys of a configuration. -/
def topKeys : List String :=
  ["rules", "import", "exclude"]

/-- The rule at a place in a list. Its keys are looked at first, then those that it must have, then
its values. Reports name a value by the id of the rule once that is known. -/
def rule (index : Nat) (d : Document) : Except ConfigProblem RuleSpec := do
  let what := "rules[" ++ toString index ++ "]"
  let entries ← mapping origin what d
  onlyKeys origin ruleKeys (what ++ ": unknown keys ") entries
  let id ← required origin what "id" entries
  let message ← required origin what "message" entries
  let pattern ← required origin what "pattern" entries
  let id ← text origin (what ++ ".id") id
  let patterns ← texts origin (id ++ ".pattern") pattern
  if patterns.isEmpty then throw (misshapen origin (id ++ ": at least one pattern is required"))
  let message ← text origin (id ++ ".message") message
  let justifications ← textsAt origin (id ++ ".justification") "justification" entries
  let tags ← textsAt origin (id ++ ".tags") "tags" entries
  let before ← textsAt origin (id ++ ".before") "before" entries
  let after ← textsAt origin (id ++ ".after") "after" entries
  return { id, message, patterns, justifications, tags, before, after }

/-- The rules of a list, counted from a number on. -/
def rulesFrom : Nat → List Document → Except ConfigProblem (List RuleSpec)
  | _, [] => .ok []
  | i, d :: ds =>
    match rule origin i d with
    | .error e => .error e
    | .ok spec => (rulesFrom (i + 1) ds).map (spec :: ·)

/-- The rules of a mapping. -/
def rules (entries : List (Document × Document)) : Except ConfigProblem (List RuleSpec) :=
  match (Document.lookup? "rules" entries).getD .null with
  | .null => .ok []
  | d =>
    match list origin "rules" d with
    | .error e => .error e
    | .ok items => rulesFrom origin 0 items

/-- The entries of a configuration; nothing counts as an empty mapping. -/
def top : Document → Except ConfigProblem (List (Document × Document))
  | .null => .ok []
  | d => do
    let entries ← mapping origin "configuration" d
    onlyKeys origin topKeys "unknown top-level keys " entries
    return entries

/-- The imports of a configuration; what counts as nothing is no import, be it a list or not. -/
def imports (entries : List (Document × Document)) : Except ConfigProblem (List Document) :=
  let d := (Document.lookup? "import" entries).getD .null
  if d.isBlank then .ok [] else list origin "import" d

/-- The glob of the import at a place. An import may have other keys, which are not looked at. -/
def importGlob (index : Nat) (d : Document) : Except ConfigProblem String := do
  let what := "import[" ++ toString index ++ "]"
  let entries ← mapping origin what d
  text origin (what ++ ".load") ((Document.lookup? "load" entries).getD .null)

/-- Refuses rules of which two have one id. The second of them is reported, without a place. -/
def distinct (seen : List String) : List RuleSpec → Except ConfigProblem Unit
  | [] => .ok ()
  | spec :: specs =>
    if seen.contains spec.id then
      let fault := Fault.of (.config .misshapen (originText origin))
        ("duplicate rule id " ++ Text.quoted spec.id)
      .error (.fault
        { fault with diagnostic := { fault.diagnostic with code := .duplicateRuleId } })
    else distinct (spec.id :: seen) specs

end

end Schema

end ShapeLint
