import ShapeLint.Pattern.Compile
import ShapeLint.Pattern.Match

/-!
# Rules

A rule flags the nodes that one of its patterns matches, unless one of its justifications matches
too. It is written with its patterns as text and compiled as a whole: the first text that does not
compile, patterns before justifications, disables the rule.
-/

namespace ShapeLint

/-- A rule as it is written: its id and message, the texts of its patterns and justifications, its
tags, and snippets that it must flag and must not flag. -/
structure RuleSpec where
  id : String
  message : String := ""
  patterns : List String
  justifications : List String := []
  tags : List String := []
  before : List String := []
  after : List String := []
deriving Inhabited, DecidableEq

/-- A compiled rule: what it flags and what it excuses, with the texts that these were compiled
from, and all else as it is written. -/
structure Rule where
  id : String
  message : String
  patterns : List Kind
  justifications : List Kind := []
  patternTexts : List String := []
  justificationTexts : List String := []
  tags : List String := []
  before : List String := []
  after : List String := []
deriving Inhabited

/-- Why a rule cannot be made: it has no patterns, or one of its texts does not compile. -/
inductive RuleFailure where
  | noPatterns (id : String)
  | badPattern (fault : Fault)
deriving Inhabited

/-- The message of a failure; where a text does not compile, that of its fault. -/
def RuleFailure.message : RuleFailure → String
  | .noPatterns id => "rule " ++ Text.quoted id ++ " has no patterns"
  | .badPattern fault => fault.message

namespace Rule

/-- A rule, which must have patterns. -/
def checked (r : Rule) : Except RuleFailure Rule :=
  if r.patterns.isEmpty then .error (.noPatterns r.id) else .ok r

/-- The kinds of several texts of a rule, or the first that does not compile, with the rule noted in
it. -/
def compileTexts (id : String) (texts : List String) : Except Fault (List Kind) :=
  texts.mapM fun text => (Pattern.compile text).mapError (·.forRule id)

/-- The rule that a written rule denotes. Patterns are compiled before justifications, and that
there are none is told last. -/
def compile (spec : RuleSpec) : Except RuleFailure Rule :=
  match compileTexts spec.id spec.patterns with
  | .error fault => .error (.badPattern fault)
  | .ok patterns =>
    match compileTexts spec.id spec.justifications with
    | .error fault => .error (.badPattern fault)
    | .ok justifications =>
      checked
        { id := spec.id, message := spec.message, patterns, justifications,
          patternTexts := spec.patterns
          justificationTexts := spec.justifications, tags := spec.tags, before :=
            spec.before, after := spec.after }

/-- Whether some kind matches a visit; the first that does ends the search. -/
def someMatch (v : Visit) : List Kind → Except MatchFailure Bool
  | [] => .ok false
  | k :: ks =>
    match k.matchesVisit v with
    | .ok false => someMatch v ks
    | other => other

/-- Whether a rule flags a visited node. Justifications are tested only where a pattern matches, so
one that cannot be tested does no harm elsewhere. -/
def applies (r : Rule) (v : Visit) : Except MatchFailure Bool :=
  match someMatch v r.patterns with
  | .ok true => (someMatch v r.justifications).map (!·)
  | other => other

/-- The first line of the message. -/
def summary (r : Rule) : String :=
  String.ofList ((Text.lines (Text.trim r.message.toList)).headD [])

end Rule

end ShapeLint
