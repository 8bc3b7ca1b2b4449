import ShapeLint.Log
import ShapeLint.Pattern.Display
import ShapeLint.Rule.Basic

/-!
# What the log is told of rules

Each text of a rule that compiles is told to the log with what it denotes, and so is the rule once
all of them have.
-/

namespace ShapeLint.RuleSpec

/-- The entries for texts that compile, up to the first that does not. -/
def textEntries : List String → List LogEntry
  | [] => []
  | text :: texts =>
    match Pattern.compile text with
    | .ok kind =>
      ⟨.debug, .compiler, "compiled " ++ Text.quoted text ++ " -> " ++ kind.display⟩ ::
        textEntries texts
    | .error _ => []

/-- The entry for a rule that compiles. -/
def ruleEntry (rule : Rule) : LogEntry :=
  ⟨.debug, .rules,
    "compiled rule " ++ rule.id ++ " (" ++ toString rule.patterns.length ++ " patterns, "
    ++ toString rule.justifications.length ++ " justifications)"⟩

/-- The entries for a rule. -/
def entries (spec : RuleSpec) : List LogEntry :=
  textEntries (spec.patterns ++ spec.justifications) ++
    match Rule.compile spec with
    | .ok rule => [ruleEntry rule]
    | .error _ => []

end ShapeLint.RuleSpec
