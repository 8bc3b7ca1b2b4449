import ShapeLint.Rule.Basic
import ShapeLint.Script

/-!
# Examples

A rule may come with snippets of code that it must flag and snippets that it must not flag. A
snippet is put into the body of a method and parsed as a source of its own.
-/

namespace ShapeLint

/-- Which kind of example a snippet is: one that the rule must flag, or one that it must not
flag. -/
inductive Section where
  | before
  | after
deriving DecidableEq, Inhabited

/-- The word for a section. -/
def Section.word : Section → String
  | before => "before"
  | after => "after"

/-- What came of an example: the rule and the snippet, how many nodes are flagged, and why it could
not be parsed if it could not. -/
structure Example where
  rule : String
  kind : Section
  /-- The place in its section, counted from zero. -/
  index : Nat
  snippet : String
  matched : Nat
  fault? : Option Fault := none
deriving Inhabited

namespace Example

/-- Whether an example is as it must be. One that could not be parsed is not. -/
def passed (e : Example) : Bool :=
  match e.fault?, e.kind with
  | some _, _ => false
  | none, .before => 0 < e.matched
  | none, .after => e.matched == 0

/-- A snippet as the body of a method. -/
def wrap (snippet : String) : String :=
  let lines := (Text.lines snippet.toList).map fun line => List.replicate 8 ' ' ++ line
  "class JavaSeeExample \x7b\n    void example() \x7b\n" ++ String.ofList (Text.joinFeeds lines) ++
    "\n    \x7d\n\x7d\n"

/-- The path under which errors of a snippet are reported. -/
def path (rule : String) (kind : Section) (index : Nat) : String :=
  "<" ++ rule ++ " " ++ kind.word ++ "[" ++ toString index ++ "]>"

/-- Why examples could not be run: a snippet could not be parsed, and not because it is wrong, or a
pattern could not be tested. -/
inductive Failure where
  | parse (failure : Java.ParseFailure)
  | test (failure : MatchFailure)
deriving Inhabited

/-- How many nodes of a tree a rule flags. -/
def count (rule : Rule) : List Visit → Except MatchFailure Nat
  | [] => .ok 0
  | visit :: visits =>
    match rule.applies visit with
    | .error e => .error e
    | .ok flagged => (count rule visits).map fun n => if flagged then n + 1 else n

/-- An example, and the tree of its snippet if it could be parsed. -/
def check (rule : Rule) (kind : Section) (index : Nat) (snippet : String) :
    Except Failure (Example × Option Node) :=
  let blank : Example := { rule := rule.id, kind, index, snippet, matched := 0 }
  match Java.parse (path rule.id kind index) (.ofString (wrap snippet)) with
  | .error (.rejected fault) => .ok ({ blank with fault? := some fault }, none)
  | .error failure => .error (.parse failure)
  | .ok root =>
    match count rule root.visits with
    | .error e => .error (.test e)
    | .ok matched => .ok ({ blank with matched }, some root)

/-- The snippets of a rule with their sections and places, in the order in which they are run. -/
def snippets (rule : Rule) : List (Section × Nat × String) :=
  rule.before.zipIdx.map (fun (snippet, i) => (.before, i, snippet))
    ++ rule.after.zipIdx.map (fun (snippet, i) => (.after, i, snippet))

/-- All examples of a rule. -/
def checkAll (rule : Rule) : Except Failure (List (Example × Option Node)) :=
  (snippets rule).mapM fun (kind, index, snippet) => check rule kind index snippet

end Example

end ShapeLint
