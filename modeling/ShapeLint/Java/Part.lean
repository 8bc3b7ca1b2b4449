import ShapeLint.Java.Token
import ShapeLint.Java.Tree

/-!
# Parts of a grammar

A part reads tokens and gives the trees it has read, in order, or fails. Rules are written as lists
of parts, and a choice takes the first part that succeeds. Trees carry all their tokens, and a tree
reaches from its first token to its last.
-/

namespace ShapeLint.Java

/-- Reads from a list of tokens, and may fail. What a failed reader has read is given back. -/
abbrev Reader := StateT (List Token) Option

/-- Reads trees. -/
abbrev Part := Reader (List Tree)

namespace Tree

/-- The tree of a token. -/
def ofToken (type : String) (isNamed : Bool) (t : Token) : Tree :=
  { type, isNamed, start := t.start, stop := t.stop }

/-- A tree over others, from the start of the first to the end of the last. -/
def joined (type : String) (children : List Tree) : Tree :=
  { type
    start := (children.head?.map (·.start)).getD 0
    stop := (children.getLast?.map (·.stop)).getD 0
    children }

/-- A tree that fills a field. -/
def inField (field : String) (t : Tree) : Tree :=
  { t with field? := some field }

end Tree

/-! ## Tokens -/

/-- The next token, which is not read. -/
def next? : Reader (Option Token) := do
  return (← get).head?

/-- Whether the token at a distance has a text, and is no literal. A string with that text is
something else. -/
def isAt (distance : Nat) (text : String) : Reader Bool := do
  match (← get)[distance]? with
  | some t => return t.text == text && (t.kind == .word || t.kind == .symbol)
  | none => return false

/-- Reads a token that passes a test. -/
def tokenWhere (p : Token → Bool) : Reader Token := do
  match ← get with
  | t :: rest => if p t then set rest; return t else failure
  | [] => failure

/-- A word or a symbol that stands for itself. -/
def tok (text : String) : Part := do
  let t ← tokenWhere fun t => t.text == text && (t.kind == .word || t.kind == .symbol)
  return [.ofToken text false t]

/-- One of several words or symbols that stand for themselves. -/
def tokIn (texts : List String) : Part := do
  let t ← tokenWhere fun t => texts.contains t.text && (t.kind == .word || t.kind == .symbol)
  return [.ofToken t.text false t]

/-- A word as a tree of its own. -/
def leaf (type word : String) : Part := do
  let t ← tokenWhere fun t => t.kind == .word && t.text == word
  return [.ofToken type true t]

/-- Succeeds without reading if a test does. -/
def require (test : Reader Bool) : Part := do
  if ← test then return [] else failure

/-! ## Combinations -/

/-- Parts one after another. -/
def parts : List Part → Part
  | [] => return []
  | p :: ps => do
    let first ← p
    let others ← parts ps
    return first ++ others

/-- The first part that succeeds. What it has read is kept, although another one might have made
more of the rest. -/
def choice : List Part → Part
  | [] => failure
  | p :: ps => p <|> choice ps

/-- Parts that may be left out. -/
def opt (ps : List Part) : Part :=
  parts ps <|> return []

/-- Repeats a step from a value on as long as it succeeds and reads something, and at most so many
times. -/
def repeatFrom {α : Type} (step : α → Reader α) : Nat → α → Reader α
  | 0, a => return a
  | limit + 1, a => fun tokens =>
    match step a tokens with
    | some (b, rest) =>
      if rest.length < tokens.length then repeatFrom step limit b rest else some (a, tokens)
    | none => some (a, tokens)

/-- Repeats a step from a value on as long as it succeeds and reads something. Each round reads a
token, so there are no more rounds than tokens. -/
def chain {α : Type} (first : α) (step : α → Reader α) : Reader α := do
  repeatFrom step (← get).length first

/-- Parts any number of times. -/
def many (ps : List Part) : Part := do
  let found ← chain ([] : List (List Tree)) fun found => do
    return (← parts ps) :: found
  return found.reverse.flatten

/-- Parts at least once. -/
def some1 (ps : List Part) : Part :=
  parts (ps ++ [many ps])

/-- A part several times, with a separator between. -/
def separated (separator : String) (p : Part) : Part :=
  parts [p, many [tok separator, p]]

/-- A tree over parts. Its children are all trees that these give, tokens included. -/
def rule (type : String) (ps : List Part) : Part := do
  return [.joined type (← parts ps)]

/-- A part whose trees fill a field. All of them do, tokens included. -/
def field (name : String) (p : Part) : Part := do
  return (← p).map (·.inField name)

/-- Exactly one tree. -/
def single (p : Part) : Reader Tree := do
  match ← p with
  | [t] => return t
  | _ => failure

/-! ## Names -/

/-- The words that are never names. -/
def reservedWords : List String :=
  ["abstract", "assert", "boolean", "break", "byte", "case", "catch", "char", "class", "const",
    "continue", "default", "do",
    "double", "else", "enum", "extends", "false", "final", "finally", "float", "for", "goto", "if",
      "implements", "import",
    "instanceof", "int", "interface", "long", "native", "new", "null", "package", "private",
      "protected", "public", "return",
    "short", "static", "strictfp", "super", "switch", "synchronized", "this", "throw", "throws",
      "transient", "true", "try",
    "void", "volatile", "while"]

/-- A name as a tree of a type. -/
def nameAs (type : String) : Part := do
  let t ← tokenWhere fun t => t.kind == .word && !reservedWords.contains t.text
  return [.ofToken type true t]

/-- A name. -/
def identifier : Part := nameAs "identifier"

/-- A name that is declared; an underscore declares none. -/
def declaredName : Part :=
  choice [leaf "underscore_pattern" "_", identifier]

/-- A name of a package, a type or a module: names divided by points. -/
def qualifiedName : Part := do
  let first ← single identifier
  let name ← chain first fun scope => do
    let dot ← tok "."
    let name ← identifier
    return .joined "scoped_identifier" (scope.inField "scope" :: dot ++ name.map (·.inField "name"))
  return [name]

end ShapeLint.Java
