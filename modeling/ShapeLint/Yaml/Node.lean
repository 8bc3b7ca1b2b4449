import ShapeLint.Yaml.Token

/-!
# YAML nodes

How tokens make up the node of a document. A node is a scalar, a list or a mapping with the tag that
it was given. An alias is replaced by the node that was named before. A text holds at most one
document.
-/

namespace ShapeLint.Yaml

/-- A node of a document: a scalar, plain or not, a list, or a mapping, each with the tag that it
was given. -/
inductive Node where
  | scalar (tag? : Option String) (isPlain : Bool) (text : String)
  | list (tag? : Option String) (items : List Node)
  | map (tag? : Option String) (entries : List (Node × Node))
deriving Inhabited

namespace Node

/-- The node where nothing is written. -/
def empty : Node :=
  .scalar none true ""

end Node

/-- The state of reading nodes: the tokens that are left, the nodes that were named, and what the
handles of tags stand for. -/
structure Parser where
  tokens : List Token
  anchors : List (String × Node) := []
  handles : List (String × String) := []

/-- Reads nodes from tokens. -/
abbrev Parsing := StateT Parser (Except Problem)

namespace Parsing

/-- Finds a problem at the next token. -/
def reject {α : Type} (message : String) : Parsing α := do
  match (← get).tokens with
  | t :: _ => throw ⟨message, t.line, t.column⟩
  | [] => throw ⟨message, 0, 0⟩

/-- What the next token is. -/
def next? : Parsing (Option TokenKind) := do
  return (← get).tokens.head?.map (·.kind)

/-- Whether the next token is one of several. -/
def isNext (kinds : List TokenKind) : Parsing Bool := do
  match ← next? with
  | some kind => return kinds.contains kind
  | none => return false

/-- Whether there is no token left. -/
def atEnd : Parsing Bool := do
  return (← get).tokens.isEmpty

/-- Passes a token. -/
def skip : Parsing Unit :=
  modify fun p => { p with tokens := p.tokens.tail }

/-- Passes a token if it is the next one, and says whether it is. -/
def accept (kind : TokenKind) : Parsing Bool := do
  if ← isNext [kind] then
    skip
    return true
  else return false

/-! ## Properties -/

/-- The handles that are always there. -/
def standardHandles : List (String × String) :=
  [("!", "!"), ("!!", "tag:yaml.org,2002:")]

/-- The tag that a handle and the rest stand for. -/
def expandTag (handle? : Option String) (suffix : String) : Parsing String := do
  match handle? with
  | none => return suffix
  | some handle =>
    match ((← get).handles ++ standardHandles).lookup handle with
    | some lead => return lead ++ suffix
    | none => reject "found undefined tag handle"

/-- What is said of a node before it: a name and a tag. -/
structure Properties where
  anchor? : Option String := none
  tag? : Option String := none

/-- Reads a name, if there is one. -/
def readAnchor (p : Properties) : Parsing Properties := do
  match ← next? with
  | some (.anchor name) =>
    skip
    if ((← get).anchors.lookup name).isSome then reject "found duplicate anchor"
    return { p with anchor? := some name }
  | _ => return p

/-- Reads a tag, if there is one. -/
def readTag (p : Properties) : Parsing Properties := do
  match ← next? with
  | some (.tag handle? suffix) =>
    skip
    return { p with tag? := some (← expandTag handle? suffix) }
  | _ => return p

/-- Reads a name and a tag, in either order. -/
def readProperties : Parsing Properties := do
  match ← next? with
  | some (.tag _ _) => readAnchor (← readTag {})
  | _ => readTag (← readAnchor {})

/-! ## Collections

A collection is read item by item up to its end. Each item is read by what is given, and no item is
read without reading a token. -/

/-- Repeats a step that gives an item as long as there is one. -/
def collect {α : Type} (step : Parsing (Option α)) : Nat → List α → Parsing (List α)
  | 0, found => return found.reverse
  | limit + 1, found => do
    match ← step with
    | some a => collect step limit (a :: found)
    | none => return found.reverse

/-- Repeats a step that gives an item as long as there is one. -/
def collected {α : Type} (step : Parsing (Option α)) : Parsing (List α) := do
  collect step ((← get).tokens.length + 1) []

/-- A node unless one of several tokens follows, and nothing written otherwise. -/
def unlessNext (kinds : List TokenKind) (node : Parsing Node) : Parsing Node := do
  if ← isNext kinds then return .empty else node

/-- An item of a list that is a block. -/
def blockItem (node : Parsing Node) : Parsing (Option Node) := do
  if ← accept .blockEntry then return some (← unlessNext [.blockEntry, .blockEnd] node)
  else if ← accept .blockEnd then return none
  else reject "expected <block end>"

/-- An item of a list that is not indented further than the mapping it is in. -/
def looseItem (node : Parsing Node) : Parsing (Option Node) := do
  if ← accept .blockEntry
    then return some (← unlessNext [.blockEntry, .key, .value, .blockEnd] node) else return none

/-- The value in a mapping that is a block. -/
def blockValue (node : Parsing Node) : Parsing Node := do
  if ← accept .value then unlessNext [.key, .value, .blockEnd] node else return .empty

/-- An entry of a mapping that is a block. -/
def blockEntry (node : Parsing Node) : Parsing (Option (Node × Node)) := do
  if ← accept .key then
    let key ← unlessNext [.key, .value, .blockEnd] node
    return some (key, ← blockValue node)
  else if ← accept .blockEnd then return none
  else reject "expected <block end>"

/-- Whether an item in brackets or braces follows, after a comma unless it is the first. -/
def flowGoesOn (closing : TokenKind) (isFirst : Bool) : Parsing Bool := do
  if ← accept closing then return false
  if !isFirst then
    if !(← accept .flowEntry) then reject "expected ',' or a closing bracket"
    if ← accept closing then return false
  return true

/-- The value in brackets or braces. -/
def flowValue (closing : TokenKind) (node : Parsing Node) : Parsing Node := do
  if ← accept .value then unlessNext [.flowEntry, closing] node else return .empty

/-- An item in brackets. A key makes a mapping of one entry. -/
def flowItem (node : Parsing Node) : Parsing Node := do
  if ← accept .key then
    let key ← unlessNext [.value, .flowEntry, .flowListEnd] node
    return .map none [(key, ← flowValue .flowListEnd node)]
  else node

/-- An entry in braces. Without a key, it is a key without a value. -/
def flowEntry (node : Parsing Node) : Parsing (Node × Node) := do
  if ← accept .key then
    let key ← unlessNext [.value, .flowEntry, .flowMapEnd] node
    return (key, ← flowValue .flowMapEnd node)
  else return (← node, .empty)

/-- Items in brackets or braces. -/
def flowItems {α : Type} (closing : TokenKind) (item : Parsing α) : Parsing (List α) := do
  if !(← flowGoesOn closing true) then return []
  let first ← item
  let others ← collected do
    if ← flowGoesOn closing false then return some (← item) else return none
  return first :: others

/-! ## Nodes -/

/-- Where a node stands: in brackets or braces, in a block, or in a mapping that is a block. -/
inductive Place where
  | flow
  | block
  /-- Here a list need not be indented further than the mapping. -/
  | blockMap
deriving DecidableEq, Inhabited

/-- Reads the node that follows its properties, given how nested ones are read. -/
def readContent (place : Place) (p : Properties) (node : Place → Parsing Node) : Parsing Node := do
  let tag? := if p.tag? == some "!" then none else p.tag?
  if place == .blockMap && (← isNext [.blockEntry]) then
    return .list tag? (← collected (looseItem (node .block)))
  match ← next? with
  | some (.scalar isPlain text) =>
    skip
    return .scalar tag? (isPlain || p.tag? == some "!") text
  | some .flowList =>
    skip
    return .list tag? (← flowItems .flowListEnd (flowItem (node .flow)))
  | some .flowMap =>
    skip
    return .map tag? (← flowItems .flowMapEnd (flowEntry (node .flow)))
  | some .blockList =>
    if place == .flow then reject "expected the node content"
    skip
    return .list tag? (← collected (blockItem (node .block)))
  | some .blockMap =>
    if place == .flow then reject "expected the node content"
    skip
    return .map tag? (← collected (blockEntry (node .blockMap)))
  | _ =>
    if p.anchor?.isSome || p.tag?.isSome then return .scalar tag? true ""
    else reject "expected the node content"

/-- Reads a node; `level` bounds how deep nodes are nested. A name stands for its node only behind
it, so no node holds itself. -/
def node : Nat → Place → Parsing Node
  | 0, _ => reject "found too many nested nodes"
  | level + 1, place => do
    match ← next? with
    | some (.alias name) =>
      match (← get).anchors.lookup name with
      | some n =>
        skip
        return n
      | none => reject "found undefined alias"
    | _ =>
      let p ← readProperties
      let n ← readContent place p (node level)
      match p.anchor? with
      | some name => modify fun s => { s with anchors := (name, n) :: s.anchors }
      | none => pure ()
      return n

/-! ## Documents -/

/-- Whether a text is the number of a version that can be read. -/
def isVersion (s : String) : Bool :=
  match s.splitOn "." with
  | ["1", minor] => minor != "" && minor.toList.all Char.isDigit
  | _ => false

/-- Takes note of the directives of a document. -/
def directives : Nat → Bool → Parsing Unit
  | 0, _ => return
  | limit + 1, seenVersion => do
    match ← next? with
    | some (.directive "YAML" values) =>
      if seenVersion then reject "found duplicate YAML directive"
      if !(values.length == 1 && values.all isVersion)
        then reject "found incompatible YAML document"
      skip
      directives limit true
    | some (.directive "TAG" values) =>
      match values with
      | [handle, lead] =>
        if ((← get).handles.lookup handle).isSome then reject "duplicate tag handle"
        modify fun p => { p with handles := (handle, lead) :: p.handles }
        skip
        directives limit seenVersion
      | _ => reject "expected ' '"
    | some (.directive _ _) =>
      skip
      directives limit seenVersion
    | _ => return

/-- Passes the marks that end documents. -/
def skipEnds : Parsing Unit := do
  let _ ← collected do
    if ← accept .documentEnd then return some () else return none

/-- Whether a directive follows. -/
def isDirective : Parsing Bool := do
  match ← next? with
  | some (.directive _ _) => return true
  | _ => return false

/-- Reads the document after the mark that starts it. -/
def afterMark : Parsing Node := do
  if (← atEnd) || (← isDirective) || (← isNext [.documentStart, .documentEnd]) then return .empty
  node (← get).tokens.length .block

/-- Reads the only document of a text, if there is one. -/
def document : Parsing (Option Node) := do
  if ← atEnd then return none
  let root ←
    if (← isDirective) || (← isNext [.documentStart]) then do
      directives (← get).tokens.length false
      if !(← accept .documentStart) then reject "expected '<document start>'"
      afterMark
    else node (← get).tokens.length .block
  let _ ← accept .documentEnd
  skipEnds
  if !(← atEnd) then reject "expected a single document"
  return some root

end Parsing

/-- The node of the only document of a text, if there is one. -/
def parse (s : List Char) : Except Problem (Option Node) := do
  let ts ← tokens s
  Parsing.document.run' { tokens := ts }

end ShapeLint.Yaml
