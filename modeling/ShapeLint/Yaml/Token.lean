import ShapeLint.Yaml.Scalar

/-!
# YAML tokens

The tokens of a text. Blocks have no brackets of their own: a block starts where something stands
further to the right than the blocks around it and ends before something that stands further to the
left. A key is known as one only by the colon after it, so the place of a possible key is kept, and
the key's token is put in there when the colon is found.
-/

namespace ShapeLint.Yaml

/-- What a token is: a directive with its name and values, a mark that starts or ends a document,
the start or the end of a list or mapping, as a block or in brackets and braces, a comma, a hyphen
in front of an item, the sign that a key or a value follows, a name given or used, a tag, or a
scalar, plain or not. -/
inductive TokenKind where
  | directive (name : String) (values : List String)
  | documentStart
  | documentEnd
  | blockList
  | blockMap
  | blockEnd
  | flowList
  | flowListEnd
  | flowMap
  | flowMapEnd
  | flowEntry
  | blockEntry
  | key
  | value
  /-- What stands for what was named before. -/
  | alias (name : String)
  /-- A name for what follows. -/
  | anchor (name : String)
  /-- A tag for what follows, by a handle and the rest, or in full. -/
  | tag (handle? : Option String) (suffix : String)
  | scalar (isPlain : Bool) (text : String)
deriving DecidableEq, Inhabited

/-- A token and where it starts, with line and column counted from zero. -/
structure Token where
  kind : TokenKind
  line : Nat
  column : Nat
deriving Inhabited

/-- A token that may turn out to be a key: how many tokens and how many characters are before it,
and its line and column. -/
structure PossibleKey where
  place : Nat
  /-- Whether it must be one, as what stands right where a mapping is indented to must. -/
  isRequired : Bool
  index : Nat
  line : Nat
  column : Nat
deriving Inhabited

/-- The state of cutting a text into tokens: the tokens so far, the blocks and brackets that are
open, whether a key may start at hand, and what may turn out to be keys. -/
structure Lexer where
  tokens : Array Token := #[]
  /-- The column that the block at hand is indented to, negative outside of all. -/
  indent : Int := -1
  outer : List Int := []
  flow : Nat := 0
  allowsKey : Bool := true
  /-- The possible keys by the number of brackets and braces that are open. -/
  keys : List (Nat × PossibleKey) := []
deriving Inhabited

/-- Cuts a text into tokens. -/
abbrev Lexing := StateT Lexer Scanner

namespace Lexing

/-- Adds a token at the place at hand. -/
def emit (kind : TokenKind) : Lexing Unit := do
  let c ← getThe Cursor
  modify fun l => { l with tokens := l.tokens.push ⟨kind, c.line, c.column⟩ }

/-- Adds a token that takes so many characters. -/
def emitPassing (kind : TokenKind) (n : Nat) : Lexing Unit := do
  emit kind
  pass n

/-- Adds a token at a place where others are already. -/
def emitAt (place : Nat) (key : PossibleKey) (kind : TokenKind) : Lexing Unit :=
  modify fun l =>
    { l with tokens := l.tokens.extract 0 place ++ #[⟨kind, key.line, key.column⟩] ++
      l.tokens.extract place l.tokens.size }

/-! ## Possible keys -/

/-- The message for a key without a colon. -/
def keyMessage : String := "could not find expected ':'"

/-- Forgets the possible keys that can be none any more: a key stands on one line and is not too
long. -/
def dropStaleKeys : Lexing Unit := do
  let c ← getThe Cursor
  let isStale (k : PossibleKey) : Bool := k.line != c.line || c.index - k.index > 1024
  let l ← getThe Lexer
  if l.keys.any fun (_, k) => isStale k && k.isRequired then problem keyMessage
  set { l with keys := l.keys.filter fun (_, k) => !isStale k }

/-- Forgets the possible key at hand. -/
def dropKey : Lexing Unit := do
  let l ← getThe Lexer
  if l.keys.any fun (flow, k) => flow == l.flow && k.isRequired then problem keyMessage
  set { l with keys := l.keys.filter fun (flow, _) => flow != l.flow }

/-- Notes that a key may start at hand. -/
def noteKey : Lexing Unit := do
  if (← getThe Lexer).allowsKey then
    dropKey
    let c ← getThe Cursor
    let l ← getThe Lexer
    let key : PossibleKey :=
      { place := l.tokens.size, isRequired := l.flow == 0 && l.indent == c.column, index := c.index,
        line := c.line
        column := c.column }
    set { l with keys := (l.flow, key) :: l.keys }

/-- Says whether a key may start at hand. -/
def allowKey (allows : Bool) : Lexing Unit :=
  modify fun l => { l with allowsKey := allows }

/-! ## Blocks -/

/-- Ends the blocks that are indented further than a column. -/
def endBlocksFrom (column : Int) : List Int → Int → Lexing (Int × List Int)
  | [], indent => return (indent, [])
  | outer :: outers, indent =>
    if column < indent then do
      emit .blockEnd
      endBlocksFrom column outers outer
    else return (indent, outer :: outers)

/-- Ends the blocks that are indented further than a column, unless brackets or braces are open. -/
def endBlocks (column : Int) : Lexing Unit := do
  let l ← getThe Lexer
  if l.flow == 0 then
    let (indent, outer) ← endBlocksFrom column l.outer l.indent
    modify fun l => { l with indent, outer }

/-- Starts a block at a column if that is further than the block at hand, and says whether it
does. -/
def startBlock (column : Nat) : Lexing Bool := do
  let l ← getThe Lexer
  if l.indent < column then
    set { l with indent := (column : Int), outer := l.indent :: l.outer }
    return true
  else return false

/-! ## Single tokens -/

/-- Ends all blocks before something that belongs to no document. -/
def leaveDocument : Lexing Unit := do
  endBlocks (-1)
  dropKey
  allowKey false

/-- A bracket or brace opens. -/
def openFlow (kind : TokenKind) : Lexing Unit := do
  noteKey
  modify fun l => { l with flow := l.flow + 1 }
  allowKey true
  emitPassing kind 1

/-- A bracket or brace closes. -/
def closeFlow (kind : TokenKind) : Lexing Unit := do
  dropKey
  let l ← getThe Lexer
  if l.flow == 0 then problem "found a closing bracket that was not opened"
  set { l with flow := l.flow - 1 }
  allowKey false
  emitPassing kind 1

/-- A comma. -/
def comma : Lexing Unit := do
  allowKey true
  dropKey
  emitPassing .flowEntry 1

/-- Starts a block for something at hand, where a key may start. -/
def startBlockFor (kind : TokenKind) (message : String) : Lexing Unit := do
  let l ← getThe Lexer
  if l.flow == 0 then
    if !l.allowsKey then problem message
    if ← startBlock (← getThe Cursor).column then emit kind

/-- A hyphen in front of an item. -/
def item : Lexing Unit := do
  startBlockFor .blockList "sequence entries are not allowed here"
  allowKey true
  dropKey
  emitPassing .blockEntry 1

/-- A question mark in front of a key. -/
def explicitKey : Lexing Unit := do
  startBlockFor .blockMap "mapping keys are not allowed here"
  allowKey ((← getThe Lexer).flow == 0)
  dropKey
  emitPassing .key 1

/-- A colon in front of a value: what is before it on the line may turn out to be a key. -/
def colon : Lexing Unit := do
  let l ← getThe Lexer
  match l.keys.lookup l.flow with
  | some key =>
    set { l with keys := l.keys.filter fun (flow, _) => flow != l.flow }
    emitAt key.place key .key
    if l.flow == 0 then
      if ← startBlock key.column then emitAt key.place key .blockMap
    allowKey false
  | none =>
    startBlockFor .blockMap "mapping values are not allowed here"
    allowKey ((← getThe Lexer).flow == 0)
    dropKey
  emitPassing .value 1

/-! ## Tokens with a text -/

/-- Whether a character may be part of a name. -/
def isNamePart (c : Char) : Bool :=
  c.isAlphanum || c == '-' || c == '_'

/-- Reads the name of an anchor or an alias. -/
def readName : Lexing String := do
  pass 1
  let name ← readWhile isNamePart
  if name.isEmpty then problem "expected alphabetic or numeric character"
  let c? ← peek 0
  if !(atBlankEnd c? || c?.any fun c => "?:,]\x7d%@\x60".toList.contains c) then
    problem "expected alphabetic or numeric character"
  return String.ofList name

/-- Adds a token with what is read at hand, which may be a key. -/
def emitRead (read : Lexing TokenKind) : Lexing Unit := do
  noteKey
  allowKey false
  let c ← getThe Cursor
  let kind ← read
  modify fun l => { l with tokens := l.tokens.push ⟨kind, c.line, c.column⟩ }

/-- Whether a character may be part of a tag. -/
def isTagPart (c : Char) : Bool :=
  c.isAlphanum || "-;/?:@&=+$,_.!~*'()[]%".toList.contains c

/-- Reads the rest of a tag. -/
def readTagSuffix : Lexing String := do
  let suffix ← readWhile isTagPart
  if suffix.isEmpty then problem "expected URI"
  return String.ofList suffix

/-- Reads a tag. -/
def readTag : Lexing TokenKind := do
  let rest := (← getThe Cursor).rest.tail
  let kind ←
    if rest.head? == some '<' then do
      pass 2
      let suffix ← readTagSuffix
      if (← peek 0) != some '>' then problem "expected '>'"
      pass 1
      pure (.tag none suffix)
    else if atBlankEnd rest.head? then do
      pass 1
      pure (.tag none "!")
    else do
      let name := rest.takeWhile isNamePart
      if (rest.drop name.length).head? == some '!' then
        pass (name.length + 2)
        pure (.tag (some (String.ofList ('!' :: name ++ ['!']))) (← readTagSuffix))
      else
        pass 1
        pure (.tag (some "!") (← readTagSuffix))
  if !atSpaceEnd (← peek 0) then problem "expected ' '"
  return kind

/-- Reads a directive: its name and the words after it. -/
def directive : Lexing Unit := do
  leaveDocument
  let c ← getThe Cursor
  pass 1
  let name ← readWhile isNamePart
  if name.isEmpty || !atSpaceEnd (← peek 0) then problem "expected alphabetic or numeric character"
  let line ← readLine
  let words := ((String.ofList (line.takeWhile (· != '#'))).splitOn " ").filter (· != "")
  modify fun l =>
    { l with tokens := l.tokens.push ⟨.directive (String.ofList name) words, c.line, c.column⟩ }

/-- A block scalar. -/
def block (isFolded : Bool) : Lexing Unit := do
  allowKey true
  dropKey
  let c ← getThe Cursor
  let text ← readBlock isFolded (← getThe Lexer).indent
  modify fun l =>
    { l with tokens := l.tokens.push ⟨.scalar false (String.ofList text), c.line, c.column⟩ }

/-- A plain scalar; a key may start after it if a line ended there. -/
def plain : Lexing Unit := do
  noteKey
  let c ← getThe Cursor
  let l ← getThe Lexer
  let (text, passesLine) ← readPlain (l.flow != 0) l.indent
  allowKey passesLine
  modify fun l =>
    { l with tokens := l.tokens.push ⟨.scalar true (String.ofList text), c.line, c.column⟩ }

/-! ## All tokens -/

/-- The characters that cannot start a plain scalar. -/
def indicators : List Char :=
  "-?:,[]\x7b\x7d#&*!|>'\"%@\x60".toList

/-- Whether a plain scalar starts at hand. -/
def startsPlain (inFlow : Bool) (c : Char) (next? : Option Char) : Bool :=
  !(atBlankEnd (some c) || indicators.contains c)
    || (!atBlankEnd next? && (c == '-' || (!inFlow && (c == '?' || c == ':'))))

/-- Passes spaces, comments and line ends in front of the next token. -/
def toNextToken : Lexing Unit := do
  let c ← getThe Cursor
  if c.index == 0 && c.rest.head? == some '\ufeff' then pass 1
  let passedLine ← (repeating false fun passed => do
    let _ ← readWhile (· == ' ')
    if (← peek 0) == some '#' then let _ ← readLine
    if atBreak (← peek 0) then
      let _ ← readBreak
      return (true, false)
    else return (passed, true) : Scanner Bool)
  if passedLine && (← getThe Lexer).flow == 0 then allowKey true

/-- Adds the next token, and says whether the text is at its end. Blocks that are over end first. -/
def step : Lexing Bool := do
  toNextToken
  dropStaleKeys
  endBlocks (← getThe Cursor).column
  let l ← getThe Lexer
  let inFlow := l.flow != 0
  let atMark ← if (← getThe Cursor).column == 0 then atDocumentMark else pure false
  match (← getThe Cursor).rest with
  | [] => leaveDocument; return true
  | c :: rest =>
    let next? := rest.head?
    let blankNext := inFlow || atBlankEnd next?
    if c == '%' && (← getThe Cursor).column == 0 then directive
    else if atMark then
      leaveDocument
      emitPassing (if c == '-' then .documentStart else .documentEnd) 3
    else if c == '[' then openFlow .flowList
    else if c == '\x7b' then openFlow .flowMap
    else if c == ']' then closeFlow .flowListEnd
    else if c == '\x7d' then closeFlow .flowMapEnd
    else if c == ',' then comma
    else if c == '-' && atBlankEnd next? then item
    else if c == '?' && blankNext then explicitKey
    else if c == ':' && blankNext then colon
    else if c == '*' then emitRead do return .alias (← readName)
    else if c == '&' then emitRead do return .anchor (← readName)
    else if c == '!' then emitRead readTag
    else if c == '|' && !inFlow then block false
    else if c == '>' && !inFlow then block true
    else if c == '\'' || c == '"'
      then emitRead do return .scalar false (String.ofList (← readQuoted c))
    else if startsPlain inFlow c next? then plain
    else problem "found a character that cannot start any token"
    return false

/-- Adds all tokens; each step reads something. -/
def all : Nat → Lexing Unit
  | 0 => return
  | limit + 1 => do
    if ← step then return
    all limit

end Lexing

/-- Whether a character may stand in a text at all. -/
def isPrintable (c : Char) : Bool :=
  let n := c.toNat
  n == 0x9 || n == 0xA || n == 0xD || (0x20 ≤ n && n ≤ 0x7E) || n == 0x85 ||
    (0xA0 ≤ n && n ≤ 0xFFFD) || 0x10000 ≤ n

/-- The tokens of a text. -/
def tokens (s : List Char) : Except Problem (List Token) :=
  if s.all isPrintable then
    match (Lexing.all (s.length + 1)).run {} |>.run { rest := s } with
    | .ok ((_, lexer), _) => .ok lexer.tokens.toList
    | .error e => .error e
  else .error ⟨"special characters are not allowed", 0, 0⟩

end ShapeLint.Yaml
