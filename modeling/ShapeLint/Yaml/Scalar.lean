import ShapeLint.Literal.Quoted
import ShapeLint.Yaml.Cursor

/-!
# YAML scalars

How the text of a scalar is read: a block after `|` or `>`, a quoted scalar, or a plain one. Line
ends inside a scalar are folded: one line end becomes a space, and of several the first is left
away.
-/

namespace ShapeLint.Yaml

/-- What line ends become that are folded: the first counts only if it is a separator beyond ASCII
or the only one. -/
def folded (first : List Char) (others : List Char) : List Char :=
  (if first != ['\n'] then first else if others.isEmpty then [' '] else []) ++ others

/-! ## Blocks -/

/-- What is done with the line ends at the end of a block: the last one stays, none stays, or all
stay. -/
inductive Chomping where
  | clip
  | strip
  | keep
deriving DecidableEq, Inhabited

/-- The chomping that a character asks for. -/
def chomping? : Option Char → Option Chomping
  | some '+' => some .keep
  | some '-' => some .strip
  | _ => none

/-- Reads a digit for the indentation of a block. -/
def readIncrement : Scanner (Option Nat) := do
  match ← peek 0 with
  | some c =>
    if c.isDigit then
      if c == '0' then problem "expected indentation indicator in the range 1-9, but found 0"
      else pass 1; return some (c.toNat - '0'.toNat)
    else return none
  | none => return none

/-- Reads the chomping of a block, if it is asked for. -/
def readChomping : Scanner (Option Chomping) := do
  match chomping? (← peek 0) with
  | some chomping => pass 1; return some chomping
  | none => return none

/-- Reads what is asked of a block: the chomping and the indentation, in either order. -/
def readBlockHeader : Scanner (Chomping × Option Nat) := do
  let before? ← readChomping
  let increment? ← readIncrement
  let after? ← if before?.isNone && increment?.isSome then readChomping else pure none
  if !atSpaceEnd (← peek 0) then problem "expected chomping or indentation indicators"
  return ((before?.or after?).getD .clip, increment?)

/-- Reads the rest of the line after the header of a block, which may only hold a comment. -/
def readHeaderEnd : Scanner Unit := do
  let _ ← readWhile (· == ' ')
  if (← peek 0) == some '#' then let _ ← readLine
  if !atLineEnd (← peek 0) then problem "expected a comment or a line break"
  let _ ← readBreak

/-- Reads the blank lines in front of a block and finds how far the deepest of them or the first
other one is indented. -/
def readLeadingBreaks : Scanner (List Char × Nat) :=
  repeating ([], 0) fun (breaks, deepest) => do
    match ← peek 0 with
    | some ' ' =>
      pass 1
      return ((breaks, max deepest (← get).column), false)
    | c? =>
      if atBreak c? then return ((breaks ++ (← readBreak), deepest), false)
        else return ((breaks, deepest), true)

/-- Passes spaces up to a column. -/
def passIndent (column : Nat) : Scanner Unit := do
  let c ← get
  pass ((c.rest.take (column - c.column)).takeWhile (· == ' ')).length

/-- Reads blank lines inside a block that is indented to a column. -/
def readBlockBreaks (column : Nat) : Scanner (List Char) := do
  passIndent column
  repeating [] fun breaks => do
    if atBreak (← peek 0) then
      let more ← readBreak
      passIndent column
      return (breaks ++ more, false)
    else return (breaks, true)

/-- Whether a line of a block is at hand. -/
def atBlockLine (column : Nat) : Scanner Bool := do
  let c ← get
  return c.column == column && !c.rest.isEmpty

/-- Whether a space or a tab is at hand. -/
def atIndent (c? : Option Char) : Bool :=
  c? == some ' ' || c? == some '\t'

/-- Reads the blank lines in front of a block, and finds the column that it is indented to. -/
def readBlockStart (least : Nat) : Option Nat → Scanner (List Char × Nat)
  | none => do
    let (breaks, deepest) ← readLeadingBreaks
    return (breaks, max least deepest)
  | some n => do
    let column := least + n - 1
    return (← readBlockBreaks column, column)

/-- Reads a block, inside of something that is indented to a column, or to none if that is negative.
Lines that are indented further than the block are not folded. -/
def readBlock (isFolded : Bool) (outer : Int) : Scanner (List Char) := do
  pass 1
  let (chomping, increment?) ← readBlockHeader
  readHeaderEnd
  let least := max 1 (outer + 1).toNat
  let (breaks, column) ← readBlockStart least increment?
  let (text, last, breaks) ← repeating ([], [], breaks) fun (text, last, breaks) => do
    if !(← atBlockLine column) then return ((text, last, breaks), true)
    let startsDeeper := atIndent (← peek 0)
    let line ← readLine
    let text := text ++ breaks ++ line
    let last ← readBreak
    let breaks ← readBlockBreaks column
    if ← atBlockLine column then
      let folds := isFolded && last == ['\n'] && !startsDeeper && !atIndent (← peek 0)
      let between := if folds then if breaks.isEmpty then [' '] else [] else last
      return ((text ++ between, last, breaks), false)
    else return ((text, last, breaks), true)
  match chomping with
  | .strip => return text
  | .clip => return text ++ last
  | .keep => return text ++ last ++ breaks

/-! ## Quoted scalars -/

/-- What the character after a backslash stands for. -/
def escapes : List (Char × Char) :=
  [('0', '\x00'), ('a', '\x07'), ('b', '\x08'), ('t', '\t'), ('\t', '\t'), ('n', '\n'),
    ('v', '\x0b'), ('f', '\x0c'), ('r', '\r'),
    ('e', '\x1b'), (' ', ' '), ('"', '"'), ('\\', '\\'), ('/', '/'), ('N', '\u0085'),
      ('_', '\u00a0'),
    ('L', '\u2028'), ('P', '\u2029')]

/-- How many digits follow a backslash and a letter. -/
def escapeWidths : List (Char × Nat) :=
  [('x', 2), ('u', 4), ('U', 8)]

/-- Reads blank lines inside a quoted scalar. -/
def readQuotedBreaks : Scanner (List Char) :=
  repeating [] fun breaks => do
    if ← atDocumentMark then problem "found unexpected document separator"
    let _ ← readWhile fun c => c == ' ' || c == '\t'
    if atBreak (← peek 0) then return (breaks ++ (← readBreak), false) else return (breaks, true)

/-- Reads an escape after its backslash. -/
def readEscape : Scanner (List Char) := do
  match ← peek 0 with
  | none => problem "found unknown escape character"
  | some c =>
    match escapes.lookup c, escapeWidths.lookup c with
    | some d, _ => pass 1; return [d]
    | none, some width =>
      pass 1
      let digits := ((← get).rest.take width).filterMap Literal.hexDigit?
      if digits.length < width then problem "expected escape sequence of hexadecimal digits"
      pass width
      return [Char.ofNat (digits.foldl (fun n d => 16 * n + d) 0)]
    | none, none =>
      if isBreak c then
        let _ ← readBreak
        readQuotedBreaks
      else problem "found unknown escape character"

/-- Reads what is between spaces in a quoted scalar. Between single quotes only a doubled quote
stands for something else. -/
def readQuotedWord (isDouble : Bool) : Scanner (List Char) :=
  repeating [] fun text => do
    let plain ← readWhile fun c =>
      !(c == '\'' || c == '"' || c == '\\' || c == ' ' || c == '\t' || isBreak c)
    let text := text ++ plain
    match ← peek 0 with
    | some '\'' =>
      if isDouble then pass 1; return (text ++ ['\''], false)
      else if (← peek 1) == some '\'' then pass 2; return (text ++ ['\''], false)
      else return (text, true)
    | some '"' => if isDouble then return (text, true) else pass 1; return (text ++ ['"'], false)
    | some '\\' =>
      pass 1
      if isDouble then return (text ++ (← readEscape), false) else return (text ++ ['\\'], false)
    | _ => return (text, true)

/-- Reads spaces and line ends in a quoted scalar. -/
def readQuotedSpaces : Scanner (List Char) := do
  let spaces ← readWhile fun c => c == ' ' || c == '\t'
  match ← peek 0 with
  | none => problem "found unexpected end of stream"
  | some c =>
    if isBreak c then
      let first ← readBreak
      return folded first (← readQuotedBreaks)
    else return spaces

/-- Reads a quoted scalar. -/
def readQuoted (quote : Char) : Scanner (List Char) := do
  pass 1
  let isDouble := quote == '"'
  let first ← readQuotedWord isDouble
  let text ← repeating first fun text => do
    if (← peek 0) == some quote then return (text, true)
    let spaces ← readQuotedSpaces
    let word ← readQuotedWord isDouble
    return (text ++ spaces ++ word, false)
  pass 1
  return text

/-! ## Plain scalars -/

/-- Whether a plain scalar ends in front of a character, given the one after it. -/
def endsPlain (inFlow : Bool) (c : Char) (next? : Option Char) : Bool :=
  c == ' ' || c == '\t' || isBreak c
    || (c == ':' &&
      (atBlankEnd next? || (inFlow && (next?.any fun d => ",[]\x7b\x7d".toList.contains d))))
    || (inFlow && ",?[]\x7b\x7d".toList.contains c)

/-- How many characters a plain scalar takes before a space or its end. -/
def plainLength (inFlow : Bool) : List Char → Nat
  | [] => 0
  | c :: s => if endsPlain inFlow c s.head? then 0 else 1 + plainLength inFlow s

/-- What was read between two words of a plain scalar: what it becomes, which is nothing if the
scalar ends, and whether a line ended. -/
structure PlainGap where
  text : List Char := []
  passesLine : Bool := false

/-- Reads blank lines and indentation inside a plain scalar; nothing is said if a document mark is
found. -/
def readPlainBreaks : Scanner (Option (List Char)) := do
  if ← atDocumentMark then return none
  repeating (some []) fun breaks? => do
    match breaks? with
    | none => return (none, true)
    | some breaks =>
      match ← peek 0 with
      | some ' ' => pass 1; return (some breaks, false)
      | c? =>
        if atBreak c? then
          let more ← readBreak
          if ← atDocumentMark then return (none, true)
          return (some (breaks ++ more), false)
        else return (some breaks, true)

/-- Reads the spaces and line ends after a word of a plain scalar. -/
def readPlainGap : Scanner PlainGap := do
  let spaces ← readWhile (· == ' ')
  if atBreak (← peek 0) then
    let first ← readBreak
    match ← readPlainBreaks with
    | none => return { passesLine := true }
    | some others => return { text := folded first others, passesLine := true }
  else return { text := spaces }

/-- A plain scalar as far as it is read: its text, what comes before the next word, and whether a
line ended after the last one. -/
structure PlainText where
  text : List Char := []
  gap : List Char := []
  passesLine : Bool := false

/-- Reads a plain scalar, inside of something that is indented to a column. It also says whether a
line ended after it. -/
def readPlain (inFlow : Bool) (outer : Int) : Scanner (List Char × Bool) := do
  let found ← repeating ({} : PlainText) fun found => do
    let length := plainLength inFlow (← get).rest
    if (← peek 0) == some '#' || length == 0 then return (found, true)
    let word := (← get).rest.take length
    pass length
    let gap ← readPlainGap
    let text := found.text ++ found.gap ++ word
    let ends := gap.text.isEmpty || (← peek 0) == some '#' ||
      (!inFlow && (← get).column < (outer + 1).toNat)
    return ({ text, gap := gap.text, passesLine := gap.passesLine }, ends)
  return (found.text, found.passesLine)

end ShapeLint.Yaml
