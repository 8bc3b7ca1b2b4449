import ShapeLint.Pattern.Basic
import ShapeLint.Grammar.Lexeme
import ShapeLint.Grammar.Reader
import ShapeLint.Text.Blank

/-!
# The grammar of patterns

A pattern is one expression of Java's operator language with a few extra forms, and after it, in
brackets, the context it must stand in. Operators bind, from loose to tight: equality, comparison
and type tests, shifts, sums, products, prefix operators, then selectors and postfix steps. Binary
operators associate to the left.

What is read is a `Surface`: an expression that holds the spelling of each literal, and the extent
of each node as the numbers of characters left before and after it. Nothing here looks behind, so a
part reads the same wherever it stands.

Expressions nest through brackets and through prefix operators, and they nest only where there is
room. How much there is and what each `Opening` takes of it is a parameter of the grammar.
-/

namespace ShapeLint.Grammar

open Reader
open ShapeLint.Text (isBlank)

/-- The extent of a node: how many characters are left at its start and at its end. So the extent of
a part does not depend on what stands before it. -/
structure Extent where
  before : Nat
  after : Nat
deriving DecidableEq, Inhabited

/-- A literal as it is spelled, the quotes of a string included. A truth value has but one spelling,
so its value is kept. -/
inductive Spelling where
  | double (text : List Char)
  | integer (text : List Char)
  | string (text : List Char)
  | boolean (value : Bool)
deriving DecidableEq, Inhabited

/-- An expression as it is written. -/
abbrev Surface := Expr Spelling Extent

/-- What follows an operand of a binary operator, and how much is left after it: an operator with
its right operand, or a type test. -/
inductive Tail where
  | operator (op : BinaryOperator) (rhs : Surface) (after : Nat)
  | typeTest (typeName : String) (after : Nat)

/-- What follows a receiver, and how much is left after it: a field, a method call or an index. -/
inductive Selector where
  | field (name : String) (after : Nat)
  | method (name : String) (args : List Surface) (after : Nat)
  | index (e : Surface) (after : Nat)

/-- An operand with a tail put behind it. The whole starts where the operand starts. -/
def Tail.attach (lhs : Surface) : Tail → Surface
  | .operator op rhs after => .binary op lhs rhs ⟨lhs.loc.before, after⟩
  | .typeTest typeName after => .typeTest lhs typeName ⟨lhs.loc.before, after⟩

/-- A receiver with a selector put behind it. The whole starts where the receiver starts. -/
def Selector.attach (receiver : Surface) : Selector → Surface
  | .field name after => .field receiver name ⟨receiver.loc.before, after⟩
  | .method name args after => .method receiver name args ⟨receiver.loc.before, after⟩
  | .index e after => .element receiver e ⟨receiver.loc.before, after⟩

/-! ## Openings -/

/-- How an operand opens on to what is nested in it: by a prefix operator, by the parenthesis of a
group or of the arguments of a new instance, an unqualified call or a member, or by the bracket of
an index. The last is the bracket of what may be a context suffix, which is looked at before an
index is read. -/
inductive Opening where
  | sign
  | group
  | creation
  | call
  | member
  | index
  | suffix
deriving DecidableEq

/-- What can be read inside an operand: expressions behind each opening, and what may be a context
suffix where there is room to look at it. -/
structure Nested where
  expression : Opening → Reader Surface
  ahead : Room Opening

/-! ## Tokens -/

/-- Skips white space. -/
def skip : Reader Unit := fun mark s =>
  .ok () (s.dropWhile isBlank) mark

/-- The words that are no names. -/
def reservedWords : List String :=
  ["true", "false", "null", "this", "new", "instanceof"]

/-- A character of a name. It is read only to tell that a word is over. -/
def nameChar : Reader Unit :=
  rule (lexeme fun
    | c :: rest => if Text.isNameChar c then some ((), rest) else none
    | [] => none)

/-- A name that is not reserved. A name may start with a reserved word. -/
def identifier : Reader String :=
  rule do
    butNot (rule (lexeme (wordToken? reservedWords)))
    let name ← rule (lexeme nameToken?)
    pure (String.ofList name)

/-- A closing parenthesis. It is a rule, so that a missing one is reported where the text ran out.
-/
def closeParen : Reader Unit :=
  rule (word ")")

/-- A closing bracket. -/
def closeBracket : Reader Unit :=
  rule (word "]")

/-- A binary operator: the first in the table that is there and is not followed by the given
character. So the longer of two operators that start alike comes first. -/
def operator (table : List (String × Option Char × BinaryOperator)) : Reader BinaryOperator :=
  rule (lexeme fun s =>
    table.findSome? fun (symbol, follow?, op) =>
      let rest := s.drop symbol.length
      if symbol.toList.isPrefixOf s && (follow?.isNone || rest.head? != follow?)
        then some (op, rest) else none)

/-- The operators of equality. -/
def equalityOperator : Reader BinaryOperator :=
  operator [("==", none, .eq), ("!=", none, .ne)]

/-- The operators of comparison; those of shifts start with the same characters. -/
def comparisonOperator : Reader BinaryOperator :=
  operator [("<=", none, .le), (">=", none, .ge), ("<", some '<', .lt), (">", some '>', .gt)]

/-- The operators of shifts. -/
def shiftOperator : Reader BinaryOperator :=
  operator [(">>>", none, .ushr), ("<<", none, .shl), (">>", none, .shr)]

/-- The operators of sums; the stepping operators start with the same characters. -/
def additiveOperator : Reader BinaryOperator :=
  operator [("+", some '+', .add), ("-", some '-', .sub)]

/-- The operators of products. -/
def multiplicativeOperator : Reader BinaryOperator :=
  operator [("*", none, .mul), ("/", none, .div), ("%", none, .rem)]

/-- The prefix operators that change nothing. -/
def unaryOperator : Reader UnaryOperator :=
  rule (lexeme fun
    | '+' :: rest => some (.plus, rest)
    | '-' :: rest => some (.minus, rest)
    | '!' :: rest => some (.not, rest)
    | _ => none)

/-- A stepping operator: whether it steps up. -/
def updateOperator : Reader Bool :=
  rule (lexeme fun
    | '+' :: '+' :: rest => some (true, rest)
    | '-' :: '-' :: rest => some (false, rest)
    | _ => none)

/-! ## Context suffixes -/

/-- The mark of a negated context. -/
def negation : Reader Unit :=
  rule do
    word "!"
    skip

/-- The word for a context. -/
def contextWord : Reader Context :=
  rule (lexeme fun s =>
    (wordToken? ["conditional", "discarded"] s).map fun (w, rest) =>
      (if w = "conditional" then .conditional else .discarded, rest))

/-- A context in brackets, and whether it is negated. White space may stand between all its
parts. -/
def contextSuffix : Reader (Context × Bool) :=
  rule do
    word "["
    skip
    let negated ← optional negation
    let context ← contextWord
    skip
    closeBracket
    pure (context, negated.isSome)

/-- What stands behind the bracket of a context suffix. Here the closing bracket is no rule, so that
looking ahead does not report that it is missing. -/
def contextAhead : Reader Unit := do
  let _ ← optional negation
  let _ ← contextWord
  skip
  word "]"

/-! ## Primaries -/

/-- A node that a reader reads, with its extent. -/
def leaf {α : Type} (p : Reader α) (node : α → Extent → Surface) : Reader Surface :=
  rule do
    let before ← left
    let a ← p
    let after ← left
    pure (node a ⟨before, after⟩)

/-- The mark for any arguments. -/
def anyArguments : Reader Surface :=
  leaf (word "...") fun _ => .anyArguments

/-- One argument. The mark for any arguments may stand among others here; that it must not is told
when the pattern is resolved. -/
def argument (expression : Reader Surface) : Reader Surface :=
  rule (orElse anyArguments expression)

/-- A further argument, after a comma. -/
def furtherArgument (expression : Reader Surface) : Reader Surface := do
  skip
  word ","
  skip
  argument expression

/-- One or more arguments. -/
def argumentList (expression : Reader Surface) : Reader (List Surface) :=
  rule do
    let first ← argument expression
    let others ← many (furtherArgument expression)
    pure (first :: others)

/-- Arguments in parentheses. White space may stand in front of them. -/
def arguments (expression : Reader Surface) : Reader (List Surface) :=
  rule do
    skip
    word "("
    skip
    let args ← optional (argumentList expression)
    skip
    closeParen
    pure (args.getD [])

/-- An expression in parentheses. These leave no trace, and the extent is that of the expression
alone. -/
def grouped (expression : Reader Surface) : Reader Surface :=
  rule do
    word "("
    skip
    let e ← expression
    skip
    closeParen
    pure e

/-- The creation of an instance. -/
def creation (expression : Reader Surface) : Reader Surface :=
  leaf (do
    word "new"
    butNot nameChar
    skip
    let typeName ← identifier
    let args ← arguments expression
    pure (typeName, args)) fun (typeName, args) => .creation typeName args

/-- Any literal of a type, or any lambda expression. No white space may stand between the colons. -/
def anyOfType : Reader Surface :=
  leaf (do
    word ":"
    let type ← rule (lexeme (leadingWord? ["int", "double", "string", "boolean", "bool", "lambda"]))
    word ":"
    pure type) fun type loc =>
      match type with
      | "int" => .anyLiteral .int loc
      | "double" => .anyLiteral .double loc
      | "string" => .anyLiteral .string loc
      | "lambda" => .anyLambda loc
      | _ => .anyLiteral .boolean loc

/-- A number or a string. Floating point literals come first, since an integer literal could be read
from the front of one. -/
def literal : Reader Surface :=
  rule (firstOf
    [leaf (lexeme doubleToken?) fun text => .literal (.double text),
      leaf (lexeme integerToken?) fun text => .literal (.integer text),
      leaf (lexeme stringToken?) fun text => .literal (.string text)])

/-- A word that is a value. The words are reserved, so none of them is read as a name. -/
def keyword : Reader Surface :=
  leaf (lexeme (wordToken? ["true", "false", "null", "this"])) fun w loc =>
    match w with
    | "null" => .null loc
    | "this" => .this loc
    | w => .literal (.boolean (w == "true")) loc

/-- The mark for any expression. -/
def wildcard : Reader Surface :=
  leaf (do
    word "_"
    butNot nameChar) fun _ => .wildcard

/-- An unqualified call. -/
def call (expression : Reader Surface) : Reader Surface :=
  leaf (do
    let name ← identifier
    let args ← arguments expression
    pure (name, args)) fun (name, args) => .call name args

/-- A name on its own. -/
def reference : Reader Surface :=
  leaf identifier .reference

/-- An expression that no operator splits. Calls come before names, since every call starts with
one. -/
def primary (nested : Nested) : Reader Surface :=
  rule (firstOf
    [grouped (nested.expression .group), creation (nested.expression .creation), anyOfType, literal,
      keyword, wildcard,
      call (nested.expression .call), reference])

/-! ## Selectors and prefix operators -/

/-- A member after a dot, with arguments if it is called. -/
def member (expression : Reader Surface) : Reader Selector :=
  rule do
    word "."
    skip
    let name ← identifier
    let args ← optional (arguments expression)
    let after ← left
    pure (match args with
      | none => .field name after
      | some args => .method name args after)

/-- An index in brackets, which is never a context suffix. What starts like one is left to be read
as such, and where it is none the index is not read either. -/
def index (nested : Nested) : Reader Selector :=
  rule do
    word "["
    skip
    butNot (within nested.ahead contextAhead)
    let e ← nested.expression .index
    skip
    closeBracket
    let after ← left
    pure (.index e after)

/-- A member or an index. -/
def selector (nested : Nested) : Reader Selector :=
  rule do
    skip
    orElse (member (nested.expression .member)) (index nested)

/-- A step behind an operand. -/
def stepBehind : Reader Bool :=
  rule do
    skip
    updateOperator

/-- A primary with its selectors and perhaps a step behind them. Selectors associate to the left. -/
def selected (nested : Nested) : Reader Surface :=
  rule do
    let before ← left
    let head ← primary nested
    let selectors ← many (selector nested)
    let result := selectors.foldl Selector.attach head
    match ← optional stepBehind with
    | none => pure result
    | some up =>
      let after ← left
      pure (.update ⟨false, up⟩ result ⟨before, after⟩)

/-- An operand of the binary operators. Two equal signs are one step; where no operand follows them,
reading them as two signs would find none either. -/
def prefixed (operand : Reader Surface) (nested : Nested) : Reader Surface :=
  rule do
    let before ← left
    match ← optional updateOperator with
    | some up =>
      skip
      let e ← operand
      let after ← left
      pure (.update ⟨true, up⟩ e ⟨before, after⟩)
    | none =>
      match ← optional unaryOperator with
      | some op =>
        skip
        let e ← operand
        let after ← left
        pure (.unary op e ⟨before, after⟩)
      | none => selected nested

/-! ## Binary operators -/

/-- An operator and its right operand. -/
def operatorTail (op : Reader BinaryOperator) (operand : Reader Surface) : Reader Tail :=
  rule do
    skip
    let o ← op
    skip
    let rhs ← operand
    let after ← left
    pure (.operator o rhs after)

/-- The word of a type test and a type name. -/
def typeTestTail : Reader Tail :=
  rule do
    skip
    word "instanceof"
    butNot nameChar
    skip
    let typeName ← identifier
    let after ← left
    pure (.typeTest typeName after)

/-- An operand and the tails behind it, put together from the left. Every level of binary operators
is such a chain over the next tighter one. -/
def chain (operand : Reader Surface) (tail : Reader Tail) : Reader Surface :=
  rule do
    let first ← operand
    let tails ← many tail
    pure (tails.foldl Tail.attach first)

/-- Products. -/
def multiplicative (operand : Reader Surface) : Reader Surface :=
  chain operand (operatorTail multiplicativeOperator operand)

/-- Sums. -/
def additive (operand : Reader Surface) : Reader Surface :=
  chain (multiplicative operand) (operatorTail additiveOperator (multiplicative operand))

/-- Shifts. -/
def shift (operand : Reader Surface) : Reader Surface :=
  chain (additive operand) (operatorTail shiftOperator (additive operand))

/-- Comparisons and type tests, which bind alike. -/
def relational (operand : Reader Surface) : Reader Surface :=
  chain (shift operand)
    (rule (orElse typeTestTail (operatorTail comparisonOperator (shift operand))))

/-- Expressions over a reader of operands. -/
def expressionOver (operand : Reader Surface) : Reader Surface :=
  chain (relational operand) (operatorTail equalityOperator (relational operand))

/-! ## Nesting -/

/-- Operands that nest as far as there is room. The recursion is on the room, so it ends although
operands nest in operands. -/
def operandWithin : Room Opening → Reader Surface
  | .none => fun _ _ => .deep
  | .more inside =>
    prefixed (operandWithin (inside .sign))
      { expression := fun opening => expressionOver (operandWithin (inside opening)),
        ahead := inside .suffix }

/-- Expressions that nest as far as there is room. -/
def expression (room : Room Opening) : Reader Surface :=
  expressionOver (operandWithin room)

/-- How many places of the stack lie between an operand and the one that is nested in it behind an
opening. What may be a context suffix goes deeper than an operand by itself, and the places are
those by which it does. -/
def Opening.places : Opening → Nat
  | .sign => 4
  | .group => 18
  | .creation | .call => 26
  | .member => 32
  | .index => 22
  | .suffix => 8

/-- The room on the stack that the program runs on. A pattern that is nested deeper than that cannot
be read. -/
def stackRoom : Room Opening :=
  .onStack Opening.places 967

/-- The end of the text. -/
def endOfText : Reader Unit :=
  rule (lexeme fun s => if s.isEmpty then some ((), []) else none)

/-- A whole pattern: an expression and perhaps a context suffix, with white space around them. -/
def whole (room : Room Opening) : Reader (Surface × Option (Context × Bool)) :=
  rule do
    skip
    let e ← expression room
    skip
    let suffix ← optional contextSuffix
    skip
    endOfText
    pure (e, suffix)

end ShapeLint.Grammar
