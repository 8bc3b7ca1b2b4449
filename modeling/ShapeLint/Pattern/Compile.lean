import ShapeLint.Fault
import ShapeLint.Grammar.Expression
import ShapeLint.Literal.Quoted

/-!
# Compiling patterns

`compile` reads a pattern text, gives each literal its value and each node its span, and checks that
the mark for any arguments stands alone. A text that fails is reported by its first failure: that it
cannot be read comes before all others, then the failures of literals and arguments from left to
right, inner before outer.
-/

namespace ShapeLint.Pattern

open ShapeLint.Grammar (Extent Spelling Surface)
open ShapeLint.Literal (BadEscape)

/-- Why a pattern does not compile: its text is no pattern or is nested too deeply, the mark for any
arguments stands beside others, or a literal has no value. A string literal has none if it has an
escape that means nothing. -/
inductive CompileCause where
  | unexpected
  | tooDeep
  | misplacedArguments
  | badInteger
  | badEscape (e : BadEscape)
  | badDouble
deriving DecidableEq, Inhabited

/-- A failure to compile: its cause, the text found there, and the offsets between which it lies. -/
structure CompileError where
  cause : CompileCause
  token : List Char
  start : Nat
  stop : Nat
deriving DecidableEq, Inhabited

namespace CompileError

/-- The message of a failure. -/
def message (e : CompileError) : String :=
  match e.cause with
  | .unexpected =>
    if e.token.isEmpty then "unexpected end of pattern"
    else "unexpected " ++ Text.quoted (String.ofList e.token) ++ " in pattern"
  | .tooDeep => "pattern nested too deeply"
  | .misplacedArguments => "'...' must be the only argument"
  | .badInteger => "invalid integer literal " ++ Text.quoted (String.ofList e.token)
  | .badEscape escape => escape.message
  | .badDouble => "failed to build pattern"

/-- The code of a failure. A floating point literal that has no value is no mistake in the pattern,
so it has the code for failures of the linter itself. -/
def code (e : CompileError) : Code :=
  match e.cause with
  | .unexpected | .tooDeep => .patternSyntax
  | .misplacedArguments => .misplacedRepeatedParameter
  | .badInteger | .badEscape _ => .invalidLiteral
  | .badDouble => .internalError

/-- The span of a failure in the pattern text, as lines and columns. -/
def span (e : CompileError) (text : List Char) : Span :=
  Span.ofOffsets text e.start e.stop

/-- The fault that reports a failure as one of the pattern. -/
def patternFault (e : CompileError) (text : List Char) : Fault :=
  Fault.withExcerpt
    { kind := .pattern (String.ofList text) (String.ofList e.token) none
      diagnostic := { code := e.code, message := e.message, span := e.span text } }

/-- The fault that reports a failure. That a floating point literal has no value is no fault of the
pattern, since the grammar has let it through. -/
def fault (e : CompileError) (text : List Char) : Fault :=
  match e.cause with
  | .badDouble => Fault.fatal (e.message ++ " " ++ Text.quoted (String.ofList text))
  | _ => e.patternFault text

end CompileError

/-! ## Values and spans -/

/-- The number of characters that a token in a message has at most. Longer ones are cut. -/
def tokenWidth : Nat := 20

/-- The token at the front of a text: its characters up to the next space, at most twenty. -/
def tokenAt (s : List Char) : List Char :=
  (s.take tokenWidth).takeWhile fun c => !Text.isSpace c

/-- The span of an extent in a text. An extent counts from the end of the text, since readers only
know how much is left. -/
def extentSpan (text : List Char) (x : Extent) : Span :=
  Span.ofOffsets text (text.length - x.before) (text.length - x.after)

/-- A failure at an extent of a text. -/
def extentError (text : List Char) (x : Extent) (cause : CompileCause) (token : List Char) :
    CompileError :=
  { cause, token, start := text.length - x.before, stop := text.length - x.after }

/-- The value of a literal. Only the escapes of a string, the length of an integer and the size of a
hexadecimal floating point number can be wrong; all else the grammar has checked. -/
def constant (text : List Char) (x : Extent) : Spelling → Except CompileError Constant
  | .double spelling =>
    match Literal.floating spelling with
    | .ok d => .ok ⟨.double, .double d⟩
    | .error _ => .error (extentError text x .badDouble spelling)
  | .integer spelling =>
    match Literal.integer? spelling with
    | some n => .ok ⟨.int, .int n⟩
    | none => .error (extentError text x .badInteger spelling)
  | .string spelling =>
    match Literal.string spelling with
    | .ok points => .ok ⟨.string, .text points⟩
    | .error e => .error (extentError text x (.badEscape e) spelling)
  | .boolean b => .ok ⟨.boolean, .bool b⟩

/-- Checks that the mark for any arguments stands alone. The first mark beside others is
reported. -/
def checkArguments (text : List Char) (args : List Surface) : Except CompileError Unit :=
  if args.length ≤ 1 then .ok ()
  else
    match args.find? Expr.isAnyArguments with
    | some mark => .error (extentError text mark.loc .misplacedArguments "...".toList)
    | none => .ok ()

mutual

/-- The pattern that is written as a surface expression of a text. The parts are gone through from
left to right, and arguments are checked after they are resolved, so the first failure is the one
that comes first in the text, inner before outer. -/
def resolve (text : List Char) : Surface → Except CompileError Pattern
  | .wildcard x => .ok (.wildcard (extentSpan text x))
  | .reference name x => .ok (.reference name (extentSpan text x))
  | .literal lit x => do
    let c ← constant text x lit
    .ok (.literal c (extentSpan text x))
  | .anyLiteral type x => .ok (.anyLiteral type (extentSpan text x))
  | .null x => .ok (.null (extentSpan text x))
  | .this x => .ok (.this (extentSpan text x))
  | .field receiver name x => do
    let receiver ← resolve text receiver
    .ok (.field receiver name (extentSpan text x))
  | .method receiver name args x => do
    let receiver ← resolve text receiver
    let resolved ← resolveList text args
    checkArguments text args
    .ok (.method receiver name resolved (extentSpan text x))
  | .ownMethod name args x => do
    let resolved ← resolveList text args
    checkArguments text args
    .ok (.ownMethod name resolved (extentSpan text x))
  | .call name args x => do
    let resolved ← resolveList text args
    checkArguments text args
    .ok (.call name resolved (extentSpan text x))
  | .creation typeName args x => do
    let resolved ← resolveList text args
    checkArguments text args
    .ok (.creation typeName resolved (extentSpan text x))
  | .typeTest target typeName x => do
    let target ← resolve text target
    .ok (.typeTest target typeName (extentSpan text x))
  | .unary op operand x => do
    let operand ← resolve text operand
    .ok (.unary op operand (extentSpan text x))
  | .binary op lhs rhs x => do
    let lhs ← resolve text lhs
    let rhs ← resolve text rhs
    .ok (.binary op lhs rhs (extentSpan text x))
  | .update op operand x => do
    let operand ← resolve text operand
    .ok (.update op operand (extentSpan text x))
  | .element array index x => do
    let array ← resolve text array
    let index ← resolve text index
    .ok (.element array index (extentSpan text x))
  | .anyLambda x => .ok (.anyLambda (extentSpan text x))
  | .anyArguments x => .ok (.anyArguments (extentSpan text x))
  | .unknown name x => .ok (.unknown name (extentSpan text x))

/-- The patterns that are written as surface expressions of a text, in order. -/
def resolveList (text : List Char) : List Surface → Except CompileError (List Pattern)
  | [] => .ok []
  | e :: es => do
    let p ← resolve text e
    let ps ← resolveList text es
    .ok (p :: ps)

end

/-! ## Compiling -/

/-- The failure of a text that cannot be read, with so many characters left at the furthest failed
rule. -/
def unexpectedAt (text : List Char) (left : Nat) : CompileError :=
  let offset := text.length - left
  { cause := .unexpected, token := tokenAt (text.drop offset), start := offset, stop := offset }

/-- The kind that a text denotes, or why it denotes none, once the text has been read. Without a
suffix, the context is any. -/
def ofReply (text : List Char) : Grammar.Reply (Surface × Option (Context × Bool)) →
      Except CompileError Kind
  | .deep => .error { cause := .tooDeep, token := text.take tokenWidth, start := 0, stop := 0 }
  | .fail mark => .error (unexpectedAt text mark)
  | .ok (surface, suffix) _ _ => do
    let expression ← resolve text surface
    match suffix with
    | none => .ok { expression }
    | some (context, negated) => .ok { expression, context, negated }

/-- The kind that a text denotes, or why it denotes none, where there is so much room for reading
it. -/
def compileChars (room : Room Grammar.Opening) (text : List Char) : Except CompileError Kind :=
  ofReply text (Grammar.whole room text.length text)

/-- The kind that a pattern text denotes, or the fault that reports why it denotes none, where there
is so much room for reading it. -/
def compileIn (room : Room Grammar.Opening) (text : String) : Except Fault Kind :=
  (compileChars room text.toList).mapError (·.fault text.toList)

/-- The kind that a pattern text denotes, or the fault that reports why it denotes none, on the
stack that the program runs on. -/
def compile (text : String) : Except Fault Kind :=
  compileIn Grammar.stackRoom text

end ShapeLint.Pattern
