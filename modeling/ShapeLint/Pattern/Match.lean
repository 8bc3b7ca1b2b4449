import ShapeLint.Node.Context
import ShapeLint.Pattern.Display
import ShapeLint.Room

/-!
# Matching

Matching is exact: the kind of the node must be the one that the pattern asks for, its value the
same, and the parts of the pattern match the parts of the node position by position. No number is
taken for one of another type. Matching stops at the first part that fails, and it goes down only
where there is room.
-/

namespace ShapeLint

/-- Why a pattern cannot be tested: it is nested too deeply, or there is no test for a variant with
this name. -/
inductive MatchFailure where
  | tooDeep
  | untestable (name : String)
deriving DecidableEq, Inhabited

/-- The kind of node that a literal type asks for. -/
def LiteralType.nodeKind : LiteralType → String
  | .int => NodeKind.int
  | .double => NodeKind.double
  | .string => NodeKind.string
  | .boolean => NodeKind.boolean

/-- Whether a node has a kind and the value that holds a text. Names, operators, methods and types
are all compared in this way. -/
def Node.isKindNamed (n : Node) (kind name : String) : Bool :=
  n.kind == kind && n.value.same (.ofString name)

namespace Pattern

/-- How a test goes down from a pattern to one in it: to a part of it, or to an argument. -/
inductive Descent where
  | part
  | argument
deriving DecidableEq

/-- How many places of the stack a test takes to go down. -/
def Descent.places : Descent → Nat
  | .part => 2
  | .argument => 4

/-- The room for tests on the stack that the program runs on. -/
def testRoom : Room Descent :=
  .onStack Descent.places 994

/-- A test of a part, if the part is there. A pattern asks for its part, so a node without it does
not match. -/
def testPart (test : Node → Except MatchFailure Bool) : Option Node → Except MatchFailure Bool
  | some n => test n
  | none => .ok false

/-- The second test where the first holds. A failure of the first is kept, and the second is not
made then. -/
def bothHold (a : Except MatchFailure Bool) (b : Unit → Except MatchFailure Bool) :
    Except MatchFailure Bool :=
  match a with
  | .ok true => b ()
  | other => other

/-- Tests of two parts, the second where the first holds, if both parts are there. -/
def testParts (first second : Node → Except MatchFailure Bool) :
    Option Node → Option Node → Except MatchFailure Bool
  | some n, some m => bothHold (first n) fun _ => second m
  | _, _ => .ok false

/-- Whether a list of arguments is the mark for any arguments alone. -/
def isAnyList {Lit Loc : Type} : List (Expr Lit Loc) → Bool
  | [.anyArguments _] => true
  | _ => false

/-- A test of arguments one by one, unless the patterns take any arguments or are more or fewer than
these. Numbers are compared before any argument is tested. -/
def ifArguments (patterns : List Pattern) (args : List Node)
    (all : List Node → Except MatchFailure Bool) :
    Except MatchFailure Bool :=
  if isAnyList patterns then .ok true
  else if patterns.length ≠ args.length then .ok false
  else all args

mutual

/-- Whether a node has the shape of a pattern, going down as far as there is room. The recursion is
on the room, and the variants are told apart only where there is some: what cannot be gone into
fails, whatever it is. -/
def test (room : Room Descent) (pattern : Pattern) (n : Node) : Except MatchFailure Bool :=
  match room with
  | .none => .error .tooDeep
  | .more inside =>
    match pattern with
    | .wildcard _ => .ok true
    | .reference name _ => .ok (n.isKindNamed NodeKind.name name)
    | .literal c _ => .ok (n.kind == c.type.nodeKind && n.value.same c.value)
    | .anyLiteral type _ => .ok (n.kind == type.nodeKind)
    | .null _ => .ok (n.kind == NodeKind.null)
    | .this _ => .ok (n.kind == NodeKind.this)
    | .field receiver name _ =>
      if n.isKindNamed NodeKind.fieldAccess name then
        testPart (test (inside .part) receiver) (n.child? Role.object)
      else .ok false
    | .method receiver name args _ =>
      if n.isKindNamed NodeKind.methodCall name then
        bothHold (testPart (test (inside .part) receiver) (n.child? Role.object)) fun _ =>
          ifArguments args (n.childrenIn Role.argument) (testAll (inside .argument) args)
      else .ok false
    | .ownMethod name args _ | .call name args _ =>
      if n.isKindNamed NodeKind.methodCall name && (n.child? Role.object).isNone then
        ifArguments args (n.childrenIn Role.argument) (testAll (inside .argument) args)
      else .ok false
    | .creation typeName args _ =>
      if n.isKindNamed NodeKind.creation typeName then
        ifArguments args (n.childrenIn Role.argument) (testAll (inside .argument) args)
      else .ok false
    | .typeTest target typeName _ =>
      if n.isKindNamed NodeKind.typeTest typeName then
        testPart (test (inside .part) target) (n.child? Role.left)
      else .ok false
    | .unary op operand _ =>
      if n.isKindNamed NodeKind.unary op.symbol then
        testPart (test (inside .part) operand) (n.child? Role.operand)
      else .ok false
    | .binary op lhs rhs _ =>
      if n.isKindNamed NodeKind.binary op.symbol then
        testParts (test (inside .part) lhs) (test (inside .part) rhs) (n.child? Role.left)
          (n.child? Role.right)
      else .ok false
    | .update op operand _ =>
      if n.isKindNamed op.nodeKind op.symbol then
        testPart (test (inside .part) operand) (n.child? Role.operand)
      else .ok false
    | .element array index _ =>
      if n.kind == NodeKind.arrayAccess then
        testParts (test (inside .part) array) (test (inside .part) index) (n.child? Role.array)
          (n.child? Role.index)
      else .ok false
    | .anyLambda _ => .ok (n.kind == NodeKind.lambda)
    | .anyArguments _ => .ok false
    | .unknown name _ => .error (.untestable name)

/-- Whether nodes match patterns one by one, from left to right. The first that does not ends the
test. -/
def testAll (room : Room Descent) : List Pattern → List Node → Except MatchFailure Bool
  | p :: ps, n :: ns => bothHold (test room p n) fun _ => testAll room ps ns
  | _, _ => .ok true

end

/-- Whether arguments match patterns one by one, or the patterns take any arguments. -/
def testArguments (patterns : List Pattern) (args : List Node) : Except MatchFailure Bool :=
  ifArguments patterns args (testAll testRoom patterns)

end Pattern

/-- Whether a node has the shape of a pattern. -/
def Pattern.matchesNode (p : Pattern) (n : Node) : Except MatchFailure Bool :=
  p.test testRoom n

/-- Whether a visited node has the shape of a kind and stands in its context. The context is looked
at only after the shape. -/
def Kind.matchesVisit (k : Kind) (v : Visit) : Except MatchFailure Bool :=
  match k.expression.matchesNode v.node with
  | .ok true =>
    .ok (match k.context, k.negated with
      | .any, _ => true
      | .conditional, false => v.isCondition
      | .conditional, true => v.isNegatedCondition
      | .discarded, false => v.isDiscarded
      | .discarded, true => v.isRead)
  | other => other

end ShapeLint
