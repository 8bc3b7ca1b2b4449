import ShapeLint.Span
import ShapeLint.Value

/-!
# Patterns

A pattern is a tree that describes the shape of a Java expression. The type is generic in what
stands at a literal and in what marks the place of a node: the tree that is read from a pattern text
holds the text of each literal and the extent of each node, and the compiled pattern holds values
and spans.

A `Kind` is a pattern together with the context in which a matching expression must stand.
-/

namespace ShapeLint

/-- The types of literals that a pattern can ask for: integers that are not long, floating point
numbers, strings and truth values. -/
inductive LiteralType where
  | int
  | double
  | string
  | boolean
deriving DecidableEq, Inhabited

/-- The prefix operators that change nothing: two signs and the negation. -/
inductive UnaryOperator where
  | plus
  | minus
  | not
deriving DecidableEq, Inhabited

/-- The binary operators. Those that join conditions and those on bits are no part of the pattern
language. -/
inductive BinaryOperator where
  | add
  | sub
  | mul
  | div
  | rem
  | eq
  | ne
  | ge
  | gt
  | le
  | lt
  | shl
  | shr
  | ushr
deriving DecidableEq, Inhabited

/-- The operators that step a variable: in front of it or behind it, up or down. -/
structure UpdateOperator where
  inFront : Bool
  up : Bool
deriving DecidableEq, Inhabited

/-- The symbol of a prefix operator. -/
def UnaryOperator.symbol : UnaryOperator → String
  | .plus => "+"
  | .minus => "-"
  | .not => "!"

/-- The symbol of a binary operator. -/
def BinaryOperator.symbol : BinaryOperator → String
  | .add => "+"
  | .sub => "-"
  | .mul => "*"
  | .div => "/"
  | .rem => "%"
  | .eq => "=="
  | .ne => "!="
  | .ge => ">="
  | .gt => ">"
  | .le => "<="
  | .lt => "<"
  | .shl => "<<"
  | .shr => ">>"
  | .ushr => ">>>"

/-- The symbol of a stepping operator. -/
def UpdateOperator.symbol (op : UpdateOperator) : String :=
  if op.up then "++" else "--"

/-- An expression of the pattern language, with literals of type `Lit` and nodes marked by a `Loc`.

A method is called on an object, on nothing, or without any qualification; the latter two are
matched alike and shown differently. -/
inductive Expr (Lit Loc : Type) where
  | wildcard (loc : Loc)
  | reference (name : String) (loc : Loc)
  | literal (lit : Lit) (loc : Loc)
  | anyLiteral (type : LiteralType) (loc : Loc)
  | null (loc : Loc)
  | this (loc : Loc)
  | field (receiver : Expr Lit Loc) (name : String) (loc : Loc)
  | method (receiver : Expr Lit Loc) (name : String) (args : List (Expr Lit Loc)) (loc : Loc)
  /-- A method called on nothing. No text denotes this; it is built by hand only. -/
  | ownMethod (name : String) (args : List (Expr Lit Loc)) (loc : Loc)
  | call (name : String) (args : List (Expr Lit Loc)) (loc : Loc)
  | creation (typeName : String) (args : List (Expr Lit Loc)) (loc : Loc)
  | typeTest (target : Expr Lit Loc) (typeName : String) (loc : Loc)
  | unary (op : UnaryOperator) (operand : Expr Lit Loc) (loc : Loc)
  | binary (op : BinaryOperator) (lhs rhs : Expr Lit Loc) (loc : Loc)
  | update (op : UpdateOperator) (operand : Expr Lit Loc) (loc : Loc)
  | element (array index : Expr Lit Loc) (loc : Loc)
  | anyLambda (loc : Loc)
  /-- As the only argument, any arguments. -/
  | anyArguments (loc : Loc)
  /-- A shape that has a name and no way to test for it. -/
  | unknown (name : String) (loc : Loc)
deriving Inhabited

/-- The place of an expression, which every variant has. -/
def Expr.loc {Lit Loc : Type} : Expr Lit Loc → Loc
  | .wildcard loc | .reference _ loc | .literal _ loc | .anyLiteral _ loc | .null loc | .this loc
  | .field _ _ loc | .method _ _ _ loc | .ownMethod _ _ loc | .call _ _ loc | .creation _ _ loc
  | .typeTest _ _ loc | .unary _ _ loc | .binary _ _ _ loc | .update _ _ loc | .element _ _ loc
  | .anyLambda loc | .anyArguments loc | .unknown _ loc => loc

/-- Whether an expression is the mark for any arguments. -/
def Expr.isAnyArguments {Lit Loc : Type} : Expr Lit Loc → Bool
  | .anyArguments _ => true
  | _ => false

/-- A literal of a compiled pattern: the type that it is written in, and its value. -/
structure Constant where
  type : LiteralType
  value : Value
deriving DecidableEq, Inhabited

/-- Whether two literals have one type and the same value. -/
def Constant.same (a b : Constant) : Bool :=
  a.type == b.type && a.value.same b.value

/-- A compiled pattern. -/
abbrev Pattern := Expr Constant Span

namespace Pattern

mutual

/-- Whether two patterns are equal, wherever they stand. Their literals are compared by value. -/
def same : Pattern → Pattern → Bool
  | .wildcard _, .wildcard _ => true
  | .reference a _, .reference b _ => a == b
  | .literal a _, .literal b _ => a.same b
  | .anyLiteral a _, .anyLiteral b _ => a == b
  | .null _, .null _ => true
  | .this _, .this _ => true
  | .field p a _, .field q b _ => same p q && a == b
  | .method p a ps _, .method q b qs _ => same p q && a == b && sameList ps qs
  | .ownMethod a ps _, .ownMethod b qs _ => a == b && sameList ps qs
  | .call a ps _, .call b qs _ => a == b && sameList ps qs
  | .creation a ps _, .creation b qs _ => a == b && sameList ps qs
  | .typeTest p a _, .typeTest q b _ => same p q && a == b
  | .unary o p _, .unary o' q _ => o == o' && same p q
  | .binary o p p' _, .binary o' q q' _ => o == o' && same p q && same p' q'
  | .update o p _, .update o' q _ => o == o' && same p q
  | .element p p' _, .element q q' _ => same p q && same p' q'
  | .anyLambda _, .anyLambda _ => true
  | .anyArguments _, .anyArguments _ => true
  | .unknown a _, .unknown b _ => a == b
  | _, _ => false

/-- Whether two lists of patterns are equal, item by item. -/
def sameList : List Pattern → List Pattern → Bool
  | [], [] => true
  | p :: ps, q :: qs => same p q && sameList ps qs
  | _, _ => false

end

end Pattern

/-- The contexts in which a pattern can ask an expression to stand: anywhere, as a condition, or
where the value is thrown away. -/
inductive Context where
  | any
  | conditional
  | discarded
deriving DecidableEq, Inhabited

/-- A pattern and the context that a matching expression must stand in. -/
structure Kind where
  expression : Pattern
  context : Context := .any
  /-- Whether the context is asked for in its negated form. Anywhere has no such form, and there
  this has no effect. -/
  negated : Bool := false
deriving Inhabited

/-- Whether two kinds are equal, wherever their patterns stand. -/
def Kind.same (a b : Kind) : Bool :=
  a.expression.same b.expression && a.context == b.context && a.negated == b.negated

end ShapeLint
