import ShapeLint.Span
import ShapeLint.Value

/-!
# Nodes

A node is the view of a Java syntax tree that patterns are matched against: its kind, its value (the
text of a name, the symbol of an operator, the value of a literal, the name of a method or of a
type), the role it plays in its parent, its children and its span. A node does not know its parent;
what is above it is known only to a `Visit`.
-/

namespace ShapeLint

/-- A node of a syntax tree: its kind, its value, the role it plays in its parent, its children in
order, and where it stands. -/
structure Node where
  kind : String
  value : Value := .none
  role : Option String := none
  children : List Node := []
  span : Span := {}
deriving Inhabited

/-! ## Kinds that patterns and contexts look at -/

namespace NodeKind

/-- A name used as a value. -/
def name := "identifier"
/-- A name that declares something, which no pattern matches. -/
def declaredName := "simple_name"
/-- An integer literal. -/
def int := "integer_literal"
/-- A long integer literal, which no pattern matches. -/
def long := "long_literal"
/-- A floating point literal. -/
def double := "floating_point_literal"
/-- A string literal. -/
def string := "string_literal"
/-- A character literal, which no pattern matches. -/
def char := "character_literal"
/-- A truth value. -/
def boolean := "boolean_literal"
/-- The null literal. -/
def null := "null_literal"
/-- The current object. -/
def this := "this"
/-- A field of an object. -/
def fieldAccess := "field_access"
/-- A method call. -/
def methodCall := "method_invocation"
/-- The creation of an instance. -/
def creation := "object_creation_expression"
/-- A type test. -/
def typeTest := "instanceof_expression"
/-- A prefix operator. -/
def unary := "unary_expression"
/-- A binary operator. -/
def binary := "binary_expression"
/-- A step in front of its operand. -/
def prefixUpdate := "prefix_update_expression"
/-- A step behind its operand. -/
def postfixUpdate := "postfix_update_expression"
/-- An element of an array. -/
def arrayAccess := "array_access"
/-- A lambda expression. -/
def lambda := "lambda_expression"
/-- A conditional expression. -/
def ternary := "ternary_expression"
/-- An expression used as a statement. -/
def expressionStatement := "expression_statement"
/-- A loop with a head. -/
def forLoop := "for_statement"

end NodeKind

/-! ## Roles -/

namespace Role

/-- The condition of a branch or a loop. -/
def condition := "condition"
/-- The object a member belongs to. -/
def object := "object"
/-- An argument. -/
def argument := "argument"
/-- The operand of a prefix or postfix operator. -/
def operand := "operand"
/-- The left operand. -/
def left := "left"
/-- The right operand. -/
def right := "right"
/-- The array that an element is taken of. -/
def array := "array"
/-- The index of an element. -/
def index := "index"
/-- What a loop starts with. -/
def init := "init"
/-- What a loop does after each round. -/
def update := "update"

end Role

namespace Node

/-- The first child that plays a role. -/
def child? (n : Node) (role : String) : Option Node :=
  n.children.find? (·.role == some role)

/-- The children that play a role, in order; without a role, those that play none. -/
def childrenIn (n : Node) (role : Option String) : List Node :=
  n.children.filter (·.role == role)

/-- A node as it is shown in messages: kind, value and start. -/
def display (n : Node) : String :=
  let payload := if n.value = .none then "" else " " ++ n.value.display
  "<" ++ n.kind ++ payload ++ " @" ++ toString n.span.line ++ ":" ++ toString n.span.column ++ ">"

mutual

/-- The number of nodes of a tree. -/
def size : Node → Nat
  | ⟨_, _, _, children, _⟩ => 1 + sizeList children

/-- The number of nodes of several trees. -/
def sizeList : List Node → Nat
  | [] => 0
  | n :: ns => size n + sizeList ns

end

end Node

end ShapeLint
