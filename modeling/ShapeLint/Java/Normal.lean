import ShapeLint.Java.Source
import ShapeLint.Java.Tree
import ShapeLint.Literal.Numeral
import ShapeLint.Literal.Quoted
import ShapeLint.Literal.TypeName
import ShapeLint.Node.Basic

/-!
# Normal form of a concrete node

How a node of a concrete tree becomes a node that patterns are matched against, given the nodes that
its children have become. Tokens that are not named and comments are left away, and parentheses are
replaced by what they enclose. Calls, member accesses, creations and type tests keep their name as
their value and only their operands as children. A literal becomes its value, and a name that
declares something becomes a declared name. All other nodes keep their type as their kind, and their
text as their value if they have no children.
-/

namespace ShapeLint.Java

open ShapeLint.Literal (BadEscape NumeralError)

/-- Why a concrete tree has no normal form: a string literal has an escape that means nothing, a
numeral has no value, or a step has no operator. -/
inductive NormalFailure where
  | badEscape (e : BadEscape) (span : Span)
  | badNumeral (e : NumeralError)
  | emptyUpdate
deriving DecidableEq, Inhabited

/-- The types of nodes that are described by their text alone. What is inside of them is not looked
at. -/
def opaqueTypes : List String :=
  ["string_literal", "character_literal", "decimal_integer_literal", "hex_integer_literal",
    "octal_integer_literal",
    "binary_integer_literal", "decimal_floating_point_literal", "hex_floating_point_literal"]

/-- The fields in which a name declares something. -/
def declaringFields : List (Option String) :=
  [some "name", some "parameters"]

/-- The types of nodes in which every name declares something or names what is declared. -/
def declaringTypes : List String :=
  ["scoped_identifier", "inferred_parameters", "labeled_statement", "break_statement",
    "continue_statement"]

/-- The children of a node that count: named ones that are no comments, and none of a literal. -/
def keptChildren (t : Tree) : List Tree :=
  if opaqueTypes.contains t.type then [] else t.children.filter fun c => c.isNamed && !c.isComment

/-- A name as one that declares something; other nodes stay as they are. No pattern matches a
declared name. -/
def declared (n : Node) : Node :=
  if n.kind == NodeKind.name
    then { kind := NodeKind.declaredName, value := n.value, role := n.role, span := n.span }
  else n

/-- The value of the first node that plays a role. -/
def valueIn (role : String) (children : List Node) : Value :=
  match children.find? (·.role == some role) with
  | some n => n.value
  | none => .none

/-- The type of the token that is the operator of a node. -/
def operatorOf (t : Tree) : String :=
  match t.child? "operator" with
  | some op => op.type
  | none => ""

section

variable (source : Source) (t : Tree)

/-- The text of a concrete node. -/
def textOf : List Char :=
  source.textBetween t.start t.stop

/-- The span of a concrete node. -/
def spanOf : Span :=
  source.span t.start t.stop

/-- The simple name of the type that a child is, and nothing where there is no child. -/
def typeNameOf (child? : Option Tree) : Value :=
  match child? with
  | some child => .text (Text.codePoints (Literal.simpleTypeName (textOf source child)))
  | none => .ofString ""

/-- A node without a rule of its own. Names in it that declare something are told apart by their
field, or all are in some types. -/
def generic (children : List Node) : Node :=
  let all := declaringTypes.contains t.type
  let children :=
    children.map fun n => if all || declaringFields.contains n.role then declared n else n
  { kind := t.type
    value := if children.isEmpty then .text (Text.codePoints (textOf source t)) else .none
    children
    span := spanOf source t }

/-- An integer literal. A long one is of another kind, which no pattern asks for. -/
def integer : Except NormalFailure Node :=
  let text := textOf source t
  match Literal.integer? text with
  | some i =>
    .ok { kind := if Literal.isLong text then NodeKind.long else NodeKind.int, value := .int i,
          span := spanOf source t }
  | none => .error (.badNumeral .malformed)

/-- A floating point literal. -/
def floating : Except NormalFailure Node :=
  match Literal.floating (textOf source t) with
  | .ok d => .ok { kind := NodeKind.double, value := .double d, span := spanOf source t }
  | .error e => .error (.badNumeral e)

/-- A string or character literal. Both are read alike, and differ in their kind. -/
def quoted : Except NormalFailure Node :=
  match Literal.string (textOf source t) with
  | .ok points =>
    .ok { kind := if t.type == "string_literal" then NodeKind.string
      else NodeKind.char, value := .text points
          span := spanOf source t }
  | .error e => .error (.badEscape e (spanOf source t))

/-- The arguments that a node holds. -/
def argumentsOf (n : Node) : List Node :=
  n.children.map fun arg => { arg with role := some Role.argument }

/-- A method call: the object and the arguments. Type arguments and the name are no children. -/
def methodCall (children : List Node) : Node :=
  { kind := NodeKind.methodCall
    value := valueIn "name" children
    children := children.flatMap fun n =>
      if n.role == some Role.object then [n] else if n.role == some "arguments"
        then argumentsOf n else []
    span := spanOf source t }

/-- A member of an object. -/
def fieldAccess (children : List Node) : Node :=
  { kind := NodeKind.fieldAccess
    value := valueIn "field" children
    children := children.filter (·.role == some Role.object)
    span := spanOf source t }

/-- The creation of an instance: the arguments, and what else is neither its type nor a type
argument. -/
def creation (children : List Node) : Node :=
  { kind := NodeKind.creation
    value := typeNameOf source (t.child? "type")
    children := children.flatMap fun n =>
      if n.role == some "arguments" then argumentsOf n
      else if n.role == some "type" || n.role == some "type_arguments" then []
      else [n]
    span := spanOf source t }

/-- A type test: what is tested. -/
def typeTest (children : List Node) : Node :=
  { kind := NodeKind.typeTest
    value := typeNameOf source ((t.child? "right").or (t.child? "pattern"))
    children := children.filter (·.role == some Role.left)
    span := spanOf source t }

/-- A node that an operator makes. -/
def operation (children : List Node) : Node :=
  { kind := t.type, value := .ofString (operatorOf t), children, span := spanOf source t }

/-- A step: in front if the first token is its operator, and behind otherwise. -/
def update (children : List Node) : Except NormalFailure Node :=
  match t.children.head?, t.children.getLast? with
  | some first, some last =>
    let inFront := first.type == "++" || first.type == "--"
    .ok { kind := if inFront then NodeKind.prefixUpdate else NodeKind.postfixUpdate
          value := .ofString (if inFront then first.type else last.type)
          children := children.map fun n => { n with role := some Role.operand }
          span := spanOf source t }
  | _, _ => .error .emptyUpdate

/-- A method reference: its last part, if it has another, is the name of a method. -/
def methodReference (children : List Node) : Node :=
  { kind := t.type
    children :=
      match children.reverse with
      | last :: other :: others => ((declared last) :: other :: others).reverse
      | _ => children
    span := spanOf source t }

/-- The normal form of a concrete node, given those of its children that count; nothing for empty
parentheses. Others stand for the first of what they enclose. -/
def normalNode (children : List Node) : Except NormalFailure (Option Node) :=
  match t.type with
  | "parenthesized_expression" => .ok children.head?
  | "identifier" =>
    .ok (some { kind := NodeKind.name, value := .text (Text.codePoints (textOf source t)),
                span := spanOf source t })
  | "decimal_integer_literal" | "hex_integer_literal" | "octal_integer_literal"
  | "binary_integer_literal" =>
    (integer source t).map some
  | "decimal_floating_point_literal" | "hex_floating_point_literal" => (floating source t).map some
  | "string_literal" | "character_literal" => (quoted source t).map some
  | "true" => .ok (some { kind := NodeKind.boolean, value := .bool true, span := spanOf source t })
  | "false" =>
    .ok (some { kind := NodeKind.boolean, value := .bool false, span := spanOf source t })
  | "null_literal" => .ok (some { kind := NodeKind.null, span := spanOf source t })
  | "method_invocation" => .ok (some (methodCall source t children))
  | "field_access" => .ok (some (fieldAccess source t children))
  | "object_creation_expression" => .ok (some (creation source t children))
  | "instanceof_expression" => .ok (some (typeTest source t children))
  | "unary_expression" | "binary_expression" => .ok (some (operation source t children))
  | "update_expression" => (update source t children).map some
  | "method_reference" => .ok (some (methodReference source t children))
  | _ => .ok (some (generic source t children))

end

end ShapeLint.Java
