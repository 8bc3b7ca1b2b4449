import ShapeLint.Pattern.Basic

/-!
# Patterns in messages

A compiled kind is shown in messages by the names of its variants and their fields, in the order of
the fields, and after it the context in brackets unless it is any.
-/

namespace ShapeLint

/-- A literal type as it is shown: its name and the kind of node it asks for. -/
def LiteralType.display : LiteralType → String
  | .int => "<LiteralType.INT: 'integer_literal'>"
  | .double => "<LiteralType.DOUBLE: 'floating_point_literal'>"
  | .string => "<LiteralType.STRING: 'string_literal'>"
  | .boolean => "<LiteralType.BOOLEAN: 'boolean_literal'>"

/-- The name of a prefix operator. -/
def UnaryOperator.name : UnaryOperator → String
  | .plus => "PLUS"
  | .minus => "MINUS"
  | .not => "LOGICAL_NOT"

/-- The name of a binary operator. -/
def BinaryOperator.name : BinaryOperator → String
  | .add => "ADD"
  | .sub => "SUB"
  | .mul => "MUL"
  | .div => "DIV"
  | .rem => "REM"
  | .eq => "EQ"
  | .ne => "NE"
  | .ge => "GE"
  | .gt => "GT"
  | .le => "LE"
  | .lt => "LT"
  | .shl => "SHL"
  | .shr => "SHR"
  | .ushr => "USHR"

/-- The name of a stepping operator. -/
def UpdateOperator.name (op : UpdateOperator) : String :=
  (if op.inFront then "PREFIX_" else "POSTFIX_") ++ if op.up then "INCREMENT" else "DECREMENT"

/-- The kind of node that a stepping operator makes. -/
def UpdateOperator.nodeKind (op : UpdateOperator) : String :=
  if op.inFront then "prefix_update_expression" else "postfix_update_expression"

/-- A prefix operator as it is shown. -/
def UnaryOperator.display (op : UnaryOperator) : String :=
  "<UnaryOperator." ++ op.name ++ ": '" ++ op.symbol ++ "'>"

/-- A binary operator as it is shown. -/
def BinaryOperator.display (op : BinaryOperator) : String :=
  "<BinaryOperator." ++ op.name ++ ": '" ++ op.symbol ++ "'>"

/-- A stepping operator as it is shown. -/
def UpdateOperator.display (op : UpdateOperator) : String :=
  "<UpdateOperator." ++ op.name ++ ": ('" ++ op.nodeKind ++ "', '" ++ op.symbol ++ "')>"

/-- A variant with its fields, each as its name and its value. -/
def displayVariant (name : String) (fields : List (String × String)) : String :=
  name ++ "(" ++ ", ".intercalate (fields.map fun (key, value) => key ++ "=" ++ value) ++ ")"

/-- Items in parentheses; a single one is followed by a comma. -/
def displayTuple : List String → String
  | [] => "()"
  | [item] => "(" ++ item ++ ",)"
  | items => "(" ++ ", ".intercalate items ++ ")"

namespace Pattern

mutual

/-- A pattern as it is shown. -/
def display : Pattern → String
  | .wildcard _ => displayVariant "Wildcard" []
  | .reference name _ => displayVariant "IDReference" [("name", Text.quoted name)]
  | .literal c _ =>
    displayVariant "Literal" [("literal_type", c.type.display), ("value", c.value.display)]
  | .anyLiteral type _ => displayVariant "LiteralWildcard" [("literal_type", type.display)]
  | .null _ => displayVariant "NullLiteral" []
  | .this _ => displayVariant "ThisLiteral" []
  | .field receiver name _ =>
    displayVariant "FieldSelection" [("receiver", display receiver), ("name", Text.quoted name)]
  | .method receiver name args _ =>
    displayVariant "MethodCall"
      [("receiver", display receiver), ("name", Text.quoted name),
        ("args", displayTuple (displayList args))]
  | .ownMethod name args _ =>
    displayVariant "MethodCall"
      [("receiver", "None"), ("name", Text.quoted name), ("args", displayTuple (displayList args))]
  | .call name args _ =>
    displayVariant "FunctionCall"
      [("name", Text.quoted name), ("args", displayTuple (displayList args))]
  | .creation typeName args _ =>
    displayVariant "InstanceCreation"
      [("type_name", Text.quoted typeName), ("args", displayTuple (displayList args))]
  | .typeTest target typeName _ =>
    displayVariant "InstanceofTest"
      [("target", display target), ("type_name", Text.quoted typeName)]
  | .unary op operand _ =>
    displayVariant "UnaryOp" [("operator", op.display), ("operand", display operand)]
  | .binary op lhs rhs _ =>
    displayVariant "BinaryOp" [("operator", op.display), ("lhs", display lhs), ("rhs", display rhs)]
  | .update op operand _ =>
    displayVariant "Update" [("operator", op.display), ("operand", display operand)]
  | .element array index _ =>
    displayVariant "ArrayAccess" [("array", display array), ("index", display index)]
  | .anyLambda _ => displayVariant "LambdaPlaceholder" []
  | .anyArguments _ => displayVariant "RepeatedParameter" []
  | .unknown name _ => displayVariant name []

/-- Patterns as they are shown, one by one. -/
def displayList : List Pattern → List String
  | [] => []
  | p :: ps => display p :: displayList ps

end

end Pattern

/-- The word for a context in a suffix. -/
def Context.word : Context → String
  | .any => "any"
  | .conditional => "conditional"
  | .discarded => "discarded"

/-- A kind as it is shown. -/
def Kind.display (k : Kind) : String :=
  match k.context with
  | .any => k.expression.display
  | context =>
    k.expression.display ++ " [" ++ (if k.negated then "!" else "") ++ context.word ++ "]"

end ShapeLint
