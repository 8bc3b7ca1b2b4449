import ShapeLint.Java.Type

/-!
# Java expressions

Operators bind as in Java. A cast takes the operand after it, and where a sign follows a name in
parentheses the sign belongs to an operand that is cast. Steps and signs bind equally and from the
left, so that a step behind a signed operand steps the signed operand. An assignment takes the name,
member or element right in front of it. A lambda body reaches as far as it can.
-/

namespace ShapeLint.Java.Grammar

variable (g : Grammar)

/-! ## Operators -/

/-- The binary operators with their binding strength. -/
def binaryOperators : List (String × Nat) :=
  [("||", 4), ("&&", 5), ("|", 6), ("^", 7), ("&", 8), ("==", 9), ("!=", 9), ("<", 10), (">", 10),
    ("<=", 10), (">=", 10),
    ("instanceof", 10), ("<<", 11), (">>", 11), (">>>", 11), ("+", 12), ("-", 12), ("*", 13),
      ("/", 13), ("%", 13)]

/-- The operators of assignments. -/
def assignmentOperators : List String :=
  ["=", "+=", "-=", "*=", "/=", "%=", "&=", "|=", "^=", "<<=", ">>=", ">>>="]

/-- The operators that start with a closing angle bracket, the longest first. -/
def angleOperators : List String :=
  [">>>=", ">>>", ">>=", ">>", ">=", ">"]

/-- The tokens of one character each that make up an operator, if they stand at the front without
anything between. -/
def joined? : List Char → List Token → Option (List Token × List Token)
  | [], tokens => some ([], tokens)
  | c :: cs, t :: tokens =>
    if t.kind == .symbol && t.text == c.toString then
      match cs, tokens with
      | [], _ => some ([t], tokens)
      | _ :: _, u :: _ =>
        if u.start == t.stop then (joined? cs tokens).map fun (found, rest) =>
          (t :: found, rest) else none
      | _ :: _, [] => none
    else none
  | _ :: _, [] => none

/-- The next operator, in which closing angle brackets that touch are joined. -/
def operator : Reader Tree := fun tokens =>
  match angleOperators.findSome? fun op => (joined? op.toList tokens).map (op, ·) with
  | some (op, found, rest) =>
    some ({ Tree.joined op (found.map (Tree.ofToken op false)) with isNamed := false,
                                                                    children := [] }, rest)
  | none =>
    match tokens with
    | t :: rest =>
      if t.kind == .symbol || t.kind == .word && t.text == "instanceof"
        then some (.ofToken t.text false t, rest) else none
    | [] => none

/-- The next operator, if it is a binary one that binds at least as strongly as is asked. Otherwise
it is not read. -/
def binaryOperator (least : Nat) : Reader (Tree × Nat) := do
  let op ← operator
  match binaryOperators.lookup op.type with
  | some strength => if least ≤ strength then return (op, strength) else failure
  | none => failure

/-! ## Patterns -/

/-- A pattern that takes a record apart. -/
def anyRecordPattern : Part :=
  let type := do
    let t ← single g.classType
    if t.type == "generic_type" then return [t] else failure
  let component := choice [g.recordPattern,
    rule "record_pattern_component"
      [choice [leaf "underscore_pattern" "_", parts [g.plainType, identifier]]]]
  rule "record_pattern" [choice [parts [identifier, require (isAt 0 "(")], type],
    rule "record_pattern_body" [tok "(", opt [separated "," component], tok ")"]]

/-! ## Operands -/

/-- The arguments of a call. -/
def arguments : Part :=
  rule "argument_list" [tok "(", opt [separated "," g.expression], tok ")"]

/-- An expression in parentheses. -/
def parenthesized : Part :=
  rule "parenthesized_expression" [tok "(", g.expression, tok ")"]

/-- The values of an array. -/
def anyArrayInitializer : Part :=
  rule "array_initializer"
    [tok "\x7b", opt [separated "," (choice [g.expression, g.arrayInitializer])], opt [tok ","],
    tok "\x7d"]

/-- A literal. -/
def literal : Part := do
  let t ← tokenWhere fun t =>
    match t.kind with
    | .literal _ => true
    | _ => false
  match t.kind with
  | .literal type => return [.ofToken type true t]
  | _ => failure

/-- The parameters of a lambda and the arrow. -/
def lambdaHead : Part :=
  parts [field "parameters" (choice
      [parts [identifier, require (isAt 0 "->")],
        parts [rule "inferred_parameters" [tok "(", separated "," identifier, tok ")"],
          require (isAt 0 "->")],
        parts [g.parameters, require (isAt 0 "->")]]),
    tok "->"]

/-- A lambda. Its body is an expression or a block, and an expression reaches as far as it can. -/
def lambda : Part :=
  rule "lambda_expression" [g.lambdaHead, field "body" (choice [g.expression, g.block])]

/-- What follows `new` in the creation of an instance or an array, after what stands before it. -/
def creation (before : List Tree) : Part := do
  let word ← tok "new"
  let front := before ++ word
  choice [do
      let rest ← parts [g.annotations, opt [field "type_arguments" g.typeArguments],
        field "type" g.simpleType,
        field "arguments" g.arguments, opt [g.classBody]]
      return [.joined "object_creation_expression" (front ++ rest)],
    do
      let sized := rule "dimensions_expr" [g.annotations, tok "[", g.expression, tok "]"]
      let rest ← parts [g.annotations, field "type" g.simpleType,
        choice [parts [some1 [field "dimensions" sized], opt [field "dimensions" g.dimensions]],
          parts [field "dimensions" g.dimensions, field "value" g.arrayInitializer]]]
      return [.joined "array_creation_expression" (front ++ rest)]]

/-- The parts that follow an object in a call or an access. -/
def member (object : List Tree) : Part := do
  let object := object.map (·.inField "object")
  let dot ← tok "."
  let front := object ++ dot
  choice [do
      let rest ← parts [field "type_arguments" g.typeArguments, field "name" identifier,
        field "arguments" g.arguments]
      return [.joined "method_invocation" (front ++ rest)],
    do
      let rest ← parts [opt [leaf "super" "super", tok "."], field "name" identifier,
        field "arguments" g.arguments]
      return [.joined "method_invocation" (front ++ rest)],
    do
      let rest ← parts [opt [leaf "super" "super", tok "."],
        field "field" (choice [identifier, leaf "this" "this"])]
      return [.joined "field_access" (front ++ rest)]]

/-- The name of a method after two colons. -/
def methodName (object : Tree) : Reader Tree := do
  let rest ← parts [tok "::", opt [g.typeArguments], choice [tok "new", identifier]]
  return .joined "method_reference" (object :: rest)

/-- What may follow an operand: a member, an element, a method or the creation of an inner instance.
-/
def follow (t : Tree) : Reader Tree :=
  single <| choice [g.member [t],
    do
      let dot ← tok "."
      g.creation (t :: dot),
    do
      let dot ← tok "."
      let text ← literal
      return [.joined "template_expression"
        (t.inField "template_processor" :: dot ++ text.map (·.inField "template_argument"))],
    do
      let rest ← parts [tok "[", field "index" g.expression, tok "]"]
      return [.joined "array_access" (t.inField "array" :: rest)],
    do return [← g.methodName t]]

/-- A type that is used like an operand: its class, or one of its methods if it is no plain name. -/
def typeOperand : Part := do
  let type ← single g.plainType
  choice [rule "class_literal" [return [type], tok ".", tok "class"], do
    if ["type_identifier", "scoped_type_identifier"].contains type.type then failure
      else return [← g.methodName type]]

/-- The first part of an operand. Types come before names, since a name may be the start of a type
that is used like an operand. -/
def head : Part :=
  choice [literal, leaf "true" "true", leaf "false" "false", leaf "null_literal" "null",
    g.typeOperand,
    rule "method_invocation" [field "name" identifier, field "arguments" g.arguments],
    identifier, leaf "this" "this", g.creation [], g.parenthesized,
    do
      let object ← leaf "super" "super"
      choice [g.member object, do return [← g.methodName (← single (return object))]]]

/-- The types of trees that can be assigned to. -/
def assignable : List String :=
  ["identifier", "field_access", "array_access"]

/-- An operand with all that follows it, and an assignment to it. Only a name, a member or an
element can be assigned to. -/
def primary : Part := do
  let first ← single g.head
  let t ← chain first g.follow
  choice [do
      if !assignable.contains t.type then failure
      let op ← operator
      if !assignmentOperators.contains op.type then failure
      let value ← g.expression
      return [.joined "assignment_expression"
        (t.inField "left" :: op.inField "operator" :: value.map (·.inField "right"))],
    return [t]]

/-! ## Switches -/

/-- What an arm of a switch is for. -/
def switchLabel : Part :=
  let pattern :=
    rule "pattern" [choice [g.recordPattern, rule "type_pattern" [g.plainType, identifier]]]
  let guard := rule "guard" [tok "when", g.labelExpression]
  let ends := do return (← isAt 0 "->") || (← isAt 0 ":")
  let value := choice [g.labelExpression, leaf "identifier" "default"]
  rule "switch_label" [choice [tok "default",
    parts [tok "case", choice [parts [pattern, opt [guard], require ends],
      parts [separated "," value, opt [guard], require ends]]]]]

/-- The arms of a switch: all are statements after colons, or all follow arrows. A switch without
arms counts as the former. -/
def switchBlock : Part :=
  let arm := rule "switch_rule" [g.switchLabel, tok "->",
    choice [rule "expression_statement" [g.expression, tok ";"],
      rule "throw_statement" [tok "throw", g.expression, tok ";"], g.block]]
  let group := rule "switch_block_statement_group" [g.switchLabel, tok ":", many [g.statement]]
  choice [rule "switch_block" [tok "\x7b", many [group], tok "\x7d"],
    rule "switch_block" [tok "\x7b", many [arm], tok "\x7d"]]

/-- A switch. -/
def switch : Part :=
  rule "switch_expression"
    [tok "switch", field "condition" g.parenthesized, field "body" g.switchBlock]

/-! ## Operations -/

/-- The words that an operand can start with. -/
def operandWords : List String :=
  ["this", "super", "new", "switch", "true", "false", "null", "void", "boolean", "byte", "short",
    "int", "long", "char", "float",
    "double"]

/-- Whether an operand can start with the token at a distance. This decides whether a type in
parentheses is a cast. -/
def startsOperand (distance : Nat) : Reader Bool := do
  match (← get)[distance]? with
  | some t =>
    match t.kind with
    | .literal _ => return true
    | .word => return operandWords.contains t.text || !reservedWords.contains t.text
    | .symbol =>
      if ["++", "--"].contains t.text then
        match (← get)[distance + 1]? with
        | some u => return u.kind == .word || u.text == "("
        | none => return false
      else return ["(", "!", "~", "+", "-"].contains t.text
  | none => return false

/-- Steps behind an operand. -/
def stepped (t : Tree) : Reader Tree :=
  chain t fun t => do
    let step ← tokIn ["++", "--"]
    return .joined "update_expression" (t :: step)

/-- An operand with signs and casts; the flag says whether it may be a lambda. -/
def anySigned (mayBeLambda : Bool) : Part :=
  let signed := g.signedWith mayBeLambda
  choice [
    if mayBeLambda then g.lambda else failure,
    rule "unary_expression" [field "operator" (tokIn ["+", "-", "!", "~"]), field "operand" signed],
    rule "update_expression" [tokIn ["++", "--"], signed],
    rule "cast_expression"
      [tok "(", field "type" g.type, many [tok "&", field "type" g.type], tok ")",
      require (startsOperand 0), field "value" do return [← stepped (← single signed)]],
    g.switch,
    g.primary]

/-- An operand with signs, casts and steps. -/
def operand (mayBeLambda : Bool) : Reader Tree := do
  stepped (← single (g.signedWith mayBeLambda))

/-- What is tested of an operand's type. -/
def typeTested : Part :=
  parts [opt [tok "final"],
    choice [field "pattern" g.recordPattern,
      parts [field "right" g.type, opt [field "name" identifier]]]]

/-- An operation from its left operand on, of operators that bind at least as strongly as is asked.
Its right operand takes those that bind more strongly, so operators associate to the left. -/
def operationFrom (mayBeLambda : Bool) : Nat → Nat → Tree → Reader Tree
  | 0, _, left => return left
  | level + 1, least, left =>
    chain left fun left => do
      let (op, strength) ← binaryOperator least
      if op.type == "instanceof" then
        return .joined "instanceof_expression" (left.inField "left" :: op :: (← g.typeTested))
      else
        let right ← g.operand mayBeLambda
        let right ← operationFrom mayBeLambda level (strength + 1) right
        return .joined "binary_expression"
          [left.inField "left", op.inField "operator", right.inField "right"]

/-- How many levels of binding strength there are. -/
def strengths : Nat := 14

/-- An expression; the flag says whether it may be a lambda or end in one. -/
def anyExpression (mayBeLambda : Bool) : Part := do
  let first ← g.operand mayBeLambda
  let condition ← g.operationFrom mayBeLambda strengths 0 first
  choice [rule "ternary_expression"
    [return [condition.inField "condition"], tok "?", field "consequence" g.expression,
      tok ":", field "alternative" (g.expressionWith mayBeLambda)],
    return [condition]]

end ShapeLint.Java.Grammar
