import ShapeLint.Node.Visit

/-!
# Contexts

Whether a node is a condition, and whether its value is thrown away. Both have a negated form that
is not their plain negation: a node is *negated conditional* if it is the operand of a `!` that is a
condition, and *negated discarded* if its value is read.
-/

namespace ShapeLint

open NodeKind

/-- The kinds of nodes that have a condition. -/
def conditionOwners : List String :=
  ["if_statement", "while_statement", "do_statement", forLoop, ternary]

/-- The endings of the kinds of nodes that are never values. -/
def nonValueEndings : List String :=
  ["_statement", "_declaration", "block", "_body", "program"]

/-- The kinds of expressions that read every value among their children. -/
def operandOwners : List String :=
  [methodCall, fieldAccess, creation, typeTest, unary, binary, prefixUpdate, postfixUpdate,
    arrayAccess, ternary]

/-- The kinds of parents and the roles in them in which the value of a child is read. -/
def readingPlaces : List (String × Option String) :=
  [("assignment_expression", some "right"), ("variable_declarator", some "value"),
    ("cast_expression", some "value"),
    ("lambda_expression", some "body"), ("enhanced_for_statement", some "value"),
    ("switch_expression", some Role.condition), ("element_value_pair", some "value"),
      ("return_statement", none),
    ("throw_statement", none), ("yield_statement", none), ("assert_statement", none),
      ("synchronized_statement", none),
    ("array_initializer", none), ("dimensions_expr", none), ("argument_list", none)]

/-- Whether nodes of a kind are never values, which is told by the ending of its name. -/
def isNonValue (kind : String) : Bool :=
  nonValueEndings.any fun ending => ending.toList.isSuffixOf kind.toList

namespace Visit

/-- Whether the node is the condition of its parent. -/
def isCondition (v : Visit) : Bool :=
  match v.parent? with
  | none => false
  | some parent => conditionOwners.contains parent.kind && v.role == some Role.condition

/-- Whether the node is the operand of a negation that is a condition. -/
def isNegatedCondition (v : Visit) : Bool :=
  match v.outer? with
  | none => false
  | some outer =>
    outer.node.kind == unary && outer.node.value.same (.ofString "!") && outer.isCondition

/-- Whether the value of the node is thrown away: it is a statement of its own, or it is a value in
the head of a loop and there for what it does. -/
def isDiscarded (v : Visit) : Bool :=
  match v.parent? with
  | none => false
  | some parent =>
    parent.kind == expressionStatement
      || (parent.kind == forLoop && (v.role == some Role.init || v.role == some Role.update)
        && !isNonValue v.node.kind)

/-- Whether the value of the node is read. This is not the negation of being thrown away: what is no
value is neither. -/
def isRead (v : Visit) : Bool :=
  match v.parent? with
  | none => false
  | some parent =>
    !isNonValue v.node.kind
      && (operandOwners.contains parent.kind || v.isCondition ||
        readingPlaces.contains (parent.kind, v.role))

end Visit

end ShapeLint
