import ShapeLint.Java.Declaration

/-!
# Java statements

A statement that starts with a type and a name declares variables, and any other that no keyword
starts is an expression or a label. A semicolon alone is a statement without a tree of its own.
-/

namespace ShapeLint.Java.Grammar

variable (g : Grammar)

/-- A block. -/
def anyBlock : Part :=
  braced "block" [many [g.statement]]

/-- A loop over the values of an array or a collection. -/
def forEach : Part :=
  rule "enhanced_for_statement" [tok "for", tok "(", g.modifiers, field "type" g.plainType,
    field "name" declaredName,
    opt [field "dimensions" g.dimensions], tok ":", field "value" g.expression, tok ")",
      field "body" g.statement]

/-- A loop with a condition and steps. -/
def forLoop : Part :=
  let expressions (name : String) := opt [separated "," (field name g.expression)]
  rule "for_statement" [tok "for", tok "(",
    choice [field "init" (g.declarators "local_variable_declaration"),
      parts [expressions "init", tok ";"]],
    opt [field "condition" g.expression], tok ";", expressions "update", tok ")",
      field "body" g.statement]

/-- What is done when something is caught. -/
def catchClause : Part :=
  rule "catch_clause" [tok "catch", tok "(",
    rule "catch_formal_parameter" [g.modifiers, rule "catch_type" [separated "|" g.plainType],
      field "name" declaredName],
    tok ")", field "body" g.block]

/-- What is done in any case. -/
def finallyClause : Part :=
  rule "finally_clause" [tok "finally", g.block]

/-- A resource that is closed at the end: a new variable, or one that is there. -/
def resource : Part :=
  let existing := do
    match ← g.expression with
    | [t] => if t.type == "identifier" || t.type == "field_access" then return [t] else failure
    | _ => failure
  rule "resource" [choice [
    parts [g.modifiers, field "type" g.plainType, field "name" declaredName, tok "=",
      field "value" g.expression],
    existing]]

/-- A protected block. -/
def tryStatement : Part :=
  let resources :=
    rule "resource_specification" [tok "(", separated ";" g.resource, opt [tok ";"], tok ")"]
  choice [
    rule "try_statement" [tok "try", field "body" g.block,
      choice [parts [some1 [g.catchClause], opt [g.finallyClause]], g.finallyClause]],
    rule "try_with_resources_statement"
      [tok "try", field "resources" resources, field "body" g.block,
      many [g.catchClause], opt [g.finallyClause]]]

/-- The statements that start with a keyword. -/
def keywordStatements : List Part :=
  [rule "if_statement"
    [tok "if", field "condition" g.parenthesized, field "consequence" g.statement,
      opt [tok "else", field "alternative" g.statement]],
    rule "while_statement"
      [tok "while", field "condition" g.parenthesized, field "body" g.statement],
    rule "do_statement"
      [tok "do", field "body" g.statement, tok "while", field "condition" g.parenthesized, tok ";"],
    g.forEach, g.forLoop, g.tryStatement, g.switch,
    rule "return_statement" [tok "return", opt [g.expression], tok ";"],
    rule "break_statement" [tok "break", opt [identifier], tok ";"],
    rule "continue_statement" [tok "continue", opt [identifier], tok ";"],
    rule "throw_statement" [tok "throw", g.expression, tok ";"],
    rule "assert_statement" [tok "assert", g.expression, opt [tok ":", g.expression], tok ";"],
    rule "synchronized_statement" [tok "synchronized", g.parenthesized, field "body" g.block],
    rule "yield_statement" [tok "yield", g.expression, tok ";"]]

/-- A statement. -/
def anyStatement : Part :=
  choice ([g.block, tok ";"] ++ g.keywordStatements ++
    [rule "labeled_statement" [identifier, tok ":", g.statement], g.declaration,
      g.declarators "local_variable_declaration",
        rule "expression_statement" [g.expression, tok ";"]])

/-- A statement or a method, which may stand outside of all types. So a source may be a mere
snippet. -/
def topLevel : Part :=
  choice [g.statement, g.method]

end ShapeLint.Java.Grammar
