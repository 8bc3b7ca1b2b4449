import ShapeLint.Java.Expression

/-!
# Annotations, modifiers and variables

What declarations share: annotations with their arguments, modifiers, the variables that one
declaration declares, and the parameters of methods.
-/

namespace ShapeLint.Java.Grammar

variable (g : Grammar)

/-! ## Annotations -/

/-- A value inside an annotation. -/
def anyAnnotationValue : Part :=
  choice [g.annotationUse, g.expression,
    rule "element_value_array_initializer" [tok "\x7b", opt [separated "," g.annotationValue],
      opt [tok ","], tok "\x7d"]]

/-- The arguments of an annotation: named ones, or values. -/
def annotationArguments : Part :=
  let pair := rule "element_value_pair"
    [field "key" identifier, tok "=", field "value" g.annotationValue]
  rule "annotation_argument_list"
    [tok "(", opt [separated "," (choice [pair, g.annotationValue])], tok ")"]

/-- An annotation. -/
def anyAnnotationUse : Part :=
  choice [rule "annotation"
    [tok "@", field "name" qualifiedName, field "arguments" g.annotationArguments],
    rule "marker_annotation" [tok "@", field "name" qualifiedName]]

/-! ## Modifiers -/

/-- The words that are modifiers wherever they stand. -/
def modifierWords : List String :=
  ["public", "protected", "private", "abstract", "static", "final", "strictfp", "default",
    "synchronized", "native",
    "transient", "volatile", "non-sealed"]

/-- The words that may follow the modifier `sealed`, which elsewhere is a name. -/
def sealedFollowers : List String :=
  ["class", "interface", "@"] ++ modifierWords

/-- A modifier that is a word. -/
def modifierWord : Part :=
  choice [tokIn modifierWords, parts [tok "sealed", do
    match ← next? with
    | some t => if sealedFollowers.contains t.text then return [] else failure
    | none => failure]]

/-- Modifiers, which may be absent. -/
def modifiers : Part :=
  opt [rule "modifiers" [some1 [choice [g.annotationUse, modifierWord]]]]

/-! ## Variables -/

/-- A variable with its initial value. -/
def variableDeclarator : Part :=
  rule "variable_declarator" [field "name" declaredName, opt [field "dimensions" g.dimensions],
    opt [tok "=", field "value" (choice [g.expression, g.arrayInitializer])]]

/-- Variables after their type, as a tree of a type. -/
def declarators (type : String) : Part :=
  rule type [g.modifiers, field "type" g.plainType,
    separated "," (field "declarator" g.variableDeclarator), tok ";"]

/-! ## Parameters -/

/-- A parameter. -/
def parameter : Part :=
  choice [
    rule "formal_parameter" [g.modifiers, field "type" g.plainType, field "name" declaredName,
      opt [field "dimensions" g.dimensions]],
    rule "spread_parameter" [g.modifiers, g.plainType, tok "...", g.annotations,
      g.variableDeclarator]]

/-- The object itself as a parameter. -/
def receiver : Part :=
  rule "receiver_parameter" [g.annotations, g.plainType, many [identifier, tok "."],
    leaf "this" "this"]

/-- The parameters of a method. -/
def anyParameters : Part :=
  rule "formal_parameters" [tok "(",
    opt [separated "," (choice [g.receiver, g.parameter])], tok ")"]

end ShapeLint.Java.Grammar
