import ShapeLint.Java.Grammar

/-!
# Java types

Primitive types, names of classes with their type arguments, and arrays of these. Annotations may
stand in front of a type, of a part of its name and of its dimensions.
-/

namespace ShapeLint.Java.Grammar

variable (g : Grammar)

/-- Any number of annotations. -/
def annotations : Part :=
  many [g.annotationUse]

/-- A wildcard with its bound. -/
def wildcard : Part :=
  rule "wildcard" [g.annotations, tok "?",
    opt [choice [parts [tok "extends", g.type], parts [leaf "super" "super", g.type]]]]

/-- Type arguments; there may be none. -/
def typeArguments : Part :=
  rule "type_arguments" [tok "<", opt [separated "," (choice [g.wildcard, g.type])], tok ">"]

/-- A type as one with type arguments, if there are any. The type becomes the first child then. -/
def withTypeArguments (t : Tree) : Reader Tree := do
  match ← opt [g.typeArguments] with
  | [] => return t
  | args => return .joined "generic_type" (t :: args)

/-- The name of a class, in which each part may have type arguments. -/
def classType : Part := do
  let first ← single (nameAs "type_identifier")
  let first ← g.withTypeArguments first
  let type ← chain first fun scope => do
    let dot ← tok "."
    let name ← parts [g.annotations, nameAs "type_identifier"]
    g.withTypeArguments (.joined "scoped_type_identifier" (scope :: dot ++ name))
  return [type]

/-- A primitive type. -/
def primitiveType : Part :=
  choice [leaf "void_type" "void", leaf "boolean_type" "boolean",
    rule "integral_type" [tokIn ["byte", "short", "int", "long", "char"]],
    rule "floating_point_type" [tokIn ["float", "double"]]]

/-- A type that is no array. -/
def simpleType : Part :=
  choice [primitiveType, g.classType]

/-- Dimensions without an extent. -/
def dimensions : Part :=
  rule "dimensions" [some1 [g.annotations, tok "[", tok "]"]]

/-- A type without annotations in front. -/
def plainType : Part := do
  let element ← single g.simpleType
  match ← opt [g.dimensions] with
  | [] => return [element]
  | dims =>
    return [.joined "array_type" (element.inField "element" :: dims.map (·.inField "dimensions"))]

/-- A type. -/
def anyType : Part :=
  choice [g.plainType, rule "annotated_type" [some1 [g.annotationUse], g.plainType]]

/-- A parameter of a type or method, with its bounds. -/
def typeParameter : Part :=
  rule "type_parameter" [g.annotations, nameAs "type_identifier",
    opt [rule "type_bound" [tok "extends", separated "&" g.type]]]

/-- The parameters of a type or method. -/
def typeParameters : Part :=
  rule "type_parameters" [tok "<", separated "," g.typeParameter, tok ">"]

end ShapeLint.Java.Grammar
