import ShapeLint.Java.Part

/-!
# The parts that refer to each other

Types hold annotations, annotations hold expressions, expressions hold the bodies of classes and of
functions, and those hold types again. Each group of rules is therefore written over the parts of
the others, as they are for one nesting level less.
-/

namespace ShapeLint.Java

/-- The parts of the grammar that others refer to: expressions and operands, the values of arrays,
patterns that take records apart, types, annotations and their values, parameters, the bodies of
classes, declarations of types, blocks and statements. -/
structure Grammar where
  /-- An expression; the flag says whether it may be a lambda or end in one, which it may not in
  front of an arrow that belongs to something else. -/
  expressionWith : Bool → Part
  /-- An operand with its signs and casts; the flag says whether it may be a lambda. -/
  signedWith : Bool → Part
  arrayInitializer : Part
  recordPattern : Part
  type : Part
  annotationUse : Part
  annotationValue : Part
  parameters : Part
  classBody : Part
  typeDeclaration : Part
  block : Part
  statement : Part

namespace Grammar

/-- The grammar without anything in it, in which every part fails. -/
def empty : Grammar where
  expressionWith _ := failure
  signedWith _ := failure
  arrayInitializer := failure
  recordPattern := failure
  type := failure
  annotationUse := failure
  annotationValue := failure
  parameters := failure
  classBody := failure
  typeDeclaration := failure
  block := failure
  statement := failure

/-- An expression. -/
def expression (g : Grammar) : Part :=
  g.expressionWith true

/-- An expression in front of an arrow that does not belong to it. -/
def labelExpression (g : Grammar) : Part :=
  g.expressionWith false

end Grammar

end ShapeLint.Java
