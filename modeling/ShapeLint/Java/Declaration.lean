import ShapeLint.Java.Variable

/-!
# Java declarations

Types with their members, and packages, imports and modules.
-/

namespace ShapeLint.Java.Grammar

variable (g : Grammar)

/-- Types one after another. -/
def typeList : Part :=
  rule "type_list" [separated "," g.type]

/-- The interfaces that a type implements. -/
def implemented : Part :=
  field "interfaces" (rule "super_interfaces" [tok "implements", g.typeList])

/-- The types that may extend a sealed one. -/
def permitted : Part :=
  field "permits" (rule "permits" [tok "permits", g.typeList])

/-- What is in braces. -/
def braced (type : String) (inside : List Part) : Part :=
  rule type ([tok "\x7b"] ++ inside ++ [tok "\x7d"])

/-! ## Methods -/

/-- The types of what a method throws. -/
def thrown : Part :=
  rule "throws" [tok "throws", separated "," g.type]

/-- A method. -/
def method : Part :=
  rule "method_declaration"
    [g.modifiers, opt [field "type_parameters" g.typeParameters, g.annotations],
    field "type" g.plainType, field "name" identifier, field "parameters" g.parameters,
    opt [field "dimensions" g.dimensions], opt [g.thrown], choice [field "body" g.block, tok ";"]]

/-- A call of another constructor. -/
def constructorCall : Part :=
  let which := field "constructor" (choice [leaf "this" "this", leaf "super" "super"])
  let object := field "object" do
    let first ← single g.head
    let object ← chain first fun t => do
      let _ ← require do return !((← isAt 0 ".") && (← isAt 1 "super"))
      g.follow t
    return [object]
  rule "explicit_constructor_invocation"
    [choice [parts [opt [field "type_arguments" g.typeArguments], which, require (isAt 0 "(")],
        parts [object, tok ".", opt [field "type_arguments" g.typeArguments],
          field "constructor" (leaf "super" "super")]],
      field "arguments" g.arguments, tok ";"]

/-- A constructor. -/
def constructor : Part :=
  rule "constructor_declaration" [g.modifiers, opt [field "type_parameters" g.typeParameters],
    field "name" identifier,
    field "parameters" g.parameters, opt [g.thrown],
    field "body" (braced "constructor_body" [opt [g.constructorCall], many [g.statement]])]

/-- A constructor that only checks what a record is made of. -/
def compactConstructor : Part :=
  rule "compact_constructor_declaration"
    [g.modifiers, field "name" identifier, field "body" g.block]

/-! ## Types -/

/-- A class. -/
def classDeclaration : Part :=
  rule "class_declaration" [g.modifiers, tok "class", field "name" identifier,
    opt [field "type_parameters" g.typeParameters],
    opt [field "superclass" (rule "superclass" [tok "extends", g.type])],
    opt [g.implemented], opt [g.permitted], field "body" g.classBody]

/-- A record. -/
def recordDeclaration : Part :=
  rule "record_declaration" [g.modifiers, tok "record", field "name" identifier,
    opt [field "type_parameters" g.typeParameters], field "parameters" g.parameters,
      opt [g.implemented],
    field "body" g.classBody]

/-- An interface. -/
def interfaceDeclaration : Part :=
  let member := choice [g.typeDeclaration, g.declarators "constant_declaration", g.method, tok ";"]
  rule "interface_declaration" [g.modifiers, tok "interface", field "name" identifier,
    opt [field "type_parameters" g.typeParameters],
      opt [rule "extends_interfaces" [tok "extends", g.typeList]],
    opt [g.permitted], field "body" (braced "interface_body" [many [member]])]

/-- An annotation type. -/
def annotationTypeDeclaration : Part :=
  let element := rule "annotation_type_element_declaration" [g.modifiers, field "type" g.plainType,
    field "name" identifier, tok "(", tok ")", opt [field "dimensions" g.dimensions],
    opt [tok "default", field "value" g.annotationValue], tok ";"]
  let member := choice [g.typeDeclaration, element, g.declarators "constant_declaration", tok ";"]
  rule "annotation_type_declaration" [g.modifiers, tok "@interface", field "name" identifier,
    field "body" (braced "annotation_type_body" [many [member]])]

/-- A member of a class. -/
def classMember : Part :=
  choice [g.typeDeclaration, g.declarators "field_declaration", g.method, g.constructor,
    g.compactConstructor, g.block,
    rule "static_initializer" [tok "static", g.block], tok ";"]

/-- The body of a class. -/
def anyClassBody : Part :=
  braced "class_body" [many [g.classMember]]

/-- An enumeration. -/
def enumDeclaration : Part :=
  let constant :=
    rule "enum_constant" [g.modifiers, field "name" identifier, opt [field "arguments" g.arguments],
    opt [field "body" g.classBody]]
  rule "enum_declaration" [g.modifiers, tok "enum", field "name" identifier, opt [g.implemented],
    field "body" (braced "enum_body" [opt [separated "," constant], opt [tok ","],
      opt [rule "enum_body_declarations" [tok ";", many [g.classMember]]]])]

/-- The declaration of a type. -/
def anyTypeDeclaration : Part :=
  choice [g.classDeclaration, g.recordDeclaration, g.interfaceDeclaration,
    g.annotationTypeDeclaration, g.enumDeclaration]

/-! ## Packages, imports and modules -/

/-- The package of a source. -/
def package : Part :=
  rule "package_declaration" [g.annotations, tok "package", qualifiedName, tok ";"]

/-- An import. -/
def importDeclaration : Part :=
  rule "import_declaration" [tok "import", opt [tok "static"], qualifiedName,
    opt [tok ".", rule "asterisk" [tok "*"]], tok ";"]

/-- The modules that a directive names after a word. -/
def modulesAfter (word : String) : Part :=
  parts [tok word, separated "," (field "modules" qualifiedName)]

/-- A directive of a module. -/
def directive : Part :=
  choice [
    rule "requires_module_directive" [tok "requires",
      many [field "modifiers" (rule "requires_modifier" [tokIn ["transitive", "static"]])],
      field "module" qualifiedName, tok ";"],
    rule "exports_module_directive"
      [tok "exports", field "package" qualifiedName, opt [modulesAfter "to"], tok ";"],
    rule "opens_module_directive"
      [tok "opens", field "package" qualifiedName, opt [modulesAfter "to"], tok ";"],
    rule "uses_module_directive" [tok "uses", field "type" qualifiedName, tok ";"],
    rule "provides_module_directive" [tok "provides", field "provided" qualifiedName, tok "with",
      separated "," (field "provider" qualifiedName), tok ";"]]

/-- A module. -/
def moduleDeclaration : Part :=
  rule "module_declaration"
    [g.annotations, opt [tok "open"], tok "module", field "name" qualifiedName,
    field "body" (braced "module_body" [many [directive]])]

/-- A declaration of anything but variables and methods. Packages and imports may stand anywhere. -/
def declaration : Part :=
  choice [g.typeDeclaration, importDeclaration, g.package, g.moduleDeclaration]

end ShapeLint.Java.Grammar
