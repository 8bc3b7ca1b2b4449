import ShapeLint.Java.Convert
import ShapeLint.Java.Statement

/-!
# Parsing Java

The grammar for a number of nesting levels is built from the grammar for one level less. A source
has at most as many levels as a small multiple of its tokens, so that no source is nested too
deeply. Where no further statement can be read, the rest of the source is an error.
-/

namespace ShapeLint.Java

/-- The grammar for a number of nesting levels. -/
def grammar : Nat → Grammar
  | 0 => .empty
  | level + 1 =>
    { expressionWith := fun mayBeLambda tokens => (grammar level).anyExpression mayBeLambda tokens
      signedWith := fun mayBeLambda tokens => (grammar level).anySigned mayBeLambda tokens
      arrayInitializer := fun tokens => (grammar level).anyArrayInitializer tokens
      recordPattern := fun tokens => (grammar level).anyRecordPattern tokens
      type := fun tokens => (grammar level).anyType tokens
      annotationUse := fun tokens => (grammar level).anyAnnotationUse tokens
      annotationValue := fun tokens => (grammar level).anyAnnotationValue tokens
      parameters := fun tokens => (grammar level).anyParameters tokens
      classBody := fun tokens => (grammar level).anyClassBody tokens
      typeDeclaration := fun tokens => (grammar level).anyTypeDeclaration tokens
      block := fun tokens => (grammar level).anyBlock tokens
      statement := fun tokens => (grammar level).anyStatement tokens }

/-- How many levels of the grammar one token can lead through. A greater number would do as well. -/
def levelsPerToken : Nat := 6

/-- The statements at the front of tokens, and the tokens after them. -/
def statements (tokens : List Token) : List Tree × List Token :=
  match many [(grammar (levelsPerToken * (tokens.length + 1))).topLevel] tokens with
  | some result => result
  | none => ([], tokens)

/-- The concrete tree of a source. An error reaches from where no further statement can be read to
the end. -/
def Source.tree (s : Source) : Tree :=
  let stop := s.bytes.length
  let ts := s.tokens
  let (found, rest) := statements ts.tokens
  let error? := (rest.head?.map (·.start)).or ts.bad?
  let errors := error?.toList.map fun start => { type := "ERROR", start, stop : Tree }
  let start := ts.comment?.getD ((ts.tokens.head?.map (·.start)).getD stop)
  { type := "program", start, stop, children := found ++ errors }

/-- The nodes of a source, for reports under a path. -/
def parse (path : String) (s : Source) : Except ParseFailure Node :=
  ofTree s path s.tree

end ShapeLint.Java
