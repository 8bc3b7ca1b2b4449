import ShapeLint.Proofs.Image

/-!
# Expressions in a text that goes on

The extent of a node is what is left of the text before and after it. In a text that goes on, as
much more is left everywhere, and what was written at the front stands at the same place. So an
expression of a text is the same expression, with its extents moved, in every text that goes on
behind it: it resolves to the same pattern, with the same spans, or fails at the same place for the
same reason.
-/

namespace ShapeLint

section

variable {Lit Loc Loc' : Type} (f : Loc → Loc')

mutual

/-- An expression with its places changed, and nothing else. -/
def Expr.relocate : Expr Lit Loc → Expr Lit Loc'
  | .wildcard loc => .wildcard (f loc)
  | .reference name loc => .reference name (f loc)
  | .literal lit loc => .literal lit (f loc)
  | .anyLiteral type loc => .anyLiteral type (f loc)
  | .null loc => .null (f loc)
  | .this loc => .this (f loc)
  | .field receiver name loc => .field receiver.relocate name (f loc)
  | .method receiver name args loc => .method receiver.relocate name (relocateList args) (f loc)
  | .ownMethod name args loc => .ownMethod name (relocateList args) (f loc)
  | .call name args loc => .call name (relocateList args) (f loc)
  | .creation typeName args loc => .creation typeName (relocateList args) (f loc)
  | .typeTest target typeName loc => .typeTest target.relocate typeName (f loc)
  | .unary op operand loc => .unary op operand.relocate (f loc)
  | .binary op lhs rhs loc => .binary op lhs.relocate rhs.relocate (f loc)
  | .update op operand loc => .update op operand.relocate (f loc)
  | .element array index loc => .element array.relocate index.relocate (f loc)
  | .anyLambda loc => .anyLambda (f loc)
  | .anyArguments loc => .anyArguments (f loc)
  | .unknown name loc => .unknown name (f loc)

/-- Expressions with their places changed. -/
def Expr.relocateList : List (Expr Lit Loc) → List (Expr Lit Loc')
  | [] => []
  | e :: es => e.relocate :: relocateList es

end

lemma Expr.relocateList_eq_map (es : List (Expr Lit Loc)) :
    Expr.relocateList f es = es.map (Expr.relocate f) := by
  induction es with
  | nil => rfl
  | cons e es ih => rw [relocateList, ih, List.map_cons]

/-- The place of a relocated expression is the changed place of the expression. -/
lemma Expr.loc_relocate (e : Expr Lit Loc) : (e.relocate f).loc = f e.loc := by
  cases e <;> rfl

lemma Expr.isAnyArguments_relocate (e : Expr Lit Loc) :
    (e.relocate f).isAnyArguments = e.isAnyArguments := by
  cases e <;> rfl

end

namespace Grammar

/-- An extent in a text that goes on by so many characters: as many more are left before and after
it. -/
def Extent.moved (n : Nat) (x : Extent) : Extent :=
  ⟨x.before + n, x.after + n⟩

/-- An expression in a text that goes on by so many characters. -/
abbrev moved (n : Nat) : Surface → Surface :=
  Expr.relocate (Extent.moved n)

/-- A tail in a text that goes on by so many characters. -/
def Tail.moved (n : Nat) : Tail → Tail
  | .operator op rhs after => .operator op (Grammar.moved n rhs) (after + n)
  | .typeTest typeName after => .typeTest typeName (after + n)

/-- A selector in a text that goes on by so many characters. -/
def Selector.moved (n : Nat) : Selector → Selector
  | .field name after => .field name (after + n)
  | .method name args after => .method name (args.map (Grammar.moved n)) (after + n)
  | .index e after => .index (Grammar.moved n e) (after + n)

/-- Attaching a tail and moving to a longer text can be done in either order, since the span of the
whole is made of a place in the left operand and one in the tail. -/
lemma Tail.attach_moved (n : Nat) (lhs : Surface) (tail : Tail) :
    Tail.attach (Grammar.moved n lhs) (tail.moved n) = Grammar.moved n (Tail.attach lhs tail) := by
  cases tail with
  | operator op rhs after => rw [Tail.moved, Tail.attach, Expr.loc_relocate]; rfl
  | typeTest typeName after => rw [Tail.moved, Tail.attach, Expr.loc_relocate]; rfl

/-- Attaching a selector and moving to a longer text can be done in either order. -/
lemma Selector.attach_moved (n : Nat) (receiver : Surface) (selector : Selector) :
    Selector.attach (Grammar.moved n receiver) (selector.moved n) =
      Grammar.moved n (Selector.attach receiver selector) := by
  cases selector with
  | field name after => rw [Selector.moved, Selector.attach, Expr.loc_relocate]; rfl
  | method name args after =>
    rw [Selector.moved, Selector.attach, Expr.loc_relocate, ← Expr.relocateList_eq_map]
    rfl
  | index e after => rw [Selector.moved, Selector.attach, Expr.loc_relocate]; rfl

end Grammar

namespace Pattern

open Grammar

variable (text more : List Char)

/-- The span between two offsets of a text depends only on the text in front of them. -/
lemma ofOffsets_append {start stop : Nat} (hstart : start ≤ text.length)
    (hstop : stop ≤ text.length) :
    Span.ofOffsets (text ++ more) start stop = Span.ofOffsets text start stop := by
  rw [Span.ofOffsets, Span.ofOffsets, Text.position, Text.position, Text.position, Text.position,
    List.take_append_of_le_length hstart, List.take_append_of_le_length hstop]

lemma length_sub_moved (n : Nat) : (text ++ more).length - (n + more.length) = text.length - n := by
  rw [List.length_append]
  omega

/-- A moved extent has the same span in the longer text. -/
lemma extentSpan_moved (x : Extent) :
    extentSpan (text ++ more) (x.moved more.length) = extentSpan text x := by
  rw [extentSpan, extentSpan, Extent.moved, length_sub_moved, length_sub_moved]
  exact ofOffsets_append text more (Nat.sub_le ..) (Nat.sub_le ..)

/-- A failure at a moved extent lies at the same offsets of the longer text. -/
lemma extentError_moved (x : Extent) (cause : CompileCause) (token : List Char) :
    extentError (text ++ more) (x.moved more.length) cause token =
      extentError text x cause token := by
  rw [extentError, extentError, Extent.moved, length_sub_moved, length_sub_moved]

/-- The value of a literal is read off its spelling, and only the place of a failure is looked up in
the text. -/
lemma constant_moved (x : Extent) (spelling : Spelling) :
    constant (text ++ more) (x.moved more.length) spelling = constant text x spelling := by
  cases spelling with
  | double spelling => rw [constant, constant, extentError_moved]
  | integer spelling => rw [constant, constant, extentError_moved]
  | string spelling =>
    rw [constant, constant]
    cases Literal.string spelling with
    | ok points => rfl
    | error e => exact congrArg Except.error (extentError_moved text more x (.badEscape e) spelling)
  | boolean b => rfl

/-- A misplaced mark is found at the same place of the longer text. -/
lemma checkArguments_moved (es : List Surface) :
    checkArguments (text ++ more) (es.map (moved more.length)) = checkArguments text es := by
  have hfind : (es.map (moved more.length)).find? Expr.isAnyArguments =
      (es.find? Expr.isAnyArguments).map (moved more.length) := by
    rw [List.find?_map]
    refine congrArg (Option.map _) (congrArg (List.find? · es) ?_)
    exact funext (Expr.isAnyArguments_relocate _)
  rw [checkArguments, checkArguments, List.length_map, hfind]
  split
  · rfl
  · cases es.find? Expr.isAnyArguments with
    | none => rfl
    | some e =>
      rw [Option.map_some]
      dsimp only
      rw [moved, Expr.loc_relocate, extentError_moved]

mutual

/-- What a surface expression of a text means does not depend on how the text goes on. The induction
is on the expression, with the lists of arguments beside it. -/
lemma resolve_moved : (e : Surface) → resolve (text ++ more) (moved more.length e) = resolve text e
  | .wildcard x => by rw [moved, Expr.relocate, resolve, resolve, extentSpan_moved]
  | .reference name x => by rw [moved, Expr.relocate, resolve, resolve, extentSpan_moved]
  | .literal lit x => by
    rw [moved, Expr.relocate, resolve, resolve, extentSpan_moved, constant_moved]
  | .anyLiteral type x => by rw [moved, Expr.relocate, resolve, resolve, extentSpan_moved]
  | .null x => by rw [moved, Expr.relocate, resolve, resolve, extentSpan_moved]
  | .this x => by rw [moved, Expr.relocate, resolve, resolve, extentSpan_moved]
  | .field receiver name x => by
    rw [moved, Expr.relocate, resolve, resolve, extentSpan_moved, resolve_moved receiver]
  | .method receiver name args x => by
    rw [moved, Expr.relocate, resolve, resolve, extentSpan_moved, resolve_moved receiver,
      resolveList_moved args, Expr.relocateList_eq_map, checkArguments_moved]
  | .ownMethod name args x => by
    rw [moved, Expr.relocate, resolve, resolve, extentSpan_moved, resolveList_moved args,
      Expr.relocateList_eq_map, checkArguments_moved]
  | .call name args x => by
    rw [moved, Expr.relocate, resolve, resolve, extentSpan_moved, resolveList_moved args,
      Expr.relocateList_eq_map, checkArguments_moved]
  | .creation typeName args x => by
    rw [moved, Expr.relocate, resolve, resolve, extentSpan_moved, resolveList_moved args,
      Expr.relocateList_eq_map, checkArguments_moved]
  | .typeTest target typeName x => by
    rw [moved, Expr.relocate, resolve, resolve, extentSpan_moved, resolve_moved target]
  | .unary op operand x => by
    rw [moved, Expr.relocate, resolve, resolve, extentSpan_moved, resolve_moved operand]
  | .binary op lhs rhs x => by
    rw [moved, Expr.relocate, resolve, resolve, extentSpan_moved, resolve_moved lhs,
      resolve_moved rhs]
  | .update op operand x => by
    rw [moved, Expr.relocate, resolve, resolve, extentSpan_moved, resolve_moved operand]
  | .element array index x => by
    rw [moved, Expr.relocate, resolve, resolve, extentSpan_moved, resolve_moved array,
      resolve_moved index]
  | .anyLambda x => by rw [moved, Expr.relocate, resolve, resolve, extentSpan_moved]
  | .anyArguments x => by rw [moved, Expr.relocate, resolve, resolve, extentSpan_moved]
  | .unknown name x => by rw [moved, Expr.relocate, resolve, resolve, extentSpan_moved]

lemma resolveList_moved : (es : List Surface) →
    resolveList (text ++ more) (Expr.relocateList (Extent.moved more.length) es) =
      resolveList text es
  | [] => rfl
  | e :: es => by
    rw [Expr.relocateList, resolveList, resolveList, resolve_moved e, resolveList_moved es]

end

end Pattern

end ShapeLint
