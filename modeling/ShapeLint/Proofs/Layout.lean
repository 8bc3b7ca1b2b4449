import ShapeLint.Proofs.Conversion
import ShapeLint.Proofs.Matching
import ShapeLint.Proofs.RoundTrip

/-!
# Expressions match themselves

An expression that is written as a pattern can also stand in a Java source. `LaysOut` says when a
concrete tree is the tree of such an expression: at each node it has the type, the tokens and the
fields of Java's grammar. Literals are spelled by any text that has their value, types are written
with or without a qualifier and generic arguments, parentheses may stand around every part, and
comments between any two children but those of a type. Nothing is laid out that leaves something
open, so no pattern with a mark for any expression, any literal, any lambda expression or any
arguments.

Such a tree is converted to a node that the pattern matches. The proof of `LaysOut.fits` goes by
induction on how the pattern is laid out: the tree has a normal form, and that has the shape of the
pattern. In what role a node stands does not matter for that, so that parentheses fall away. Room
for the test is all that is left to ask for (`test_convert_of_laysOut`).

It has to be asked for, since on every stack there is no room for some of the patterns that are laid
out; and a comment in a type can stand in the way of a match (`not_matches_of_laysOut`).
-/

namespace ShapeLint.Java

open ShapeLint.Grammar (IsWord)

/-! ## Concrete nodes -/

namespace Tree

/-- The tree is a token that stands for itself: its type is its text, and it is not named. -/
structure IsToken (t : Tree) (text : String) (field? : Option String) : Prop where
  type_eq : t.type = text
  unnamed : t.isNamed = false
  field_eq : t.field? = field?

/-- The tree is a named child that fills a field or none. -/
structure Fills (t : Tree) (field? : Option String) : Prop where
  named : t.isNamed = true
  field_eq : t.field? = field?

/-- But for comments, the children of the tree are the parts. Comments may stand anywhere among
them, and they fill no field. -/
structure Consists (t : Tree) (parts : List Tree) : Prop where
  parts_eq : t.children.filter (!·.isComment) = parts
  comment_field : ∀ c ∈ t.children, c.isComment = true → c.field? = none

end Tree

/-- The types of nodes that may have no normal form: literals, whose text may have no value, and
steps, which may have no operator. -/
def fallibleTypes : List String :=
  opaqueTypes ++ ["update_expression"]

/-- The tree holds neither literals nor steps, as the tree of a type. So it always has a normal
form, whatever that is. -/
inductive Inert : Tree → Prop where
  | node {t : Tree} : t.type ∉ fallibleTypes → (∀ c ∈ t.children, Inert c) → Inert t

/-- What may stand before the simple name of a type: nothing, or a text up to a dot. There are no
brackets in it, where the name would be cut off. -/
def IsQualifier (s : List Char) : Prop :=
  s = [] ∨ ∃ path, s = path ++ ['.'] ∧ ∀ c ∈ path, c ≠ '<' ∧ c ≠ '('

/-- What may stand behind the simple name of a type: nothing, or generic arguments. -/
def IsGeneric (s : List Char) : Prop :=
  s = [] ∨ ∃ arguments, s = '<' :: arguments

/-- The tree is that of a type with the simple name, which may be qualified and have generic
arguments. The simple name stands between the two, with white space around it, and nothing in the
tree can fail. -/
structure WritesType (source : Source) (name : String) (t : Tree) : Prop where
  inert : Inert t
  text : ∃ qualifier before after generics,
    textOf source t = qualifier ++ (before ++ (name.toList ++ (after ++ generics))) ∧
    IsQualifier qualifier ∧ IsGeneric generics ∧ (∀ c ∈ before, Text.isSpace c = true) ∧
      ∀ c ∈ after, Text.isSpace c = true

/-- The tree is a name: an identifier without children, whose text is the name. -/
structure WritesName (source : Source) (name : String) (t : Tree) : Prop where
  type_eq : t.type = "identifier"
  leaf : t.children = []
  text_eq : textOf source t = name.toList

/-- The tree is a literal that has the value of the constant. It need not be spelled as in the
pattern: an integer may be in any radix, and a string may have other escapes. Long integers are of
another type. -/
inductive WritesLiteral (source : Source) (c : Constant) (t : Tree) : Prop where
  | int {i : Int} : c.type = .int →
      t.type ∈ ["decimal_integer_literal", "hex_integer_literal", "octal_integer_literal",
        "binary_integer_literal"] →
      Literal.integer? (textOf source t) = some i → Literal.isLong (textOf source t) = false →
      (Value.int i).same c.value = true → WritesLiteral source c t
  | double {d : Double} :
      c.type = .double → t.type ∈ ["decimal_floating_point_literal", "hex_floating_point_literal"] →
      Literal.floating (textOf source t) = .ok d → (Value.double d).same c.value = true →
      WritesLiteral source c t
  | string {points : List Text.CodePoint} :
      c.type = .string → t.type = "string_literal" → Literal.string (textOf source t) = .ok points →
      (Value.text points).same c.value = true → WritesLiteral source c t
  | boolean {b : Bool} :
      c.type = .boolean → t.type = (if b then "true" else "false") → t.children = [] →
      (Value.bool b).same c.value = true → WritesLiteral source c t

/-! ## Expressions -/

mutual

/-- The tree is that of the expression that the pattern is written as. Each case asks for the type
of the node, for its parts and for what each of these is, as Java's grammar gives them. A step has
its operator at its edge, without a comment in front of it or behind. -/
inductive LaysOut (source : Source) : Pattern → Tree → Prop where
  /-- Parentheses around an expression. -/
  | parenthesised {p : Pattern} {t opening inner closing : Tree} :
      t.type = "parenthesized_expression" → t.Consists [opening, inner, closing] →
      opening.IsToken "(" none → inner.Fills none → LaysOut source p inner →
      closing.IsToken ")" none → LaysOut source p t
  | reference {name : String} {x : Span} {t : Tree} :
      WritesName source name t → LaysOut source (.reference name x) t
  | literal {c : Constant} {x : Span} {t : Tree} :
      WritesLiteral source c t → LaysOut source (.literal c x) t
  | null {x : Span} {t : Tree} :
      t.type = "null_literal" → t.children = [] → LaysOut source (.null x) t
  | this {x : Span} {t : Tree} : t.type = "this" → t.children = [] → LaysOut source (.this x) t
  | field {receiver : Pattern} {name : String} {x : Span} {t object dot field : Tree} :
      t.type = "field_access" → t.Consists [object, dot, field] → object.Fills (some "object") →
      LaysOut source receiver object → dot.IsToken "." none → field.Fills (some "field") →
      WritesName source name field → LaysOut source (.field receiver name x) t
  | method {receiver : Pattern} {name : String} {args : List Pattern} {x : Span}
      {t object dot method arguments : Tree} :
      t.type = "method_invocation" → t.Consists [object, dot, method, arguments] →
      object.Fills (some "object") → LaysOut source receiver object → dot.IsToken "." none →
      method.Fills (some "name") → WritesName source name method →
      arguments.Fills (some "arguments") → LaysOutArguments source args arguments →
      LaysOut source (.method receiver name args x) t
  | call {name : String} {args : List Pattern} {x : Span} {t method arguments : Tree} :
      t.type = "method_invocation" → t.Consists [method, arguments] → method.Fills (some "name") →
      WritesName source name method → arguments.Fills (some "arguments") →
      LaysOutArguments source args arguments → LaysOut source (.call name args x) t
  | creation {typeName : String} {args : List Pattern} {x : Span} {t word type arguments : Tree} :
      t.type = "object_creation_expression" → t.Consists [word, type, arguments] →
      word.IsToken "new" none → type.Fills (some "type") → WritesType source typeName type →
      arguments.Fills (some "arguments") → LaysOutArguments source args arguments →
      LaysOut source (.creation typeName args x) t
  | typeTest {target : Pattern} {typeName : String} {x : Span} {t left word right : Tree} :
      t.type = "instanceof_expression" → t.Consists [left, word, right] → left.Fills (some "left") →
      LaysOut source target left → word.IsToken "instanceof" none → right.Fills (some "right") →
      WritesType source typeName right → LaysOut source (.typeTest target typeName x) t
  | unary {op : UnaryOperator} {operand : Pattern} {x : Span} {t symbol inner : Tree} :
      t.type = "unary_expression" → t.Consists [symbol, inner] →
      symbol.IsToken op.symbol (some "operator") → inner.Fills (some "operand") →
      LaysOut source operand inner → LaysOut source (.unary op operand x) t
  | binary {op : BinaryOperator} {lhs rhs : Pattern} {x : Span} {t left symbol right : Tree} :
      t.type = "binary_expression" → t.Consists [left, symbol, right] → left.Fills (some "left") →
      LaysOut source lhs left → symbol.IsToken op.symbol (some "operator") →
      right.Fills (some "right") → LaysOut source rhs right →
      LaysOut source (.binary op lhs rhs x) t
  /-- A step in front, whose operator is the first child. -/
  | stepInFront {up : Bool} {operand : Pattern} {x : Span} {t symbol inner : Tree} :
      t.type = "update_expression" → t.Consists [symbol, inner] → t.children.head? = some symbol →
      symbol.IsToken (UpdateOperator.symbol ⟨true, up⟩) none → inner.Fills none →
      LaysOut source operand inner → LaysOut source (.update ⟨true, up⟩ operand x) t
  /-- A step behind, whose operator is the last child. -/
  | stepBehind {up : Bool} {operand : Pattern} {x : Span} {t inner symbol : Tree} :
      t.type = "update_expression" → t.Consists [inner, symbol] →
      t.children.getLast? = some symbol → inner.Fills none → LaysOut source operand inner →
      symbol.IsToken (UpdateOperator.symbol ⟨false, up⟩) none →
      LaysOut source (.update ⟨false, up⟩ operand x) t
  | element {array index : Pattern} {x : Span} {t object opening place closing : Tree} :
      t.type = "array_access" → t.Consists [object, opening, place, closing] →
      object.Fills (some "array") → LaysOut source array object → opening.IsToken "[" none →
      place.Fills (some "index") → LaysOut source index place → closing.IsToken "]" none →
      LaysOut source (.element array index x) t

/-- The tree is that of the arguments in parentheses. -/
inductive LaysOutArguments (source : Source) : List Pattern → Tree → Prop where
  | empty {t opening closing : Tree} :
      t.type = "argument_list" → t.Consists [opening, closing] → opening.IsToken "(" none →
      closing.IsToken ")" none → LaysOutArguments source [] t
  | row {p : Pattern} {ps : List Pattern} {t opening arg : Tree} {others : List Tree} :
      t.type = "argument_list" → t.Consists (opening :: arg :: others) → opening.IsToken "(" none →
      arg.Fills none → LaysOut source p arg → LaysOutFurther source ps others →
      LaysOutArguments source (p :: ps) t

/-- The trees are those of further arguments after their commas, and of the closing parenthesis. -/
inductive LaysOutFurther (source : Source) : List Pattern → List Tree → Prop where
  | close {closing : Tree} : closing.IsToken ")" none → LaysOutFurther source [] [closing]
  | comma {p : Pattern} {ps : List Pattern} {separator arg : Tree} {others : List Tree} :
      separator.IsToken "," none → arg.Fills none → LaysOut source p arg →
      LaysOutFurther source ps others → LaysOutFurther source (p :: ps) (separator :: arg :: others)

end

/-! ## The parts of a node -/

section
variable {source : Source} {t : Tree} {parts : List Tree}

/-- The children that are kept are the named parts. -/
lemma Tree.Consists.keptChildren (h : t.Consists parts) (ht : opaqueTypes.contains t.type = false) :
    keptChildren t = parts.filter (·.isNamed) := by
  rw [Java.keptChildren, ht, if_neg Bool.false_ne_true, ← h.parts_eq, List.filter_filter]

lemma Tree.consists_children (h : ∀ c ∈ t.children, c.isComment = false) :
    t.Consists t.children where
  parts_eq := List.filter_eq_self.mpr fun c hc => by rw [h c hc]; rfl
  comment_field := fun c hc hcomment => by
    rw [h c hc] at hcomment
    cases hcomment

/-- Comments fill no field, so they are not found by one. -/
lemma find?_filter_comment {cs : List Tree} (h : ∀ c ∈ cs, c.isComment = true → c.field? = none)
    (field : String) :
    (cs.filter (!·.isComment)).find? (·.field? == some field) =
      cs.find? (·.field? == some field) := by
  induction cs with
  | nil => rfl
  | cons c cs ih =>
    have hcs := ih fun d hd => h d (List.mem_cons_of_mem c hd)
    cases hc : c.isComment with
    | true =>
      have hnone : c.field? = none := h c (List.mem_cons_self ..) hc
      simp [hc, hnone, hcs]
    | false => simp [List.find?_cons, hc, hcs]

/-- A field is looked up among the parts. -/
lemma Tree.Consists.child? (h : t.Consists parts) (field : String) :
    t.child? field = parts.find? (·.field? == some field) := by
  rw [Tree.child?, ← h.parts_eq, find?_filter_comment h.comment_field]

lemma normalForms_leaf (h : t.children = []) : NormalForms source (Java.keptChildren t) [] := by
  have hkept : Java.keptChildren t = [] := by
    rw [Java.keptChildren, h]
    split
    · rfl
    · rfl
  rw [hkept]
  exact .nil

/-- Nothing is kept of the children of a literal. -/
lemma normalForms_literal (h : opaqueTypes.contains t.type = true) :
    NormalForms source (Java.keptChildren t) [] := by
  rw [Java.keptChildren, if_pos h]
  exact .nil

end

/-! ## Simple type names -/

/-- The characters that separate information, which count as white space at the ends of a text. -/
def separators : List Char :=
  [0x1C, 0x1D, 0x1E, 0x1F].map Char.ofNat

/-- White space is blank or separates information. -/
lemma mem_spaces {c : Char} (h : Text.isSpace c = true) : c ∈ Grammar.blanks ++ separators := by
  rw [Text.isSpace, Bool.or_eq_true, Bool.and_eq_true, decide_eq_true_eq, decide_eq_true_eq] at h
  obtain h | h := h
  · exact List.mem_append_left _ (Grammar.mem_blanks h)
  · refine List.mem_append_right _ ?_
    rw [← Char.ofNat_toNat c, separators]
    apply List.mem_map_of_mem
    simp only [List.mem_cons, List.not_mem_nil, or_false]
    omega

lemma ne_of_class {p : Char → Bool} {c d : Char} (hc : p c = true) (hd : p d = false) : c ≠ d := by
  rintro rfl
  rw [hc] at hd
  cases hd

lemma isSpace_of_isNameChar {c : Char} (h : Text.isNameChar c = true) : Text.isSpace c = false := by
  have hnone : ∀ d ∈ Grammar.blanks ++ separators, Text.isNameChar d = false := by decide +kernel
  exact Bool.eq_false_iff.2 fun hspace => ne_of_class h (hnone c (mem_spaces hspace)) rfl

lemma afterLastDot_of_ne {w : List Char} (hw : ∀ c ∈ w, c ≠ '.') {qualifier : List Char}
    (hq : IsQualifier qualifier) :
    Literal.afterLastDot (qualifier ++ w) = w := by
  have hall : ∀ c ∈ w.reverse, (c != '.') = true :=
    fun c hc => bne_iff_ne.mpr (hw c (List.mem_reverse.mp hc))
  rcases hq with rfl | ⟨path, rfl, -⟩
  · rw [List.nil_append, Literal.afterLastDot, List.takeWhile_eq_self_iff.mpr hall,
      List.reverse_reverse]
  · rw [Literal.afterLastDot, List.reverse_append, List.reverse_append,
      List.takeWhile_append_of_pos hall]
    simp

/-- The text can be a simple name: it has neither white space in it nor what separates the parts of
a type. Every word is of this kind. -/
def Unbroken (name : List Char) : Prop :=
  name ≠ [] ∧ ∀ c ∈ name, Text.isSpace c = false ∧ c ∉ ['.', '<', '(']

lemma unbroken_of_isWord {name : String} (hname : IsWord name) : Unbroken name.toList := by
  refine ⟨?_, fun c hc => ⟨isSpace_of_isNameChar (hname.all c hc), fun hmem => ?_⟩⟩
  · obtain ⟨c, cs, hform, -⟩ := hname
    exact hform ▸ List.cons_ne_nil c cs
  · have hnone : ∀ d ∈ ['.', '<', '('], Text.isNameChar d = false := by decide
    exact ne_of_class (hname.all c hc) (hnone c hmem) rfl

/-- White space around a simple name is trimmed. -/
lemma trim_of_unbroken {name : List Char} (hname : Unbroken name) {before after : List Char}
    (hb : ∀ c ∈ before, Text.isSpace c = true) (ha : ∀ c ∈ after, Text.isSpace c = true) :
    Text.trim (before ++ (name ++ after)) = name := by
  have hink : ∀ c ∈ name, Text.isSpace c = false := fun c hc => (hname.2 c hc).1
  have hhalts : Grammar.Halts Text.isSpace (name ++ after) := by
    obtain ⟨c, cs, rfl⟩ := List.exists_cons_of_ne_nil hname.1
    exact Grammar.halts_cons (hink c (List.mem_cons_self ..)) _
  rw [Text.trim, Grammar.dropWhile_append_of_halts hb hhalts, Literal.trimEnd_append hink ha]

section

variable {qualifier before name after : List Char} (hname : Unbroken name)
  (hq : IsQualifier qualifier) (hb : ∀ c ∈ before, Text.isSpace c = true)
  (ha : ∀ c ∈ after, Text.isSpace c = true)

include hname hb ha

/-- Neither a simple name nor the white space around it has a dot or an opening bracket. -/
lemma plain_of_unbroken : ∀ c ∈ before ++ (name ++ after), c ∉ ['.', '<', '('] := by
  have hnone : ∀ d ∈ ['.', '<', '('], Text.isSpace d = false := by decide
  have hspace {c : Char} (hc : Text.isSpace c = true) : c ∉ ['.', '<', '('] := fun hmem =>
    ne_of_class hc (hnone c hmem) rfl
  simp only [List.forall_mem_append]
  exact ⟨fun c hc => hspace (hb c hc), fun c hc => (hname.2 c hc).2, fun c hc => hspace (ha c hc)⟩

include hq

/-- Nothing up to the simple name opens a bracket. -/
lemma unopened_of_unbroken : ∀ c ∈ qualifier ++ (before ++ (name ++ after)), c ≠ '<' ∧ c ≠ '(' := by
  refine List.forall_mem_append.mpr ⟨fun c hc => ?_, fun c hc => ?_⟩
  · rcases hq with rfl | ⟨path, rfl, hpath⟩
    · cases hc
    · rcases List.mem_append.mp hc with hc | hc
      · exact hpath c hc
      · obtain rfl := List.mem_singleton.mp hc
        decide
  · have hplain := plain_of_unbroken hname hb ha c hc
    exact ⟨fun h => hplain (by simp [h]), fun h => hplain (by simp [h])⟩

/-- The simple name of a type stands between a qualifier and generic arguments, with white space
around it. -/
theorem simpleTypeName_of_unbroken {generics : List Char} (hg : IsGeneric generics) :
    Literal.simpleTypeName (qualifier ++ (before ++ (name ++ (after ++ generics)))) = name := by
  have hplain := plain_of_unbroken hname hb ha
  have hfront := unopened_of_unbroken hname hq hb ha
  have hgenerics : Grammar.Halts (· != '<') generics := by
    rcases hg with rfl | ⟨arguments, rfl⟩
    · exact nofun
    · exact Grammar.halts_cons rfl _
  -- The cut before generic arguments comes first, so nothing in them can count as a dot.
  have htake : (qualifier ++ (before ++ (name ++ (after ++ generics)))).takeWhile (· != '<') =
      qualifier ++ (before ++ (name ++ after)) := by
    have hassoc : qualifier ++ (before ++ (name ++ (after ++ generics))) =
        (qualifier ++ (before ++ (name ++ after))) ++ generics := by
      simp only [List.append_assoc]
    rw [hassoc]
    exact Grammar.takeWhile_append_of_halts (fun c hc => bne_iff_ne.mpr (hfront c hc).1) hgenerics
  rw [Literal.simpleTypeName, htake,
    List.takeWhile_eq_self_iff.mpr fun c hc => bne_iff_ne.mpr (hfront c hc).2,
    afterLastDot_of_ne (fun c hc h => hplain c hc (by simp [h])) hq, trim_of_unbroken hname hb ha]

end

/-- The simple name of a written type is the name. -/
lemma WritesType.simpleTypeName {source : Source} {name : String} {t : Tree} (hname : IsWord name)
    (h : WritesType source name t) : Literal.simpleTypeName (textOf source t) = name.toList := by
  obtain ⟨qualifier, before, after, generics, htext, hq, hg, hb, ha⟩ := h.text
  rw [htext, simpleTypeName_of_unbroken (unbroken_of_isWord hname) hq hb ha hg]

-- A comment behind the last dot would become part of the name, so only white space stands there.
example : Literal.simpleTypeName "p./* c */B".toList = "/* c */B".toList := by decide

/-! ## Normal forms of leaves and types -/

section
variable {source : Source}

lemma normalForms_cons {t : Tree} {ts : List Tree} {n : Node} {ns : List Node}
    (h : NormalForm source t (some n)) (hs : NormalForms source ts ns) :
    NormalForms source (t :: ts) (inRole t n :: ns) :=
  .cons h hs

lemma normalForms_of_forall {ts : List Tree} (h : ∀ t ∈ ts, ∃ o, NormalForm source t o) :
    ∃ ns, NormalForms source ts ns := by
  induction ts with
  | nil => exact ⟨[], .nil⟩
  | cons t ts ih =>
    obtain ⟨o, ho⟩ := h t (List.mem_cons_self ..)
    obtain ⟨ns, hns⟩ := ih fun c hc => h c (List.mem_cons_of_mem t hc)
    exact ⟨_, .cons ho hns⟩

/-- A node that is neither a literal nor a step has a normal form, whatever those of its children
are. -/
lemma normalNode_of_infallible {t : Tree} (h : t.type ∉ fallibleTypes) (ns : List Node) :
    ∃ o, normalNode source t ns = .ok o := by
  have hno : ∀ {type : String}, t.type = type → type ∉ fallibleTypes := fun heq => heq ▸ h
  unfold normalNode
  split
  case h_3 heq | h_4 heq | h_5 heq | h_6 heq | h_7 heq | h_8 heq | h_9 heq | h_10 heq | h_20 heq =>
    exact absurd (by decide) (hno heq)
  all_goals exact ⟨_, rfl⟩

lemma Inert.normalForm {t : Tree} (h : Inert t) : ∃ o, NormalForm source t o := by
  induction h with
  | @node t htype _ ih =>
    have hkept : ∀ c ∈ keptChildren t, ∃ o, NormalForm source c o := by
      intro c hc
      unfold keptChildren at hc
      split at hc
      · cases hc
      · exact ih c (List.mem_filter.mp hc).1
    obtain ⟨ns, hns⟩ := normalForms_of_forall hkept
    obtain ⟨o, ho⟩ := normalNode_of_infallible htype ns
    exact ⟨o, .made hns ho⟩

/-- A name is converted to a node with that value. -/
lemma WritesName.normalForm {name : String} {t : Tree} (h : WritesName source name t) :
    ∃ n, NormalForm source t (some n) ∧ n.kind = NodeKind.name ∧ n.value = .ofString name := by
  refine ⟨{ kind := NodeKind.name, value := .ofString name, span := spanOf source t },
    .made (normalForms_leaf h.leaf) ?_, rfl, rfl⟩
  rw [normalNode, h.type_eq, h.text_eq]
  rfl

/-- A literal is converted to a node of the kind of its type, with the same value as the constant.
The cases are the types of literals, and a literal without children or with hidden ones is the same
to them. -/
lemma WritesLiteral.normalForm {c : Constant} {t : Tree} (h : WritesLiteral source c t) :
    ∃ n, NormalForm source t (some n) ∧ n.kind = c.type.nodeKind ∧ n.value.same c.value = true := by
  cases h with
  | @int i htype ht hvalue hshort hsame =>
    have hmem : opaqueTypes.contains t.type = true := by
      simp only [List.mem_cons, List.not_mem_nil, or_false] at ht
      rcases ht with ht | ht | ht | ht <;> rw [ht] <;> decide
    have hnode : normalNode source t [] = (integer source t).map some := by
      simp only [List.mem_cons, List.not_mem_nil, or_false] at ht
      rcases ht with ht | ht | ht | ht <;> rw [normalNode, ht] <;> rfl
    -- A long literal would become a node of another kind.
    refine ⟨{ kind := NodeKind.int, value := .int i, span := spanOf source t },
      .made (normalForms_literal hmem) ?_, ?_, hsame⟩
    · rw [hnode, integer, hvalue, hshort]
      rfl
    · rw [htype]
      rfl
  | @double d htype ht hvalue hsame =>
    have hmem : opaqueTypes.contains t.type = true := by
      simp only [List.mem_cons, List.not_mem_nil, or_false] at ht
      rcases ht with ht | ht <;> rw [ht] <;> decide
    have hnode : normalNode source t [] = (floating source t).map some := by
      simp only [List.mem_cons, List.not_mem_nil, or_false] at ht
      rcases ht with ht | ht <;> rw [normalNode, ht] <;> rfl
    refine ⟨{ kind := NodeKind.double, value := .double d, span := spanOf source t },
      .made (normalForms_literal hmem) ?_, ?_, hsame⟩
    · rw [hnode, floating, hvalue]
      rfl
    · rw [htype]
      rfl
  | @string points htype ht hvalue hsame =>
    have hmem : opaqueTypes.contains t.type = true := by
      rw [ht]
      decide
    refine ⟨{ kind := NodeKind.string, value := .text points, span := spanOf source t },
      .made (normalForms_literal hmem) ?_, ?_, hsame⟩
    · have hnode : normalNode source t [] = (quoted source t).map some := by
        rw [normalNode, ht]
        rfl
      rw [hnode, quoted, hvalue, ht]
      rfl
    · rw [htype]
      rfl
  | @boolean b htype ht hleaf hsame =>
    refine ⟨{ kind := NodeKind.boolean, value := .bool b, span := spanOf source t },
      .made (normalForms_leaf hleaf) ?_, ?_, hsame⟩
    · cases b
      · rw [normalNode, ht]
        rfl
      · rw [normalNode, ht]
        rfl
    · rw [htype]
      rfl

/-! ## Normal forms of expressions -/

/-- The tree has a normal form, and that has the shape of the pattern. This is what the induction
carries along. -/
def Fits (source : Source) (p : Pattern) (t : Tree) : Prop :=
  ∃ n, NormalForm source t (some n) ∧ p.holds n = true

/-- The tree has a normal form, and its children have the shapes of the patterns. -/
def FitsAll (source : Source) (ps : List Pattern) (t : Tree) : Prop :=
  ∃ n, NormalForm source t (some n) ∧ Pattern.holdsAll ps n.children = true

@[simp] lemma role_inRole (t : Tree) (n : Node) : (inRole t n).role = t.field? :=
  rfl

/-- A node in another role has the same shape. -/
@[simp] lemma holds_inRole (p : Pattern) (t : Tree) (n : Node) : p.holds (inRole t n) = p.holds n :=
  p.holds_role n t.field?

variable {p q : Pattern} {ps : List Pattern} {name : String} {x : Span} {t t₁ t₂ t₃ t₄ : Tree}

/-- Parentheses have the normal form of what they enclose, so they fit the same patterns. -/
lemma fits_parenthesised (ht : t.type = "parenthesized_expression")
    (hparts : t.Consists [t₁, t₂, t₃]) (h₁ : t₁.IsToken "(" none) (h₂ : t₂.Fills none)
    (hp : Fits source p t₂) (h₃ : t₃.IsToken ")" none) :
    Fits source p t := by
  obtain ⟨n, hn, hholds⟩ := hp
  have hkept : keptChildren t = [t₂] := by
    rw [hparts.keptChildren (by rw [ht]; decide)]
    simp [h₁.unnamed, h₂.named, h₃.unnamed]
  refine ⟨inRole t₂ n, .made (hkept ▸ normalForms_cons hn .nil) ?_, ?_⟩
  · rw [normalNode, ht]
    rfl
  · rw [holds_inRole, hholds]

/-- An access to a field keeps the object and takes the name for its value. -/
lemma fits_field (ht : t.type = "field_access") (hparts : t.Consists [t₁, t₂, t₃])
    (h₁ : t₁.Fills (some "object")) (hp : Fits source p t₁) (h₂ : t₂.IsToken "." none)
    (h₃ : t₃.Fills (some "field")) (hname : WritesName source name t₃) :
    Fits source (.field p name x) t := by
  obtain ⟨n, hn, hholds⟩ := hp
  obtain ⟨m, hm, -, hvalue⟩ := hname.normalForm
  have hkept : keptChildren t = [t₁, t₃] := by
    rw [hparts.keptChildren (by rw [ht]; decide)]
    simp [h₁.named, h₂.unnamed, h₃.named]
  refine ⟨fieldAccess source t [inRole t₁ n, inRole t₃ m],
    .made (hkept ▸ normalForms_cons hn (normalForms_cons hm .nil)) ?_, ?_⟩
  · rw [normalNode, ht]
    rfl
  · have hm : (inRole t₃ m).value = .ofString name := hvalue
    simp [Pattern.holds, fieldAccess, valueIn, Node.child?, Role.object, h₁.field_eq, h₃.field_eq,
      hholds, hm]

/-! ## Arguments -/

/-- The named trees have normal forms without a role, and these have the shapes of the patterns. -/
def FitsRow (source : Source) (ps : List Pattern) (ts : List Tree) : Prop :=
  ∃ ns, NormalForms source (ts.filter (·.isNamed)) ns ∧ (∀ n ∈ ns, n.role = none) ∧
    Pattern.holdsAll ps ns = true

/-- Brackets and commas between arguments do not count. -/
lemma fitsRow_token (h : t.isNamed = false) {ts : List Tree} (hts : FitsRow source ps ts) :
    FitsRow source ps (t :: ts) := by
  rw [FitsRow, List.filter_cons_of_neg (by rw [h]; exact Bool.false_ne_true)]
  exact hts

lemma fitsRow_cons (h : t.Fills none) (hp : Fits source p t) {ts : List Tree}
    (hts : FitsRow source ps ts) :
    FitsRow source (p :: ps) (t :: ts) := by
  obtain ⟨n, hn, hholds⟩ := hp
  obtain ⟨ns, hns, hroles, hall⟩ := hts
  refine ⟨inRole t n :: ns, ?_, ?_, ?_⟩
  · rw [List.filter_cons_of_pos h.named]
    exact normalForms_cons hn hns
  · intro m hm
    rcases List.mem_cons.mp hm with rfl | hm
    · exact h.field_eq
    · exact hroles m hm
  · rw [Pattern.holdsAll, holds_inRole, hholds, hall, Bool.true_and]

lemma fitsRow_nil : FitsRow source [] [] :=
  ⟨[], .nil, nofun, rfl⟩

/-- A list of arguments keeps them as they are, since it declares nothing and they have no role
yet. -/
lemma fitsAll_of_row (ht : t.type = "argument_list") {parts : List Tree} (hparts : t.Consists parts)
    (h : FitsRow source ps parts) : FitsAll source ps t := by
  obtain ⟨ns, hns, hroles, hall⟩ := h
  have hkept : keptChildren t = parts.filter (·.isNamed) := hparts.keptChildren (by rw [ht]; decide)
  refine ⟨generic source t ns, .made (hkept ▸ hns) ?_, ?_⟩
  · rw [normalNode, ht]
    rfl
  · have hsame : (generic source t ns).children = ns := by
      have hplain : declaringTypes.contains t.type = false := by
        rw [ht]
        decide
      simp only [generic, hplain, Bool.false_or]
      refine (List.map_congr_left fun n hn => ?_).trans (List.map_id ns)
      rw [hroles n hn]
      rfl
    rw [hsame, hall]

lemma role_of_mem_argumentsOf {m n : Node} (h : m ∈ argumentsOf n) :
    m.role = some Role.argument := by
  obtain ⟨_, -, rfl⟩ := List.mem_map.mp h
  rfl

@[simp] lemma filter_argumentsOf (n : Node) :
    (argumentsOf n).filter (·.role == some "argument") = argumentsOf n :=
  Pattern.filter_role_of_forall fun _ => role_of_mem_argumentsOf

@[simp] lemma find?_argumentsOf (n : Node) :
    (argumentsOf n).find? (·.role == some "object") = none :=
  Pattern.find?_role_of_forall (by decide) fun _ => role_of_mem_argumentsOf

/-- Arguments are given a role when they are moved up to the call, and that does not matter for
their shapes. -/
@[simp] lemma holdsAll_argumentsOf (ps : List Pattern) (n : Node) :
    Pattern.holdsAll ps (argumentsOf n) = Pattern.holdsAll ps n.children :=
  Pattern.holdsAll_role ps n.children (some Role.argument)

/-- A call on an object keeps the object and the arguments, and takes the name for its value. -/
lemma fits_method (ht : t.type = "method_invocation") (hparts : t.Consists [t₁, t₂, t₃, t₄])
    (h₁ : t₁.Fills (some "object")) (hp : Fits source p t₁) (h₂ : t₂.IsToken "." none)
    (h₃ : t₃.Fills (some "name")) (hname : WritesName source name t₃)
    (h₄ : t₄.Fills (some "arguments")) (hps : FitsAll source ps t₄) :
    Fits source (.method p name ps x) t := by
  obtain ⟨n, hn, hholds⟩ := hp
  obtain ⟨m, hm, -, hvalue⟩ := hname.normalForm
  obtain ⟨a, ha, hall⟩ := hps
  have hkept : keptChildren t = [t₁, t₃, t₄] := by
    rw [hparts.keptChildren (by rw [ht]; decide)]
    simp [h₁.named, h₂.unnamed, h₃.named, h₄.named]
  refine ⟨methodCall source t [inRole t₁ n, inRole t₃ m, inRole t₄ a],
    .made (hkept ▸ normalForms_cons hn (normalForms_cons hm (normalForms_cons ha .nil))) ?_, ?_⟩
  · rw [normalNode, ht]
    rfl
  · have hmethod : (inRole t₃ m).value = .ofString name := hvalue
    have hargs : Pattern.holdsAll ps (inRole t₄ a).children = true := hall
    simp [Pattern.holds, methodCall, valueIn, Node.child?, Node.childrenIn, Role.object,
      Role.argument, h₁.field_eq, h₃.field_eq, h₄.field_eq, hholds, hmethod, hargs]

/-- An unqualified call has no object. -/
lemma fits_call (ht : t.type = "method_invocation") (hparts : t.Consists [t₁, t₂])
    (h₁ : t₁.Fills (some "name")) (hname : WritesName source name t₁)
    (h₂ : t₂.Fills (some "arguments")) (hps : FitsAll source ps t₂) :
    Fits source (.call name ps x) t := by
  obtain ⟨m, hm, -, hvalue⟩ := hname.normalForm
  obtain ⟨a, ha, hall⟩ := hps
  have hkept : keptChildren t = [t₁, t₂] := by
    rw [hparts.keptChildren (by rw [ht]; decide)]
    simp [h₁.named, h₂.named]
  refine ⟨methodCall source t [inRole t₁ m, inRole t₂ a],
    .made (hkept ▸ normalForms_cons hm (normalForms_cons ha .nil)) ?_, ?_⟩
  · rw [normalNode, ht]
    rfl
  · have hmethod : (inRole t₁ m).value = .ofString name := hvalue
    have hargs : Pattern.holdsAll ps (inRole t₂ a).children = true := hall
    simp [Pattern.holds, methodCall, valueIn, Node.child?, Node.childrenIn, Role.object,
      Role.argument, h₁.field_eq, h₂.field_eq, hmethod, hargs]

/-- The name of a written type is its simple name. -/
lemma typeNameOf_eq (hname : IsWord name) (h : WritesType source name t) :
    typeNameOf source (some t) = .ofString name := by
  rw [typeNameOf, h.simpleTypeName hname]
  rfl

/-- A creation keeps the arguments. The type is kept as well, if it has a normal form, but it is no
argument. -/
lemma fits_creation (hword : IsWord name) (ht : t.type = "object_creation_expression")
    (hparts : t.Consists [t₁, t₂, t₃]) (h₁ : t₁.IsToken "new" none) (h₂ : t₂.Fills (some "type"))
    (htype : WritesType source name t₂) (h₃ : t₃.Fills (some "arguments"))
    (hps : FitsAll source ps t₃) : Fits source (.creation name ps x) t := by
  obtain ⟨o, ho⟩ : ∃ o, NormalForm source t₂ o := htype.inert.normalForm
  obtain ⟨a, ha, hall⟩ := hps
  have hkept : keptChildren t = [t₂, t₃] := by
    rw [hparts.keptChildren (by rw [ht]; decide)]
    simp [h₁.unnamed, h₂.named, h₃.named]
  have hchild : t.child? "type" = some t₂ := by
    rw [hparts.child?]
    simp [h₁.field_eq, h₂.field_eq]
  refine ⟨creation source t ((o.map (inRole t₂)).toList ++ [inRole t₃ a]),
    .made (hkept ▸ NormalForms.cons ho (normalForms_cons ha .nil)) ?_, ?_⟩
  · rw [normalNode, ht]
    rfl
  · have hargs : Pattern.holdsAll ps (inRole t₃ a).children = true := hall
    -- the tree of a type may leave no node
    cases o with
    | none =>
      simp [Pattern.holds, creation, hchild, typeNameOf_eq hword htype, Node.childrenIn,
        Role.argument, h₃.field_eq, hargs]
    | some n =>
      simp [Pattern.holds, creation, hchild, typeNameOf_eq hword htype, Node.childrenIn,
        Role.argument, h₂.field_eq, h₃.field_eq, hargs]

/-! ## Operators -/

/-- A type test keeps its target, and takes the simple name of the type for its value. -/
lemma fits_typeTest (hword : IsWord name) (ht : t.type = "instanceof_expression")
    (hparts : t.Consists [t₁, t₂, t₃]) (h₁ : t₁.Fills (some "left")) (hp : Fits source p t₁)
    (h₂ : t₂.IsToken "instanceof" none) (h₃ : t₃.Fills (some "right"))
    (htype : WritesType source name t₃) : Fits source (.typeTest p name x) t := by
  obtain ⟨n, hn, hholds⟩ := hp
  -- The type has a normal form too, but it is no child of the node that is matched.
  obtain ⟨o, ho⟩ : ∃ o, NormalForm source t₃ o := htype.inert.normalForm
  have hkept : keptChildren t = [t₁, t₃] := by
    rw [hparts.keptChildren (by rw [ht]; decide)]
    simp [h₁.named, h₂.unnamed, h₃.named]
  have hchild : t.child? "right" = some t₃ := by
    rw [hparts.child?]
    simp [h₁.field_eq, h₂.field_eq, h₃.field_eq]
  refine ⟨typeTest source t (inRole t₁ n :: ((o.map (inRole t₃)).toList ++ [])),
    .made (hkept ▸ normalForms_cons hn (NormalForms.cons ho .nil)) ?_, ?_⟩
  · rw [normalNode, ht]
    rfl
  · simp [Pattern.holds, typeTest, hchild, typeNameOf_eq hword htype, Node.child?, Role.left,
      h₁.field_eq, hholds]

lemma fits_unary {op : UnaryOperator} (ht : t.type = "unary_expression")
    (hparts : t.Consists [t₁, t₂]) (h₁ : t₁.IsToken op.symbol (some "operator"))
    (h₂ : t₂.Fills (some "operand")) (hp : Fits source p t₂) :
    Fits source (.unary op p x) t := by
  obtain ⟨n, hn, hholds⟩ := hp
  have hkept : keptChildren t = [t₂] := by
    rw [hparts.keptChildren (by rw [ht]; decide)]
    simp [h₁.unnamed, h₂.named]
  have hop : operatorOf t = op.symbol := by
    rw [operatorOf, hparts.child?]
    simp [h₁.field_eq, h₁.type_eq]
  refine ⟨operation source t [inRole t₂ n], .made (hkept ▸ normalForms_cons hn .nil) ?_, ?_⟩
  · rw [normalNode, ht]
    rfl
  · simp [Pattern.holds, operation, ht, hop, NodeKind.unary, Node.child?, Role.operand, h₂.field_eq,
      hholds]

lemma fits_binary {op : BinaryOperator} (ht : t.type = "binary_expression")
    (hparts : t.Consists [t₁, t₂, t₃]) (h₁ : t₁.Fills (some "left")) (hp : Fits source p t₁)
    (h₂ : t₂.IsToken op.symbol (some "operator")) (h₃ : t₃.Fills (some "right"))
    (hq : Fits source q t₃) : Fits source (.binary op p q x) t := by
  obtain ⟨n, hn, hholds⟩ := hp
  obtain ⟨m, hm, hholds'⟩ := hq
  have hkept : keptChildren t = [t₁, t₃] := by
    rw [hparts.keptChildren (by rw [ht]; decide)]
    simp [h₁.named, h₂.unnamed, h₃.named]
  have hop : operatorOf t = op.symbol := by
    rw [operatorOf, hparts.child?]
    simp [h₁.field_eq, h₂.field_eq, h₂.type_eq]
  refine ⟨operation source t [inRole t₁ n, inRole t₃ m],
    .made (hkept ▸ normalForms_cons hn (normalForms_cons hm .nil)) ?_, ?_⟩
  · rw [normalNode, ht]
    rfl
  · simp [Pattern.holds, operation, ht, hop, NodeKind.binary, Node.child?, Role.left, Role.right,
      h₁.field_eq, h₃.field_eq, hholds, hholds']

lemma fits_element (ht : t.type = "array_access") (hparts : t.Consists [t₁, t₂, t₃, t₄])
    (h₁ : t₁.Fills (some "array")) (hp : Fits source p t₁) (h₂ : t₂.IsToken "[" none)
    (h₃ : t₃.Fills (some "index")) (hq : Fits source q t₃) (h₄ : t₄.IsToken "]" none) :
    Fits source (.element p q x) t := by
  obtain ⟨n, hn, hholds⟩ := hp
  obtain ⟨m, hm, hholds'⟩ := hq
  have hkept : keptChildren t = [t₁, t₃] := by
    rw [hparts.keptChildren (by rw [ht]; decide)]
    simp [h₁.named, h₂.unnamed, h₃.named, h₄.unnamed]
  refine ⟨generic source t [inRole t₁ n, inRole t₃ m],
    .made (hkept ▸ normalForms_cons hn (normalForms_cons hm .nil)) ?_, ?_⟩
  · rw [normalNode, ht]
    rfl
  · simp [Pattern.holds, generic, declaringTypes, declaringFields, ht, NodeKind.arrayAccess,
      Node.child?, Role.array, Role.index, h₁.field_eq, h₃.field_eq, hholds, hholds']

/-! ## Steps -/

/-- A step that is made with the kind and the symbol of the operator fits. The two kinds of steps
differ only in which token that is read from. -/
lemma fits_update {op : UpdateOperator} (ht : t.type = "update_expression")
    (hkept : keptChildren t = [t₁]) (hp : Fits source p t₁)
    (hnode : ∀ n, update source t [n] = .ok
      { kind := op.nodeKind, value := .ofString op.symbol,
        children := [{ n with role := some Role.operand }]
        span := spanOf source t }) : Fits source (.update op p x) t := by
  obtain ⟨n, hn, hholds⟩ := hp
  refine ⟨{ kind := op.nodeKind, value := .ofString op.symbol, span := spanOf source t
            children := [{ inRole t₁ n with role := some Role.operand }] },
    .made (hkept ▸ normalForms_cons hn .nil) ?_, ?_⟩
  · have hform : normalNode source t [inRole t₁ n] = (update source t [inRole t₁ n]).map some := by
      rw [normalNode, ht]
      rfl
    rw [hform, hnode]
    rfl
  · simp [Pattern.holds, Node.child?, Pattern.holds_role, hholds]

/-- A step in front is known by its first child. -/
lemma fits_stepInFront {up : Bool} (ht : t.type = "update_expression")
    (hparts : t.Consists [t₁, t₂]) (hfirst : t.children.head? = some t₁)
    (h₁ : t₁.IsToken (UpdateOperator.symbol ⟨true, up⟩) none) (h₂ : t₂.Fills none)
    (hp : Fits source p t₂) : Fits source (.update ⟨true, up⟩ p x) t := by
  have hkept : keptChildren t = [t₂] := by
    rw [hparts.keptChildren (by rw [ht]; decide)]
    simp [h₁.unnamed, h₂.named]
  -- The last child is looked at in any case, although only the first one decides.
  obtain ⟨last, hlast⟩ : ∃ last, t.children.getLast? = some last := by
    cases hchildren : t.children with
    | nil =>
      rw [hchildren] at hfirst
      cases hfirst
    | cons c cs => exact ⟨_, List.getLast?_cons⟩
  have hstep : (t₁.type == "++" || t₁.type == "--") = true := by
    rw [h₁.type_eq]
    cases up <;> decide
  refine fits_update ht hkept hp fun n => ?_
  simp only [update, hfirst, hlast, hstep, if_true, List.map_cons, List.map_nil]
  rw [h₁.type_eq]
  rfl

/-- A comment is no token of a step. -/
lemma not_step_of_comment (h : t.isComment = true) :
    (t.type == "++" || t.type == "--") = false := by
  rw [Tree.isComment, Bool.or_eq_true, beq_iff_eq, beq_iff_eq] at h
  rcases h with h | h
  · rw [h]
    decide
  · rw [h]
    decide

/-- A step behind is known by its last child, since the first is no sign: it is the operand, or a
comment. -/
lemma fits_stepBehind {up : Bool} (ht : t.type = "update_expression") (hparts : t.Consists [t₁, t₂])
    (hlast : t.children.getLast? = some t₂) (h₁ : t₁.Fills none)
    (hno : (t₁.type == "++" || t₁.type == "--") = false) (hp : Fits source p t₁)
    (h₂ : t₂.IsToken (UpdateOperator.symbol ⟨false, up⟩) none) :
    Fits source (.update ⟨false, up⟩ p x) t := by
  have hkept : keptChildren t = [t₁] := by
    rw [hparts.keptChildren (by rw [ht]; decide)]
    simp [h₁.named, h₂.unnamed]
  -- The first child may be a comment in front of the operand, and that is no step either.
  obtain ⟨first, hfirst, hstep⟩ :
      ∃ first, t.children.head? = some first ∧
        (first.type == "++" || first.type == "--") = false := by
    have hform := hparts.parts_eq
    cases hchildren : t.children with
    | nil =>
      rw [hchildren] at hlast
      cases hlast
    | cons c cs =>
      refine ⟨c, rfl, ?_⟩
      cases hc : c.isComment with
      | true => exact not_step_of_comment hc
      | false =>
        rw [hchildren, List.filter_cons_of_pos (by rw [hc]; rfl)] at hform
        rw [(List.cons.inj hform).1, hno]
  refine fits_update ht hkept hp fun n => ?_
  simp only [update, hfirst, hlast, hstep, Bool.false_eq_true, if_false, List.map_cons,
    List.map_nil]
  rw [h₂.type_eq]
  rfl

end

/-! ## What is laid out fits -/

section
variable {source : Source}

/-- No expression is of the type of a sign. -/
lemma LaysOut.not_step {p : Pattern} {t : Tree} (h : LaysOut source p t) :
    (t.type == "++" || t.type == "--") = false := by
  have hno : ∀ type ∉ ["++", "--"], t.type = type → (t.type == "++" || t.type == "--") = false := by
    intro type hmem heq
    simpa [heq] using hmem
  cases h with
  | reference hname => exact hno _ (by decide) hname.type_eq
  -- Literals have several types, and each is none of the two.
  | literal hlit =>
    cases hlit with
    | int _ ht =>
      simp only [List.mem_cons, List.not_mem_nil, or_false] at ht
      rcases ht with ht | ht | ht | ht <;> exact hno _ (by decide) ht
    | double _ ht =>
      simp only [List.mem_cons, List.not_mem_nil, or_false] at ht
      rcases ht with ht | ht <;> exact hno _ (by decide) ht
    | string _ ht => exact hno _ (by decide) ht
    | @boolean b _ ht => cases b <;> exact hno _ (by decide) ht
  | parenthesised ht | null ht | this ht | field ht | method ht | call ht | creation ht
  | typeTest ht | unary ht | binary ht | stepInFront ht | stepBehind ht | element ht =>
    exact hno _ (by decide) ht

/-- No expression lays out the mark for any arguments. -/
lemma LaysOut.not_mark {p : Pattern} {t : Tree} : LaysOut source p t → p.isAnyArguments = false
  | .parenthesised _ _ _ _ h _ => h.not_mark
  | .reference _ | .literal _ | .null _ _ | .this _ _ | .field .. | .method .. | .call ..
  | .creation .. | .typeTest .. | .unary .. | .binary .. | .stepInFront .. | .stepBehind ..
  | .element .. => rfl

mutual

/-- A tree that lays a pattern out has a normal form, and that has the shape of the pattern. The
three inductions go together, as arguments hold expressions again. -/
lemma LaysOut.fits {p : Pattern} {t : Tree} : LaysOut source p t → p.Formed → Fits source p t
  | .parenthesised ht hparts h₁ h₂ hp h₃, hf => fits_parenthesised ht hparts h₁ h₂ (hp.fits hf) h₃
  | .reference hname, _ => by
    obtain ⟨n, hn, hkind, hvalue⟩ := hname.normalForm
    exact ⟨n, hn, Pattern.isKindNamed_iff.mpr ⟨hkind, hvalue⟩⟩
  | .literal hlit, _ => by
    obtain ⟨n, hn, hkind, hvalue⟩ := hlit.normalForm
    exact ⟨n, hn, Bool.and_eq_true_iff.mpr ⟨beq_iff_eq.mpr hkind, hvalue⟩⟩
  | .null ht hleaf, _ => by
    refine ⟨{ kind := NodeKind.null, span := spanOf source t }, .made (normalForms_leaf hleaf) ?_,
      rfl⟩
    rw [normalNode, ht]
    rfl
  | .this ht hleaf, _ => by
    refine ⟨generic source t [], .made (normalForms_leaf hleaf) ?_, ?_⟩
    · rw [normalNode, ht]
      rfl
    · exact beq_iff_eq.mpr ht
  | .field ht hparts h₁ hp h₂ h₃ hname, hf => fits_field ht hparts h₁ (hp.fits hf.1) h₂ h₃ hname
  | .method ht hparts h₁ hp h₂ h₃ hname h₄ hps, hf =>
    fits_method ht hparts h₁ (hp.fits hf.1) h₂ h₃ hname h₄ (hps.fits hf.2.2.2)
  | .call ht hparts h₁ hname h₂ hps, hf => fits_call ht hparts h₁ hname h₂ (hps.fits hf.2.2)
  | .creation ht hparts h₁ h₂ htype h₃ hps, hf =>
    fits_creation hf.1.1 ht hparts h₁ h₂ htype h₃ (hps.fits hf.2.2)
  | .typeTest ht hparts h₁ hp h₂ h₃ htype, hf =>
    fits_typeTest hf.2.1 ht hparts h₁ (hp.fits hf.1) h₂ h₃ htype
  | .unary ht hparts h₁ h₂ hp, hf => fits_unary ht hparts h₁ h₂ (hp.fits hf)
  | .binary ht hparts h₁ hp h₂ h₃ hq, hf =>
    fits_binary ht hparts h₁ (hp.fits hf.1) h₂ h₃ (hq.fits hf.2)
  | .stepInFront ht hparts hfirst h₁ h₂ hp, hf =>
    fits_stepInFront ht hparts hfirst h₁ h₂ (hp.fits hf)
  | .stepBehind ht hparts hlast h₁ hp h₂, hf =>
    fits_stepBehind ht hparts hlast h₁ hp.not_step (hp.fits hf) h₂
  | .element ht hparts h₁ hp h₂ h₃ hq h₄, hf =>
    fits_element ht hparts h₁ (hp.fits hf.1) h₂ h₃ (hq.fits hf.2) h₄

lemma LaysOutArguments.fits {ps : List Pattern} {t : Tree} :
    LaysOutArguments source ps t → Expr.FormedArguments Constant.Formed Pattern.Unmixed ps →
      FitsAll source ps t
  | .empty ht hparts h₁ h₂, _ =>
    fitsAll_of_row ht hparts (fitsRow_token h₁.unnamed (fitsRow_token h₂.unnamed fitsRow_nil))
  | .row ht hparts h₁ h₂ hp hothers, ⟨hf, hfs⟩ =>
    fitsAll_of_row ht hparts (fitsRow_token h₁.unnamed
      (fitsRow_cons h₂ (hp.fits (hf.resolve_left (by rw [hp.not_mark]; exact Bool.false_ne_true)))
        (hothers.fits hfs)))

lemma LaysOutFurther.fits {ps : List Pattern} {ts : List Tree} :
    LaysOutFurther source ps ts → Expr.FormedArguments Constant.Formed Pattern.Unmixed ps →
      FitsRow source ps ts
  | .close h, _ => fitsRow_token h.unnamed fitsRow_nil
  | .comma h₁ h₂ hp hothers, ⟨hf, hfs⟩ =>
    fitsRow_token h₁.unnamed
      (fitsRow_cons h₂ (hp.fits (hf.resolve_left (by rw [hp.not_mark]; exact Bool.false_ne_true)))
        (hothers.fits hfs))

end

end

/-! ## Expressions match themselves -/

/-- So a tree that lays a pattern out is converted, and the test of it holds where there is room. -/
lemma LaysOut.test_convert {source : Source} {p : Pattern} {t : Tree} (h : LaysOut source p t)
    (hp : p.Formed) (room : Room Pattern.Descent) : ∃ n, convert source t = .ok n ∧
      p.test room n = if p.fitsIn room then .ok true else .error .tooDeep := by
  obtain ⟨n, hn, hholds⟩ := h.fits hp
  refine ⟨{ n with role := none }, hn.convert, Pattern.test_of_holds ?_ room⟩
  rw [Pattern.holds_role, hholds]

/-- A tree that lays a compiled pattern out is converted to a node that the pattern matches, if
there is room for the test; if not, that is what the test fails with. -/
theorem test_convert_of_laysOut {r : Room Grammar.Opening} {text : String} {k : Kind}
    {source : Source} {t : Tree} (hk : Pattern.compileIn r text = .ok k)
    (ht : LaysOut source k.expression t) (room : Room Pattern.Descent) :
    ∃ n, convert source t = .ok n ∧
      k.expression.test room n = if k.expression.fitsIn room then .ok true else .error .tooDeep :=
  ht.test_convert (Pattern.formed_of_compileIn hk) room

/-- A token. -/
def tokenAt (text : String) (start : Nat) : Tree :=
  { type := text, isNamed := false, start, stop := start + text.length }

/-- A named node. -/
def nodeAt (type : String) (field? : Option String) (start stop : Nat)
    (children : List Tree) : Tree :=
  { type, field?, start, stop, children }

/-- A source that holds an expression with parentheses, a qualified generic type, a hexadecimal
number and a comment. -/
def nestedSource : Source :=
  .ofString "(a).f(new p.B<C>(0x10) /* c */)"

/-- The type in the source. -/
def nestedType : Tree :=
  nodeAt "generic_type" (some "type") 10 16
    [nodeAt "scoped_type_identifier" none 10 13
      [nodeAt "type_identifier" none 10 11 [], tokenAt "." 11,
        nodeAt "type_identifier" none 12 13 []],
      nodeAt "type_arguments" none 13 16
        [tokenAt "<" 13, nodeAt "type_identifier" none 14 15 [], tokenAt ">" 15]]

/-- The creation in the source. -/
def nestedCreation : Tree :=
  nodeAt "object_creation_expression" none 6 22
    [tokenAt "new" 6, nestedType, nodeAt "argument_list" (some "arguments") 16 22
      [tokenAt "(" 16, nodeAt "hex_integer_literal" none 17 21 [], tokenAt ")" 21]]

/-- The tree of the source. -/
def nestedTree : Tree :=
  nodeAt "method_invocation" none 0 31
    [nodeAt "parenthesized_expression" (some "object") 0 3
      [tokenAt "(" 0, nodeAt "identifier" none 1 2 [], tokenAt ")" 2],
      tokenAt "." 3, nodeAt "identifier" (some "name") 4 5 [],
      nodeAt "argument_list" (some "arguments") 5 31
        [tokenAt "(" 5, nestedCreation, nodeAt "block_comment" none 23 30 [], tokenAt ")" 30]]

/-- Whether the pattern is that of `a.f(new B(16))`, wherever its parts stand. Kinds cannot be
compared by computation, so this is what is computed. -/
def isNested : Pattern → Bool
  | .method (.reference a _) f [.creation b [.literal c _] _] _ =>
    a == "a" && f == "f" && b == "B" && c == ⟨.int, .int 16⟩
  | _ => false

lemma eq_of_isNested {p : Pattern} (h : isNested p = true) :
    ∃ w x y z, p =
      .method (.reference "a" w) "f" [.creation "B" [.literal ⟨.int, .int 16⟩ x] y] z := by
  unfold isNested at h
  split at h
  case h_1 a w f b c x y z =>
    simp only [Bool.and_eq_true, beq_iff_eq] at h
    obtain ⟨⟨⟨rfl, rfl⟩, rfl⟩, rfl⟩ := h
    exact ⟨w, x, y, z, rfl⟩
  case h_2 => cases h

/-- A node over leaves that are neither literals nor steps. -/
lemma inert_nodeAt {type : String} {field? : Option String} {start stop : Nat}
    {children : List Tree} (htype : type ∉ fallibleTypes)
    (h : children.all fun c => c.children.isEmpty && !fallibleTypes.contains c.type) :
    Inert (nodeAt type field? start stop children) := by
  refine .node htype fun c hc => ?_
  have hplain := List.all_eq_true.mp h c hc
  simp only [Bool.and_eq_true, List.isEmpty_iff, Bool.not_eq_true', List.contains_eq_mem,
    decide_eq_false_iff_not] at hplain
  exact .node hplain.2 (by rw [hplain.1]; exact nofun)

/-- What the source says at its leaves. -/
lemma nestedSource_reads :
    textOf nestedSource nestedType = "p.".toList ++ ([] ++ ("B".toList ++ ([] ++ "<C>".toList))) ∧
      Literal.integer?
        (textOf nestedSource (nodeAt "hex_integer_literal" none 17 21 [])) = some 16 ∧
      Literal.isLong (textOf nestedSource (nodeAt "hex_integer_literal" none 17 21 [])) = false ∧
      textOf nestedSource (nodeAt "identifier" none 1 2 []) = "a".toList ∧
      textOf nestedSource (nodeAt "identifier" (some "name") 4 5 []) = "f".toList := by
  decide +kernel

lemma writesType_nestedType : WritesType nestedSource "B" nestedType where
  inert := by
    refine .node (by decide) fun c hc => ?_
    simp only [nestedType, nodeAt, List.mem_cons, List.not_mem_nil, or_false] at hc
    rcases hc with rfl | rfl
    · exact inert_nodeAt (by decide) (by decide)
    · exact inert_nodeAt (by decide) (by decide)
  text := ⟨"p.".toList, [], [], "<C>".toList, nestedSource_reads.1, .inr ⟨['p'], rfl, by decide⟩,
    .inr ⟨"C>".toList, rfl⟩, nofun, nofun⟩

lemma laysOut_nestedTree {p : Pattern} (h : isNested p = true) :
    LaysOut nestedSource p nestedTree := by
  obtain ⟨w, x, y, z, rfl⟩ := eq_of_isNested h
  obtain ⟨-, hvalue, hlong, ha, hf⟩ := nestedSource_reads
  have hnumber : LaysOut nestedSource (.literal ⟨.int, .int 16⟩ x)
      (nodeAt "hex_integer_literal" none 17 21 []) :=
    .literal (.int (i := 16) rfl (by decide) hvalue hlong rfl)
  have hcreation :
      LaysOut nestedSource (.creation "B" [.literal ⟨.int, .int 16⟩ x] y) nestedCreation :=
    .creation rfl ⟨rfl, by decide⟩ ⟨rfl, rfl, rfl⟩ ⟨rfl, rfl⟩ writesType_nestedType ⟨rfl, rfl⟩
      (.row rfl ⟨rfl, by decide⟩ ⟨rfl, rfl, rfl⟩ ⟨rfl, rfl⟩ hnumber (.close ⟨rfl, rfl, rfl⟩))
  have hobject : LaysOut nestedSource (.reference "a" w)
      (nodeAt "parenthesized_expression" (some "object") 0 3
        [tokenAt "(" 0, nodeAt "identifier" none 1 2 [], tokenAt ")" 2]) :=
    .parenthesised rfl ⟨rfl, by decide⟩ ⟨rfl, rfl, rfl⟩ ⟨rfl, rfl⟩ (.reference ⟨rfl, rfl, ha⟩)
      ⟨rfl, rfl, rfl⟩
  exact .method rfl ⟨rfl, by decide⟩ ⟨rfl, rfl⟩ hobject ⟨rfl, rfl, rfl⟩ ⟨rfl, rfl⟩
    ⟨rfl, rfl, hf⟩ ⟨rfl, rfl⟩
    (.row rfl ⟨rfl, by decide⟩ ⟨rfl, rfl, rfl⟩ ⟨rfl, rfl⟩ hcreation (.close ⟨rfl, rfl, rfl⟩))

/-- The pattern `a.f(new B(16))` matches an expression that is written quite differently. -/
theorem test_convert_of_laysOut_nested : ∃ k n, Pattern.compile "a.f(new B(16))" = .ok k ∧
    LaysOut nestedSource k.expression nestedTree ∧ convert nestedSource nestedTree = .ok n ∧
      k.expression.matchesNode n = .ok true := by
  obtain ⟨k, hk, hcheck⟩ := exists_of_any_toOption
    (show (Pattern.compile "a.f(new B(16))").toOption.any
      (fun k => isNested k.expression && k.expression.fitsIn Pattern.testRoom) = true by
        decide +kernel)
  obtain ⟨hnested, hfits⟩ := Bool.and_eq_true_iff.mp hcheck
  have ht := laysOut_nestedTree hnested
  obtain ⟨n, hn, htest⟩ := test_convert_of_laysOut hk ht Pattern.testRoom
  rw [if_pos hfits] at htest
  exact ⟨k, n, hk, ht, hn, htest⟩

/-! ## Patterns that there is no room to test -/

/-- A name with so many fields after it. -/
def fieldChain : Nat → Pattern
  | 0 => .reference "a" {}
  | fields + 1 => .field (fieldChain fields) "b" {}

/-- The text of a name with so many fields after it. -/
def chainText : Nat → List Char
  | 0 => ['a']
  | fields + 1 => chainText fields ++ ([' '] ++ '.' :: ([' '] ++ ['b']))

/-- The bytes of that text. -/
def chainBytes (fields : Nat) : List UInt8 :=
  (chainText fields).map fun c => c.toNat.toUInt8

/-- The tree of that text. Each field takes four bytes more, with the blanks around its dot. -/
def chainTree (field? : Option String) : Nat → Tree
  | 0 => nodeAt "identifier" field? 0 1 []
  | fields + 1 =>
    nodeAt "field_access" field? 0 (4 * fields + 5)
      [chainTree (some "object") fields, tokenAt "." (4 * fields + 2),
       nodeAt "identifier" (some "field") (4 * fields + 4) (4 * fields + 5) []]

lemma length_chainText (fields : Nat) : (chainText fields).length = 4 * fields + 1 := by
  induction fields with
  | zero => rfl
  | succ fields ih =>
    simp only [chainText, List.length_append, ih, List.length_cons, List.length_nil]
    omega

lemma rendered_chain (fields : Nat) :
    Pattern.Rendered { expression := fieldChain fields } (chainText fields) := by
  have hspace : Grammar.Gap [' '] := by decide
  have hb : Grammar.IsName "b" := by decide
  have hwritten : Pattern.Written .selected (fieldChain fields) (chainText fields) := by
    induction fields with
    | zero =>
      have ha : Grammar.IsName "a" := by decide
      exact .reference ha (by decide)
    | succ fields ih => exact .field hspace hspace hb ih
  have hloose : Pattern.Written .equality (fieldChain fields) (chainText fields) :=
    hwritten.loosen (by decide)
  have h := Pattern.Rendered.anywhere (a := []) (b := []) (by simp) (by simp) hloose
  rwa [List.append_nil] at h

lemma chainTree_fills (field? : Option String) (fields : Nat) :
    (chainTree field? fields).Fills field? ∧ (chainTree field? fields).isComment = false := by
  cases fields with
  | zero => exact ⟨⟨rfl, rfl⟩, rfl⟩
  | succ fields => exact ⟨⟨rfl, rfl⟩, rfl⟩

/-- A pattern that is equal to the chain is laid out by the tree. The source may go on behind the
text, which is what the induction needs. -/
lemma laysOut_chain {source : Source} {rest : List UInt8} {fields : Nat} {p : Pattern}
    (hs : source.bytes = chainBytes fields ++ rest) (hp : Pattern.same p (fieldChain fields) = true)
    (field? : Option String) : LaysOut source p (chainTree field? fields) := by
  induction fields generalizing p rest field? with
  | zero =>
    cases p with
    | reference name x =>
      obtain rfl : name = "a" := by simpa [fieldChain, Pattern.same] using hp
      refine .reference ⟨rfl, rfl, ?_⟩
      rw [textOf, Source.textBetween, Source.slice, hs]
      rfl
    | _ => simp [fieldChain, Pattern.same] at hp
  | succ fields ih =>
    cases p with
    | field receiver name x =>
      obtain ⟨hreceiver, rfl⟩ : Pattern.same receiver (fieldChain fields) = true ∧ name = "b" := by
        simpa [fieldChain, Pattern.same] using hp
      -- What follows the chain in the source grows by one field, so the receiver is laid out in the
      -- same source.
      have hbytes : source.bytes = chainBytes fields ++ ([32, 46, 32, 98] ++ rest) := by
        rw [hs, chainBytes, chainText, List.map_append, List.append_assoc]
        rfl
      have hname : WritesName source "b"
          (nodeAt "identifier" (some "field") (4 * fields + 4) (4 * fields + 5) []) := by
        refine ⟨rfl, rfl, ?_⟩
        have hlength : (chainBytes fields).length = 4 * fields + 1 := by
          rw [chainBytes, List.length_map, length_chainText]
        have hstart : 4 * fields + 4 = (chainBytes fields).length + 3 := by omega
        have hstop : 4 * fields + 5 - ((chainBytes fields).length + 3) = 1 := by omega
        rw [textOf, Source.textBetween, Source.slice, hbytes, nodeAt, hstart, hstop,
          List.drop_length_add_append]
        rfl
      have hobject := ih hbytes hreceiver (some "object")
      obtain ⟨hfills, hcode⟩ := chainTree_fills (some "object") fields
      have hparts :
          (chainTree field? (fields + 1)).Consists (chainTree field? (fields + 1)).children := by
        refine Tree.consists_children fun c hc => ?_
        simp only [chainTree, nodeAt, List.mem_cons, List.not_mem_nil, or_false] at hc
        rcases hc with rfl | rfl | rfl
        · exact hcode
        · rfl
        · rfl
      exact .field rfl hparts hfills hobject ⟨rfl, rfl, rfl⟩ ⟨rfl, rfl⟩ hname
    | _ => simp [fieldChain, Pattern.same] at hp

/-- Nothing is nested in a chain, so there is always room to read it. -/
lemma nesting_chainText (fields : Nat) : Grammar.nesting (chainText fields) = 0 := by
  have hplain : ∀ c ∈ chainText fields, c ∈ ['a', ' ', '.', 'b'] := by
    induction fields with
    | zero => decide
    | succ fields ih =>
      rw [chainText, List.forall_mem_append]
      exact ⟨ih, by decide⟩
  have hno : ∀ c ∈ ['a', ' ', '.', 'b'], c ≠ '"' ∧ ¬ ['(', '[', '+', '-', '!'].contains c := by
    decide
  rw [Grammar.nesting, Grammar.outside_of_quoteless fun hmem => (hno _ (hplain _ hmem)).1 rfl,
    List.countP_eq_zero]
  exact fun c hc => (hno c (hplain c hc)).2

/-- Patterns with any number of fields are compiled and laid out. -/
lemma exists_laysOut_chain (fields : Nat) : ∃ text k source t, Pattern.compile text = .ok k ∧
    LaysOut source k.expression t ∧ k.expression.same (fieldChain fields) = true := by
  have hroom : Grammar.stackRoom.Holds (Grammar.nesting (chainText fields) + 1) := by
    rw [nesting_chainText]
    exact Grammar.holds_stackRoom.mono (by decide)
  obtain ⟨k, hk, hsame⟩ := ((rendered_chain fields).compileChars Grammar.stackRoom).resolve_right
    (Pattern.not_sinks_whole hroom)
  have hcompile : Pattern.compile (String.ofList (chainText fields)) = .ok k := by
    rw [Pattern.compile, Pattern.compileIn, String.toList_ofList, hk]
    rfl
  simp only [Kind.same, Bool.and_eq_true] at hsame
  have hsource : (Source.mk (chainBytes fields)).bytes = chainBytes fields ++ [] :=
    (List.append_nil _).symm
  exact ⟨_, k, _, _, hcompile, laysOut_chain hsource hsame.1.1 none, hsame.1.1⟩

/-- However much room there is, there is none for some number of fields. The induction is on the
room. -/
lemma exists_not_fitsIn_chain (room : Room Pattern.Descent) :
    ∃ fields, ∀ p : Pattern, p.same (fieldChain fields) = true → p.fitsIn room = false := by
  induction room with
  | none => exact ⟨0, fun p _ => by rw [Pattern.fitsIn.eq_def]⟩
  | more inside ih =>
    obtain ⟨fields, hfields⟩ := ih .part
    refine ⟨fields + 1, fun p hp => ?_⟩
    cases p with
    | field receiver name x =>
      obtain ⟨hreceiver, -⟩ : Pattern.same receiver (fieldChain fields) = true ∧ name = "b" := by
        simpa [fieldChain, Pattern.same] using hp
      rw [Pattern.fitsIn, hfields receiver hreceiver]
    | _ => simp [fieldChain, Pattern.same] at hp

/-! ## Comments in types -/

/-- A source with white space in front of the name of a type. -/
def blankSource : Source :=
  .ofString "new p.       B()"

/-- The same source with a comment instead. -/
def commentSource : Source :=
  .ofString "new p./* c */B()"

/-- The comment in the source. -/
def typeComment : Tree :=
  nodeAt "block_comment" none 6 13 []

/-- The type in these sources, with these children between its last dot and its name. The comment
has the same length as the white space, so that the trees differ in nothing else. -/
def setOffType (between : List Tree) : Tree :=
  nodeAt "scoped_type_identifier" (some "type") 4 14
    ([nodeAt "type_identifier" none 4 5 [], tokenAt "." 5] ++ between ++
      [nodeAt "type_identifier" none 13 14 []])

/-- The tree of these sources. -/
def setOffTree (between : List Tree) : Tree :=
  nodeAt "object_creation_expression" none 0 16
    [tokenAt "new" 0, setOffType between,
      nodeAt "argument_list" (some "arguments") 14 16 [tokenAt "(" 14, tokenAt ")" 15]]

/-- Whether the pattern is that of `new B()`, wherever it stands. -/
def isCreationOfB : Pattern → Bool
  | .creation b [] _ => b == "B"
  | _ => false

lemma laysOut_setOffTree {p : Pattern} (h : isCreationOfB p = true) :
    LaysOut blankSource p (setOffTree []) := by
  unfold isCreationOfB at h
  split at h
  case h_1 b x =>
    obtain rfl := beq_iff_eq.mp h
    have htext : textOf blankSource (setOffType []) =
        "p.".toList ++ ("       ".toList ++ ("B".toList ++ ([] ++ []))) := by decide +kernel
    have htype : WritesType blankSource "B" (setOffType []) :=
      ⟨inert_nodeAt (by decide) (by decide),
        _, _, [], [], htext, .inr ⟨['p'], rfl, by decide⟩, .inl rfl, by decide, nofun⟩
    exact .creation rfl ⟨rfl, by decide⟩ ⟨rfl, rfl, rfl⟩ ⟨rfl, rfl⟩ htype ⟨rfl, rfl⟩
      (.empty rfl ⟨rfl, by decide⟩ ⟨rfl, rfl, rfl⟩ ⟨rfl, rfl, rfl⟩)
  case h_2 => cases h

/-- Not every pattern matches the trees that lay it out. However much room there is for a test, a
name can have too many fields after it. And a comment between the children of a type is read as part
of its name, where white space is not. -/
theorem not_matches_of_laysOut :
    (∀ room : Room Pattern.Descent, ¬ ∀ (text : String) (k : Kind) (source : Source) (t : Tree),
      Pattern.compile text = .ok k → LaysOut source k.expression t →
        ∃ n, convert source t = .ok n ∧ k.expression.test room n = .ok true) ∧
    ∃ k n, Pattern.compile "new B()" = .ok k ∧ LaysOut blankSource k.expression (setOffTree []) ∧
      convert commentSource (setOffTree [typeComment]) = .ok n ∧
        k.expression.matchesNode n = .ok false := by
  refine ⟨fun room hall => ?_, ?_⟩
  · -- Whatever the room, some chain of fields is too deep for it.
    obtain ⟨fields, hfields⟩ := exists_not_fitsIn_chain room
    obtain ⟨text, k, source, t, hk, ht, hsame⟩ := exists_laysOut_chain fields
    obtain ⟨n, hn, hmatches⟩ := hall text k source t hk ht
    obtain ⟨m, hm, htest⟩ := ht.test_convert (Pattern.formed_of_compileIn hk) room
    obtain rfl : m = n := Except.ok.inj (hm.symm.trans hn)
    rw [hmatches, hfields _ hsame] at htest
    cases htest
  · -- A comment beside the type becomes part of the type name, which then is another one.
    obtain ⟨k, hk, hcheck⟩ := exists_of_any_toOption
      (show (Pattern.compile "new B()").toOption.any (fun k => isCreationOfB k.expression &&
        (convert commentSource (setOffTree [typeComment])).toOption.any
          (fun n => k.expression.matchesNode n = .ok false)) = true by decide +kernel)
    obtain ⟨hcreation, hconvert⟩ := Bool.and_eq_true_iff.mp hcheck
    obtain ⟨n, hn, hmatches⟩ := exists_of_any_toOption hconvert
    exact ⟨k, n, hk, laysOut_setOffTree hcreation, hn, of_decide_eq_true hmatches⟩

end ShapeLint.Java
