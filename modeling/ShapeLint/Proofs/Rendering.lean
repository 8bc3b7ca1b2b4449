import ShapeLint.Pattern.Compile
import ShapeLint.Proofs.Spelling

/-!
# How patterns are written

`Rendered k t` says that the text `t` writes the kind `k`. It is given by the forms of the pattern
language alone and mentions no reader: tokens stand apart, each literal is spelled by any text that
denotes its value, and parentheses stand where operators bind too loosely and, as many as one likes,
around any other part. So a text may be nested as deeply as one likes too, and nothing here says how
deeply it is.

The levels are those of the operators, from loose to tight. A binary operator takes its left operand
at its own level and its right operand at the next one, so that chains of operators associate to the
left. A postfix step and a selector take an operand that is itself no postfix step.
-/

namespace ShapeLint

open Grammar (Gap IsName DoubleText IntegerText StringText)

/-- How tightly an expression holds together, from the loosest level to the tightest: equality,
comparisons and type tests, shifts, sums, products, prefix operators, steps behind an operand, and
last selectors and what no operator splits. -/
inductive Precedence where
  | equality
  | relational
  | shift
  | additive
  | multiplicative
  | prefixed
  | stepped
  | selected
deriving DecidableEq

namespace Precedence

/-- The next tighter level. Nothing is tighter than what no operator splits. -/
def tighter : Precedence → Precedence
  | equality => relational
  | relational => shift
  | shift => additive
  | additive => multiplicative
  | multiplicative => prefixed
  | prefixed => stepped
  | stepped => selected
  | selected => selected

/-- How many levels are looser. Levels are compared by this number, since the level asked for and
the level of an operand are far apart in most places. -/
def rank : Precedence → Nat
  | equality => 0
  | relational => 1
  | shift => 2
  | additive => 3
  | multiplicative => 4
  | prefixed => 5
  | stepped => 6
  | selected => 7

lemma rank_injective {l l' : Precedence} (h : l.rank = l'.rank) : l = l' := by
  revert h
  cases l <;> cases l' <;> decide

end Precedence

/-- The level of a binary operator, which is that of its left operand too. -/
def BinaryOperator.precedence : BinaryOperator → Precedence
  | .eq | .ne => .equality
  | .ge | .gt | .le | .lt => .relational
  | .shl | .shr | .ushr => .shift
  | .add | .sub => .additive
  | .mul | .div | .rem => .multiplicative

/-- The words between colons that stand for any literal of a type. Truth values have two of them. -/
def LiteralType.words : LiteralType → List String
  | .int => ["int"]
  | .double => ["double"]
  | .string => ["string"]
  | .boolean => ["bool", "boolean"]

/-- The word for a context that can be asked for. That a pattern may stand anywhere has no word. -/
inductive ContextWord : Context → String → Prop where
  | conditional : ContextWord .conditional "conditional"
  | discarded : ContextWord .discarded "discarded"

/-- What stands between the brackets of a context suffix: the word, behind a mark if it is negated.
-/
inductive ContextPhrase : Context → Bool → List Char → Prop where
  | plain {c : Context} {w : String} : ContextWord c w → ContextPhrase c false w.toList
  | negated {c : Context} {w : String} {g : List Char} :
      ContextWord c w → Gap g → ContextPhrase c true ('!' :: (g ++ w.toList))

namespace Pattern

/-! ## Literals and arguments -/

/-- The text spells a literal of the type, and what it denotes is the value. The spelling is left
open: a number may be written in another base or with underscores, and a string with any escapes, as
long as the value is the same. -/
inductive LiteralText : Constant → List Char → Prop where
  | double {c : Constant} {d : Double} {t : List Char} :
      DoubleText t → Literal.floating t = .ok d → Constant.same ⟨.double, .double d⟩ c = true →
      LiteralText c t
  | integer {c : Constant} {i : Int} {t : List Char} :
      IntegerText t → Literal.integer? t = some i → Constant.same ⟨.int, .int i⟩ c = true →
      LiteralText c t
  | string {c : Constant} {points : List Text.CodePoint} {t : List Char} :
      StringText t → Literal.string t = .ok points →
      Constant.same ⟨.string, .text points⟩ c = true → LiteralText c t
  | boolean {c : Constant} (b : Bool) :
      Constant.same ⟨.boolean, .bool b⟩ c = true →
      LiteralText c (if b then "true" else "false").toList

/-- A part of a rendering: a pattern and the text that is to write it. Lists of arguments are given
as such parts, and that each text does write its pattern is asked for beside the list, since
`Written` is not yet there. -/
structure Piece where
  pattern : Pattern
  text : List Char

/-- The text has the parts of a list in order, with a comma before each and gaps around the
commas. -/
inductive Further : List Piece → List Char → Prop where
  | none : Further [] []
  | more {x : Piece} {xs : List Piece} {a b t : List Char} :
      Gap a → Gap b → Further xs t → Further (x :: xs) (a ++ ',' :: (b ++ (x.text ++ t)))

/-- The text has arguments in parentheses behind a gap: none, the mark for any arguments, or one or
more parts. The mark stands alone, so it is no part. -/
inductive ArgumentText : List Piece → List Pattern → List Char → Prop where
  | none {a b : List Char} : Gap a → Gap b → ArgumentText [] [] (a ++ '(' :: (b ++ [')']))
  | any {a b c : List Char} {loc : Span} : Gap a → Gap b → Gap c →
      ArgumentText [] [.anyArguments loc] (a ++ '(' :: (b ++ ("...".toList ++ (c ++ [')']))))
  | some {x : Piece} {xs : List Piece} {a b c t : List Char} :
      Gap a → Gap b → Gap c → Further xs t →
      ArgumentText (x :: xs) ((x :: xs).map (·.pattern))
        (a ++ '(' :: (b ++ (x.text ++ (t ++ (c ++ [')'])))))

/-! ## Expressions and kinds -/

/-- The text writes the pattern where an operand of the level is asked for. Each form of pattern has
one rule, and two more are for all of them: what holds together more tightly than is asked for may
stand there, and anything in parentheses is as tight as can be. Gaps may stand between all tokens.

Spans are free in every rule, as a text says nothing of where it will stand in a larger one. -/
inductive Written : Precedence → Pattern → List Char → Prop where
  /-- What holds together more tightly than is asked for. -/
  | tighter {l : Precedence} {p : Pattern} {t : List Char} : Written l.tighter p t → Written l p t
  | grouped {p : Pattern} {a b t : List Char} : Gap a → Gap b → Written .equality p t →
      Written .selected p ('(' :: (a ++ (t ++ (b ++ [')']))))
  | wildcard {loc : Span} : Written .selected (.wildcard loc) ['_']
  /-- A name, but not the mark for any expression. -/
  | reference {name : String} {loc : Span} :
      IsName name → name ≠ "_" → Written .selected (.reference name loc) name.toList
  | literal {c : Constant} {loc : Span} {t : List Char} :
      LiteralText c t → Written .selected (.literal c loc) t
  | anyLiteral {type : LiteralType} {loc : Span} {w : String} :
      w ∈ type.words → Written .selected (.anyLiteral type loc) (':' :: (w.toList ++ [':']))
  | anyLambda {loc : Span} : Written .selected (.anyLambda loc) ":lambda:".toList
  | null {loc : Span} : Written .selected (.null loc) "null".toList
  | this {loc : Span} : Written .selected (.this loc) "this".toList
  | field {p : Pattern} {name : String} {loc : Span} {a b t : List Char} :
      Gap a → Gap b → IsName name → Written .selected p t →
      Written .selected (.field p name loc) (t ++ (a ++ '.' :: (b ++ name.toList)))
  | method {p : Pattern} {name : String} {xs : List Piece} {args : List Pattern} {loc : Span}
      {a b t u : List Char} :
      Gap a → Gap b → IsName name → Written .selected p t → ArgumentText xs args u →
      (∀ x ∈ xs, Written .equality x.pattern x.text) →
      Written .selected (.method p name args loc) (t ++ (a ++ '.' :: (b ++ (name.toList ++ u))))
  /-- An element of an array. An index that would read as a context suffix stands in parentheses. -/
  | element {p q : Pattern} {loc : Span} {a b c s t : List Char} : Gap a → Gap b → Gap c →
      (∀ context negated, ¬ ContextPhrase context negated t) → Written .selected p s →
        Written .equality q t →
      Written .selected (.element p q loc) (s ++ (a ++ '[' :: (b ++ (t ++ (c ++ [']'])))))
  | call {name : String} {xs : List Piece} {args : List Pattern} {loc : Span} {u : List Char} :
      IsName name → name ≠ "_" → ArgumentText xs args u →
      (∀ x ∈ xs, Written .equality x.pattern x.text) →
      Written .selected (.call name args loc) (name.toList ++ u)
  | creation {name : String} {xs : List Piece} {args : List Pattern} {loc : Span}
      {g u : List Char} :
      Gap g → IsName name → ArgumentText xs args u →
      (∀ x ∈ xs, Written .equality x.pattern x.text) →
      Written .selected (.creation name args loc) ("new".toList ++ (g ++ (name.toList ++ u)))
  | stepBehind {up : Bool} {p : Pattern} {loc : Span} {a t : List Char} :
      Gap a → Written .selected p t →
      Written .stepped (.update ⟨false, up⟩ p loc)
        (t ++ (a ++ (UpdateOperator.symbol ⟨false, up⟩).toList))
  | stepInFront {up : Bool} {p : Pattern} {loc : Span} {a t : List Char} :
      Gap a → Written .prefixed p t →
      Written .prefixed (.update ⟨true, up⟩ p loc)
        ((UpdateOperator.symbol ⟨true, up⟩).toList ++ (a ++ t))
  | unary {op : UnaryOperator} {p : Pattern} {loc : Span} {a t : List Char} :
      Gap a → Written .prefixed p t →
      Written .prefixed (.unary op p loc) (op.symbol.toList ++ (a ++ t))
  | binary {op : BinaryOperator} {p q : Pattern} {loc : Span} {a b s t : List Char} :
      Gap a → Gap b → Written op.precedence p s → Written op.precedence.tighter q t →
      Written op.precedence (.binary op p q loc) (s ++ (a ++ (op.symbol.toList ++ (b ++ t))))
  | typeTest {p : Pattern} {name : String} {loc : Span} {a b t : List Char} :
      Gap a → Gap b → IsName name →
      Written .relational p t →
      Written .relational (.typeTest p name loc)
        (t ++ (a ++ ("instanceof".toList ++ (b ++ name.toList))))

/-- What holds together tightly can stand where something looser is asked for. The rule for one
level is applied as often as there are levels between the two. -/
theorem Written.loosen {l l' : Precedence} {p : Pattern} {t : List Char} (h : Written l p t)
    (hl : l'.rank ≤ l.rank) : Written l' p t := by
  -- on the number of levels between the two
  generalize hk : l.rank - l'.rank = k
  induction k generalizing l' with
  | zero =>
    have heq : l' = l := Precedence.rank_injective (by omega)
    exact heq ▸ h
  | succ k ih =>
    have hnext : l'.tighter.rank = l'.rank + 1 := by
      cases l' with
      | selected =>
        have hmost : l.rank ≤ Precedence.selected.rank := by cases l <;> decide
        omega
      | _ => rfl
    exact .tighter (ih (by omega) (by omega))

/-- The text writes the kind. White space may stand at its two ends, and in front of a context
suffix and at every place inside it. -/
inductive Rendered : Kind → List Char → Prop where
  | anywhere {p : Pattern} {a b t : List Char} :
      (∀ c ∈ a, Text.isBlank c = true) → (∀ c ∈ b, Text.isBlank c = true) → Written .equality p t →
      Rendered { expression := p } (a ++ (t ++ b))
  | suffixed {p : Pattern} {context : Context} {negated : Bool} {a b g h k t u : List Char} :
      (∀ c ∈ a, Text.isBlank c = true) → (∀ c ∈ b, Text.isBlank c = true) → Gap g → Gap h → Gap k →
      ContextPhrase context negated u → Written .equality p t →
      Rendered { expression := p, context, negated }
        (a ++ (t ++ (g ++ '[' :: (h ++ (u ++ (k ++ ']' :: b))))))

end Pattern

end ShapeLint
