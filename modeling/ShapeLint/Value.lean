import ShapeLint.Double.Shortest
import ShapeLint.Text.Quoted

/-!
# Values

What a node of a syntax tree carries besides its kind: the text of a name, the symbol of an
operator, or the value of a literal. Two numbers are the same value when they are the same number,
whichever way they are kept, and a truth value counts as the number zero or one.
-/

namespace ShapeLint

/-- The payload of a node: nothing, a truth value, a number, or a text. -/
inductive Value where
  | none
  | bool (b : Bool)
  | int (i : Int)
  | double (d : Double)
  /-- The text may hold halves of surrogate pairs, since Java escapes can write them. -/
  | text (points : List Text.CodePoint)
deriving DecidableEq, Inhabited

namespace Value

/-- The value that holds a text. -/
def ofString (s : String) : Value :=
  .text (Text.codePoints s.toList)

/-- The integer that a value counts as. Texts and doubles count as none; a double is compared with
an integer by `Double.sameInt`. -/
def int? : Value → Option Int
  | .int i => some i
  | .bool b => some (if b then 1 else 0)
  | _ => Option.none

/-- Whether two values are the same. A truth value is the same as the number that it counts as, and
so is a double. -/
def same (a b : Value) : Bool :=
  match a, b with
  | .none, .none => true
  | .text s, .text t => s == t
  | .double d, .double e => d.same e
  | .double d, b => (b.int?.map d.sameInt).getD false
  | a, .double e => (a.int?.map e.sameInt).getD false
  | a, b =>
    match a.int?, b.int? with
    | some i, some j => i == j
    | _, _ => false

/-- A value as it is shown in messages. -/
def display : Value → String
  | .none => "None"
  | .bool b => if b then "True" else "False"
  | .int i => toString i
  | .double d => d.text
  | .text s => String.ofList (Text.quotedPoints s)

end Value

end ShapeLint
