/-!
# Concrete trees

A concrete tree holds the tokens of a source; comments may stand among them. A node has a type, the
field it fills in its parent if it fills one, and the offsets of its first byte and of the byte
after its last. Tokens that stand for themselves, such as brackets and operators, are not named.
Where the source is wrong, the tree holds nodes of type `ERROR` or nodes that are missing.
-/

namespace ShapeLint.Java

/-- A node of a concrete tree: its type, the field it fills in its parent, whether it is named,
whether it was put in where something is missing, whether it is known to hold an error, the offsets
of its first byte and after its last, and its children in order. -/
structure Tree where
  type : String
  field? : Option String := none
  isNamed : Bool := true
  isMissing : Bool := false
  isFlagged : Bool := false
  start : Nat := 0
  stop : Nat := 0
  children : List Tree := []
deriving Inhabited

namespace Tree

/-- Whether a node is itself an error. -/
def isError (t : Tree) : Bool :=
  t.type == "ERROR" || t.isMissing

/-- Whether a node is a comment. -/
def isComment (t : Tree) : Bool :=
  t.type == "line_comment" || t.type == "block_comment"

/-- The first child that fills a field. -/
def child? (t : Tree) (field : String) : Option Tree :=
  t.children.find? (·.field? == some field)

mutual

/-- The number of nodes of a tree. -/
def size : Tree → Nat
  | ⟨_, _, _, _, _, _, _, children⟩ => 1 + sizeList children

/-- The number of nodes of several trees. -/
def sizeList : List Tree → Nat
  | [] => 0
  | t :: ts => size t + sizeList ts

end

mutual

/-- Whether a tree holds an error, be it flagged or not. -/
def hasError : Tree → Bool
  | ⟨type, _, _, isMissing, isFlagged, _, _, children⟩ =>
    type == "ERROR" || isMissing || isFlagged || anyError children

/-- Whether one of several trees holds an error. -/
def anyError : List Tree → Bool
  | [] => false
  | t :: ts => hasError t || anyError ts

end

theorem size_eq (t : Tree) : t.size = 1 + sizeList t.children := by
  obtain ⟨_, _, _, _, _, _, _, _⟩ := t
  rfl

theorem sizeList_append (s t : List Tree) : sizeList (s ++ t) = sizeList s + sizeList t := by
  induction s with
  | nil => simp [sizeList]
  | cons x s ih => simp only [List.cons_append, sizeList, ih]; omega

theorem sizeList_filter (p : Tree → Bool) (ts : List Tree) :
    sizeList (ts.filter p) ≤ sizeList ts := by
  induction ts with
  | nil => simp
  | cons t ts ih =>
    rw [List.filter_cons]
    split <;> simp only [sizeList] <;> omega

/-- The children in which an error is known to be. -/
def suspects (t : Tree) : List Tree :=
  t.children.filter fun c => c.hasError || c.isMissing

theorem sizeList_suspects (t : Tree) : sizeList t.suspects < t.size := by
  have h := sizeList_filter (fun c => c.hasError || c.isMissing) t.children
  rw [suspects, size_eq t]
  omega

/-- The first error of the trees on a stack, which is looked for only where an error is known to be.
A node stands before its children. -/
def searchError : List Tree → Option Tree
  | [] => none
  | t :: stack =>
    if t.isError then some t
    else searchError (t.suspects ++ stack)
termination_by stack => sizeList stack
decreasing_by
  have h := sizeList_suspects t
  simp only [sizeList_append, sizeList]
  omega

/-- The first error of a tree, or the tree itself if there is none. A tree may be flagged without
holding an error. -/
def firstError (t : Tree) : Tree :=
  (searchError [t]).getD t

end Tree

end ShapeLint.Java
