import ShapeLint.Fault
import ShapeLint.Java.Normal

/-!
# From concrete trees to nodes

`convert` builds the node of a concrete tree from the leaves on. It keeps the nodes it is inside of
on a stack, so that no source is nested too deeply for it. `ofTree` first refuses a tree that holds
an error and reports the first one.
-/

namespace ShapeLint.Java

/-- A concrete node that is being converted: the children that are still to come, and the nodes that
those before them have become, last first. -/
structure Frame where
  tree : Tree
  pending : List Tree
  built : List Node
deriving Inhabited

namespace Frame

/-- The frame at the start of a node. -/
def enter (t : Tree) : Frame :=
  ⟨t, keptChildren t, []⟩

/-- A frame with what a child has become; a child that becomes nothing leaves no trace. -/
def add (f : Frame) : Option Node → Frame
  | some n => { f with built := n :: f.built }
  | none => f

/-- The work that is left on a stack of frames. A child that is entered takes its nodes off the
frame above and makes a frame of its own. -/
def work : List Frame → Nat
  | [] => 0
  | f :: stack => 2 * Tree.sizeList f.pending + 1 + work stack

theorem sizeList_keptChildren (t : Tree) : Tree.sizeList (keptChildren t) + 1 ≤ t.size := by
  rw [Tree.size_eq t, keptChildren]
  split
  · simp only [Tree.sizeList]; omega
  · have h := Tree.sizeList_filter (fun c => c.isNamed && !c.isComment) t.children
    omega

theorem work_add (f : Frame) (n : Option Node) (stack : List Frame) :
    work (f.add n :: stack) = work (f :: stack) := by
  cases n <;> rfl

end Frame

/-- A node with the role of the concrete node it was made from. -/
def inRole (t : Tree) (n : Node) : Node :=
  { n with role := t.field? }

/-- What a stack of frames comes to: the next child of the topmost frame is entered, and a frame
without further children is left with its normal form. The first failure ends it. -/
def convertFrom (source : Source) (f : Frame) (stack : List Frame) :
    Except NormalFailure (Option Node) :=
  match f with
  | ⟨t, child :: pending, built⟩ => convertFrom source (.enter child) (⟨t, pending, built⟩ :: stack)
  | ⟨t, [], built⟩ =>
    match normalNode source t built.reverse with
    | .error e => .error e
    | .ok n =>
      match stack with
      | [] => .ok n
      | outer :: stack => convertFrom source (outer.add (n.map (inRole t))) stack
termination_by Frame.work (f :: stack)
decreasing_by
  · have h := Frame.sizeList_keptChildren child
    simp only [Frame.work, Frame.enter, Tree.sizeList]
    omega
  · rw [Frame.work_add]
    simp only [Frame.work, Tree.sizeList]
    omega

/-- The node of a concrete tree; a tree that becomes nothing is an empty program. The root plays no
role. -/
def convert (source : Source) (t : Tree) : Except NormalFailure Node :=
  match convertFrom source (.enter t) [] with
  | .error e => .error e
  | .ok (some n) => .ok { n with role := none }
  | .ok none => .ok { kind := "program", span := spanOf source t }

/-! ## Errors -/

/-- Why a source cannot be turned into nodes: it is wrong, which is reported by a fault; a numeral
has no value; or a step has no operator. The latter two are not reported, and break the run off. -/
inductive ParseFailure where
  | rejected (fault : Fault)
  | badNumeral (e : Literal.NumeralError)
  | emptyUpdate
deriving Inhabited

/-- How many characters of the text at an error are shown. Only those on its first line are. -/
def snippetWidth : Nat := 40

/-- The message for an error of a concrete tree. -/
def errorMessage (source : Source) (t : Tree) : String :=
  if t.isMissing then "missing " ++ Text.quoted t.type
  else
    let line := (Text.lines (textOf source t)).headD []
    "syntax error near " ++ Text.quoted (String.ofList (line.take snippetWidth))

/-- The fault for an error of a concrete tree. -/
def errorFault (source : Source) (path : String) (t : Tree) : Fault :=
  Fault.of (.script path) (errorMessage source t) ((spanOf source t).inFile path)

/-- What is reported for a tree without a normal form. -/
def NormalFailure.toParseFailure (path : String) : NormalFailure → ParseFailure
  | .badEscape e span => .rejected (Fault.of (.script path) e.message span)
  | .badNumeral e => .badNumeral e
  | .emptyUpdate => .emptyUpdate

/-- The node of a concrete tree that may hold errors. A tree with an error is not converted at
all. -/
def ofTree (source : Source) (path : String) (t : Tree) : Except ParseFailure Node :=
  if t.hasError then .error (.rejected (errorFault source path t.firstError))
  else (convert source t).mapError (·.toParseFailure path)

end ShapeLint.Java
