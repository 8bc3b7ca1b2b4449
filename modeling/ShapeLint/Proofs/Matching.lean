import ShapeLint.Pattern.Match
import ShapeLint.Proofs.Parts
import ShapeLint.Proofs.Values

/-!
# Matching without a limit

A test of a pattern goes down only as far as there is room, and it fails at a shape that there is no
test for. `Pattern.holds` is a function on patterns and nodes without a limit and without failures.
What is to be said about matches is said about `holds`.

`Tells` compares the two, with one case for each way in which a test ends. A test that answers,
answers whether `holds` does. It needs room for the pattern (`fitsIn`), and where there is, it fails
only where it meets a shape that there is no test for. That is proved once for each way of putting
tests together, and then for all patterns (`test_tells`), whatever room there is.
-/

namespace ShapeLint.Pattern

mutual

/-- Whether there is room to test the pattern. A test does not go down to the mark for any
arguments, so where that stands alone no room is needed for it. -/
def fitsIn (room : Room Descent) (pattern : Pattern) : Bool :=
  match room with
  | .none => false
  | .more inside =>
    match pattern with
    | .wildcard _ | .reference _ _ | .literal _ _ | .anyLiteral _ _ | .null _ | .this _
    | .anyLambda _ | .anyArguments _ | .unknown _ _ => true
    | .field part _ _ | .typeTest part _ _ | .unary _ part _ | .update _ part _ =>
      fitsIn (inside .part) part
    | .binary _ lhs rhs _ => fitsIn (inside .part) lhs && fitsIn (inside .part) rhs
    | .element array index _ => fitsIn (inside .part) array && fitsIn (inside .part) index
    | .method receiver _ args _ =>
      fitsIn (inside .part) receiver && (isAnyList args || fitAll (inside .argument) args)
    | .ownMethod _ args _ | .call _ args _ | .creation _ args _ =>
      isAnyList args || fitAll (inside .argument) args

/-- Whether there is room to test the patterns one by one. -/
def fitAll (room : Room Descent) : List Pattern → Bool
  | [] => true
  | p :: ps => fitsIn room p && fitAll room ps

end

mutual

/-- Whether the node has the shape of the pattern. It follows the test case by case, with the room
and the failures left out. -/
def holds : Pattern → Node → Bool
  | .wildcard _, _ => true
  | .reference name _, n => n.isKindNamed NodeKind.name name
  | .literal c _, n => n.kind == c.type.nodeKind && n.value.same c.value
  | .anyLiteral type _, n => n.kind == type.nodeKind
  | .null _, n => n.kind == NodeKind.null
  | .this _, n => n.kind == NodeKind.this
  | .field receiver name _, n =>
    n.isKindNamed NodeKind.fieldAccess name && (n.child? Role.object).any (holds receiver)
  | .method receiver name args _, n =>
    n.isKindNamed NodeKind.methodCall name && (n.child? Role.object).any (holds receiver)
      && (isAnyList args || holdsAll args (n.childrenIn Role.argument))
  | .ownMethod name args _, n | .call name args _, n =>
    n.isKindNamed NodeKind.methodCall name && (n.child? Role.object).isNone
      && (isAnyList args || holdsAll args (n.childrenIn Role.argument))
  | .creation typeName args _, n =>
    n.isKindNamed NodeKind.creation typeName &&
      (isAnyList args || holdsAll args (n.childrenIn Role.argument))
  | .typeTest target typeName _, n =>
    n.isKindNamed NodeKind.typeTest typeName && (n.child? Role.left).any (holds target)
  | .unary op operand _, n =>
    n.isKindNamed NodeKind.unary op.symbol && (n.child? Role.operand).any (holds operand)
  | .binary op lhs rhs _, n =>
    n.isKindNamed NodeKind.binary op.symbol && (n.child? Role.left).any (holds lhs) &&
      (n.child? Role.right).any (holds rhs)
  | .update op operand _, n =>
    n.isKindNamed op.nodeKind op.symbol && (n.child? Role.operand).any (holds operand)
  | .element array index _, n =>
    n.kind == NodeKind.arrayAccess && (n.child? Role.array).any (holds array) &&
      (n.child? Role.index).any (holds index)
  | .anyLambda _, n => n.kind == NodeKind.lambda
  | .anyArguments _, _ | .unknown _ _, _ => false

/-- Whether there are as many nodes as patterns, and each has the shape of its pattern. -/
def holdsAll : List Pattern → List Node → Bool
  | [], [] => true
  | p :: ps, n :: ns => holds p n && holdsAll ps ns
  | _, _ => false

end

lemma filter_role_of_forall {role : String} {ns : List Node} (h : ∀ n ∈ ns, n.role = some role) :
    ns.filter (·.role == some role) = ns :=
  List.filter_eq_self.mpr fun n hn => beq_iff_eq.mpr (h n hn)

/-- Nodes that all play one role play no other. -/
lemma find?_role_of_forall {role other : String} (hne : role ≠ other) {ns : List Node}
    (h : ∀ n ∈ ns, n.role = some role) : ns.find? (·.role == some other) = none := by
  refine List.find?_eq_none.mpr fun n hn => ?_
  rw [h n hn, beq_iff_eq, Option.some_inj]
  exact hne

/-- A node is named so if its value is the text itself. -/
@[simp] lemma isKindNamed_iff {n : Node} {kind name : String} :
    n.isKindNamed kind name = true ↔ n.kind = kind ∧ n.value = .ofString name := by
  rw [Node.isKindNamed, Bool.and_eq_true, beq_iff_eq, Value.same_ofString_iff]

/-- The role that a node plays does not matter. Only its kind, its value and its children are looked
at. -/
theorem holds_role (p : Pattern) (n : Node) (role : Option String) :
    holds p { n with role := role } = holds p n := by
  cases p <;> rfl

lemma holdsAll_role (ps : List Pattern) (ns : List Node) (role : Option String) :
    holdsAll ps (ns.map fun n => { n with role := role }) = holdsAll ps ns := by
  induction ps generalizing ns with
  | nil => cases ns <;> rfl
  | cons p ps ih =>
    cases ns with
    | nil => rfl
    | cons n ns => rw [List.map_cons, holdsAll, holdsAll, holds_role, ih]

/-! ## What tests come to -/

/-- There is a way to test for every shape in the pattern. A compiled pattern is of this kind. -/
def Known (p : Pattern) : Prop :=
  ∀ name loc, ¬ Expr.Within (.unknown name loc) p

lemma Known.operand {p part : Pattern} (h : Known p) (hpart : part ∈ p.operands) : Known part :=
  fun name loc hwithin => h name loc (.operand hpart hwithin)

lemma Known.argument {p part : Pattern} (h : Known p) (hpart : part ∈ p.arguments) : Known part :=
  fun name loc hwithin => h name loc (.argument hpart hwithin)

lemma Formed.known {p : Pattern} (h : Formed p) : Known p := by
  intro name loc hwithin
  rcases h.within hwithin with hmark | hformed
  · cases hmark
  · exact hformed

/-- How a test ends: it answers, and has descended far enough if the answer is yes; or it would have
to descend further; or it meets a shape that there is no test for, and then the node does not have
the shape of the pattern.

An answer of no does not say that there is room, since the test may have stopped before it had to go
down. -/
inductive Tells (answer : Bool) (fits known : Prop) : Except MatchFailure Bool → Prop where
  | answered : (answer = true → fits) → Tells answer fits known (.ok answer)
  | tooDeep : ¬ fits → Tells answer fits known (.error .tooDeep)
  | untestable {name : String} :
      ¬ known → answer = false → Tells answer fits known (.error (.untestable name))

namespace Tells

variable {a b : Bool} {fits fits' known known' : Prop} {x y : Except MatchFailure Bool}

/-- What counts as room can be said in another way, and more can be known. -/
lemma congr (h : Tells a fits known x) (hfits : fits ↔ fits') (hknown : known' → known) :
    Tells a fits' known' x := by
  cases h with
  | answered h => exact .answered fun ha => hfits.mp (h ha)
  | tooDeep h => exact .tooDeep fun hf => h (hfits.mpr hf)
  | untestable h ha => exact .untestable (fun hk => h (hknown hk)) ha

/-- A test says yes exactly if the answer is yes and there is room. -/
lemma eq_true_iff (h : Tells a fits known x) : x = .ok true ↔ a = true ∧ fits := by
  cases h with
  | answered h =>
    constructor
    · intro heq
      have ha := Except.ok.inj heq
      exact ⟨ha, h ha⟩
    · intro ha
      rw [ha.1]
  | tooDeep h => exact ⟨nofun, fun ha => absurd ha.2 h⟩
  | untestable _ hno =>
    refine ⟨nofun, fun ha => ?_⟩
    rw [ha.1] at hno
    cases hno

/-- With room, a test of a known pattern answers. -/
lemma eq_ok (h : Tells a fits known x) (hfits : fits) (hknown : known) : x = .ok a := by
  cases h with
  | answered => rfl
  | tooDeep h => exact absurd hfits h
  | untestable h => exact absurd hknown h

/-- Without room, a test that would say yes fails. -/
lemma eq_tooDeep (h : Tells true fits known x) (hfits : ¬ fits) : x = .error .tooDeep := by
  cases h with
  | answered h => exact absurd (h rfl) hfits
  | tooDeep => rfl
  | untestable _ hno => cases hno

/-- A part that is not there does not have the shape. -/
lemma part {test : Node → Except MatchFailure Bool} {holds : Node → Bool}
    (h : ∀ n, Tells (holds n) fits known (test n)) (part : Option Node) :
    Tells (part.any holds) fits known (testPart test part) := by
  cases part with
  | none => exact .answered nofun
  | some n => exact h n

/-- Two tests, the second only where the first holds. -/
lemma both (hx : Tells a fits known x) (hy : Tells b fits' known' y) :
    Tells (a && b) (fits ∧ fits') (known ∧ known') (bothHold x fun _ => y) := by
  cases hx with
  | answered hfits =>
    cases a with
    | false => exact .answered nofun
    | true =>
      cases hy with
      | answered hfits' => exact .answered fun hb => ⟨hfits rfl, hfits' hb⟩
      | tooDeep h => exact .tooDeep fun hf => h hf.2
      | untestable h hb => exact .untestable (fun hk => h hk.2) hb
  | tooDeep h => exact .tooDeep fun hf => h hf.1
  | untestable h ha => exact .untestable (fun hk => h hk.1) (by rw [ha, Bool.false_and])

/-- A test behind a condition. -/
lemma guard (h : Tells a fits known x) (c : Bool) :
    Tells (c && a) fits known (if c = true then x else .ok false) := by
  cases c with
  | false => exact .answered nofun
  | true => exact h

/-- Tests of two parts. Neither is made if one of the parts is missing. -/
lemma parts {test test' : Node → Except MatchFailure Bool} {holds holds' : Node → Bool}
    (h : ∀ n, Tells (holds n) fits known (test n))
    (h' : ∀ n, Tells (holds' n) fits' known' (test' n)) (left right : Option Node) :
    Tells (left.any holds && right.any holds') (fits ∧ fits') (known ∧ known')
      (testParts test test' left right) := by
  cases left with
  | none => exact .answered nofun
  | some l =>
    cases right with
    | none =>
      rw [Option.any_none, Bool.and_false]
      exact .answered nofun
    | some r => exact (h l).both (h' r)

end Tells

/-! ## The test -/

/-- As many nodes as patterns are needed. -/
lemma holdsAll_length {ps : List Pattern} {ns : List Node} (h : holdsAll ps ns = true) :
    ps.length = ns.length := by
  induction ps generalizing ns with
  | nil =>
    cases ns with
    | nil => rfl
    | cons n ns => cases h
  | cons p ps ih =>
    cases ns with
    | nil => cases h
    | cons n ns =>
      rw [holdsAll, Bool.and_eq_true] at h
      rw [List.length_cons, List.length_cons, ih h.2]

/-- A test of arguments, unless any will do or there are too many or too few. -/
lemma Tells.arguments {ps : List Pattern} {ns : List Node} {room : Room Descent} {known : Prop}
    {all : List Node → Except MatchFailure Bool}
    (h : ps.length = ns.length → Tells (holdsAll ps ns) (fitAll room ps = true) known (all ns)) :
    Tells (isAnyList ps || holdsAll ps ns) ((isAnyList ps || fitAll room ps) = true) known
      (ifArguments ps ns all) := by
  unfold ifArguments
  split
  case isTrue hany =>
    rw [hany, Bool.true_or]
    exact .answered fun _ => rfl
  case isFalse hany =>
    rw [Bool.eq_false_iff.mpr hany, Bool.false_or, Bool.false_or]
    split
    case isTrue hne =>
      rw [Bool.eq_false_iff.mpr fun hall => hne (holdsAll_length hall)]
      exact .answered nofun
    case isFalse heq => exact h (Decidable.not_not.mp heq)

mutual

/-- The induction is on the pattern, with the lists of arguments beside it; each case puts together
tests of parts in the way that the test does. -/
lemma test_tells : (p : Pattern) → (room : Room Descent) → (n : Node) →
    Tells (holds p n) (fitsIn room p = true) (Known p) (test room p n)
  | p, .none, n => by
    rw [test.eq_def, fitsIn.eq_def]
    exact .tooDeep Bool.false_ne_true
  | .wildcard _, .more _, n | .reference _ _, .more _, n | .literal _ _, .more _, n
  | .anyLiteral _ _, .more _, n | .null _, .more _, n | .this _, .more _, n
  | .anyLambda _, .more _, n | .anyArguments _, .more _, n => by
    rw [test]
    exact .answered fun _ => by rw [fitsIn]
  | .unknown name loc, .more _, n => by
    rw [test]
    exact .untestable (fun hknown => hknown name loc .self) rfl
  | .field receiver name _, .more inside, n => by
    have hpart := Tells.part (test_tells receiver (inside .part)) (n.child? Role.object)
    rw [test, holds, fitsIn]
    exact (hpart.guard _).congr Iff.rfl fun h => h.operand (List.mem_singleton_self _)
  | .method receiver name args _, .more inside, n => by
    -- The arguments are tested only if the receiver holds, so that either of the two may be what
    -- ends the test.
    have hpart := Tells.part (test_tells receiver (inside .part)) (n.child? Role.object)
    have hargs :=
      Tells.arguments (testAll_tells args (inside .argument) (n.childrenIn Role.argument))
    rw [test, holds, fitsIn, Bool.and_assoc]
    exact ((hpart.both hargs).guard _).congr Bool.and_eq_true_iff.symm
      fun h => ⟨h.operand (List.mem_singleton_self _), fun p hp => h.argument hp⟩
  | .ownMethod name args _, .more inside, n | .call name args _, .more inside, n
  | .creation name args _, .more inside, n => by
    have hargs :=
      Tells.arguments (testAll_tells args (inside .argument) (n.childrenIn Role.argument))
    rw [test, holds, fitsIn]
    exact (hargs.guard _).congr Iff.rfl fun h p hp => h.argument hp
  | .typeTest part _ _, .more inside, n => by
    have hpart := Tells.part (test_tells part (inside .part)) (n.child? Role.left)
    rw [test, holds, fitsIn]
    exact (hpart.guard _).congr Iff.rfl fun h => h.operand (List.mem_singleton_self _)
  | .unary _ part _, .more inside, n | .update _ part _, .more inside, n => by
    have hpart := Tells.part (test_tells part (inside .part)) (n.child? Role.operand)
    rw [test, holds, fitsIn]
    exact (hpart.guard _).congr Iff.rfl fun h => h.operand (List.mem_singleton_self _)
  | .binary _ lhs rhs _, .more inside, n => by
    have hparts := Tells.parts (test_tells lhs (inside .part)) (test_tells rhs (inside .part))
      (n.child? Role.left) (n.child? Role.right)
    rw [test, holds, fitsIn, Bool.and_assoc]
    refine (hparts.guard _).congr Bool.and_eq_true_iff.symm fun h => ⟨?_, ?_⟩
    · exact h.operand (List.mem_cons_self ..)
    · exact h.operand (List.mem_cons_of_mem _ (List.mem_singleton_self _))
  | .element array index _, .more inside, n => by
    have hparts := Tells.parts (test_tells array (inside .part)) (test_tells index (inside .part))
      (n.child? Role.array) (n.child? Role.index)
    rw [test, holds, fitsIn, Bool.and_assoc]
    refine (hparts.guard _).congr Bool.and_eq_true_iff.symm fun h => ⟨?_, ?_⟩
    · exact h.operand (List.mem_cons_self ..)
    · exact h.operand (List.mem_cons_of_mem _ (List.mem_singleton_self _))

lemma testAll_tells : (ps : List Pattern) → (room : Room Descent) → (ns : List Node) →
    ps.length = ns.length →
    Tells (holdsAll ps ns) (fitAll room ps = true) (∀ p ∈ ps, Known p) (testAll room ps ns)
  | [], _, [], _ => .answered fun _ => rfl
  | p :: ps, room, n :: ns, hlength => by
    have hfirst := test_tells p room n
    have hrest := testAll_tells ps room ns (Nat.succ.inj hlength)
    rw [testAll, holdsAll, fitAll]
    exact (hfirst.both hrest).congr Bool.and_eq_true_iff.symm List.forall_mem_cons.mp

end

/-- A test holds exactly if the node has the shape of the pattern and there is room for the test. -/
theorem test_eq_true_iff {p : Pattern} {room : Room Descent} {n : Node} :
    test room p n = .ok true ↔ holds p n = true ∧ fitsIn room p = true :=
  (test_tells p room n).eq_true_iff

/-- A test that there is room for answers whether the node has the shape of the pattern. -/
theorem test_eq_holds (p : Pattern) (room : Room Descent) (hp : Formed p)
    (hd : fitsIn room p = true) (n : Node) :
    test room p n = .ok (holds p n) :=
  (test_tells p room n).eq_ok hd hp.known

/-- A test of a node that has the shape of the pattern holds, or there is no room for it. -/
theorem test_of_holds {p : Pattern} {n : Node} (h : holds p n = true) (room : Room Descent) :
    p.test room n = if fitsIn room p then .ok true else .error .tooDeep := by
  have htells := test_tells p room n
  rw [h] at htells
  split
  case isTrue hfits => exact htells.eq_true_iff.mpr ⟨rfl, hfits⟩
  case isFalse hfits => exact htells.eq_tooDeep hfits

end ShapeLint.Pattern
