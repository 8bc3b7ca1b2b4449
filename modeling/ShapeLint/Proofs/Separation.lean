import Mathlib.Data.List.Nodup
import ShapeLint.Proofs.Matching

/-!
# Equal patterns and equal matches

Two compiled patterns are equal, wherever they stand, exactly if they match the same nodes. One
direction is that a test looks at nothing but what equality compares. For the other, each pattern
has a sample: the node that it asks for and nothing more. The sample leaves open what the pattern
leaves open. Where any expression may stand, it has a node of a kind that no other pattern asks for;
where any literal may stand, a literal without a value; and where any arguments may stand, as many
bare nodes as one likes.

A pattern `Covers` another one if it matches the samples of that one, however many arguments they
have. Every pattern covers itself, and two patterns that cover each other are equal: covering goes
down to the parts, and at each node the kinds must be the same.
-/

namespace ShapeLint

/-- The node in a role. -/
def Node.as (n : Node) (role : String) : Node :=
  { n with role := some role }

/-! ## Operators are told apart by their symbols -/

/-- No two prefix operators are written with one symbol. -/
lemma UnaryOperator.symbol_injective {o o' : UnaryOperator}
    (h : o.symbol = o'.symbol) : o = o' := by
  have hmem : ∀ op : UnaryOperator, op ∈ [.plus, .minus, .not] := by
    intro op
    cases op <;> decide
  exact List.inj_on_of_nodup_map (by decide) (hmem o) (hmem o') h

/-- No two binary operators are written with one symbol. -/
lemma BinaryOperator.symbol_injective {o o' : BinaryOperator}
    (h : o.symbol = o'.symbol) : o = o' := by
  have hmem : ∀ op : BinaryOperator,
      op ∈ [.add, .sub, .mul, .div, .rem, .eq, .ne, .ge, .gt, .le, .lt, .shl, .shr, .ushr] := by
    intro op
    cases op <;> decide
  exact List.inj_on_of_nodup_map (by decide) (hmem o) (hmem o') h

/-- Steps in front and behind are written with the same symbols, and are told apart by the kinds of
their nodes. -/
lemma UpdateOperator.eq_of_symbol {o o' : UpdateOperator} (hkind : o.nodeKind = o'.nodeKind)
    (h : o.symbol = o'.symbol) :
    o = o' := by
  have hmem : ∀ op : UpdateOperator,
      op ∈ [⟨true, true⟩, ⟨true, false⟩, ⟨false, true⟩, ⟨false, false⟩] := by
    rintro ⟨_ | _, _ | _⟩ <;> decide
  exact List.inj_on_of_nodup_map (f := fun op => (op.nodeKind, op.symbol)) (by decide)
    (hmem o) (hmem o') (Prod.ext hkind h)

namespace Pattern

open Grammar (Opening)

/-! ## Samples -/

/-- A node of a kind that no pattern asks for. Only a pattern that asks for nothing matches it. -/
def bare : Node := { kind := "" }

/-- The arguments, or so many bare ones if the patterns take any. Of patterns that are fewer, only
the mark for any arguments takes them all. -/
def unlessAny (count : Nat) (ps : List Pattern) (args : List Node) : List Node :=
  if isAnyList ps then List.replicate count (bare.as Role.argument) else args

mutual

/-- A node that has the shape of the pattern and no more, with so many arguments where any may
stand.

The node has just the parts that the pattern has, each in the role in which a test looks it up. -/
def sample (count : Nat) : Pattern → Node
  | .wildcard _ | .anyArguments _ | .unknown _ _ => bare
  | .reference name _ => { kind := NodeKind.name, value := .ofString name }
  | .literal c _ => { kind := c.type.nodeKind, value := c.value }
  | .anyLiteral type _ => { kind := type.nodeKind }
  | .null _ => { kind := NodeKind.null }
  | .this _ => { kind := NodeKind.this }
  | .field receiver name _ =>
    { kind := NodeKind.fieldAccess, value := .ofString name,
      children := [(sample count receiver).as Role.object] }
  | .method receiver name args _ =>
    { kind := NodeKind.methodCall, value := .ofString name
      children := (sample count receiver).as Role.object ::
        unlessAny count args (sampleList count args) }
  | .ownMethod name args _ | .call name args _ =>
    { kind := NodeKind.methodCall, value := .ofString name
      children := unlessAny count args (sampleList count args) }
  | .creation typeName args _ =>
    { kind := NodeKind.creation, value := .ofString typeName
      children := unlessAny count args (sampleList count args) }
  | .typeTest target typeName _ =>
    { kind := NodeKind.typeTest, value := .ofString typeName,
      children := [(sample count target).as Role.left] }
  | .unary op operand _ =>
    { kind := NodeKind.unary, value := .ofString op.symbol,
      children := [(sample count operand).as Role.operand] }
  | .binary op lhs rhs _ =>
    { kind := NodeKind.binary, value := .ofString op.symbol
      children := [(sample count lhs).as Role.left, (sample count rhs).as Role.right] }
  | .update op operand _ =>
    { kind := op.nodeKind, value := .ofString op.symbol,
      children := [(sample count operand).as Role.operand] }
  | .element array index _ =>
    { kind := NodeKind.arrayAccess
      children := [(sample count array).as Role.array, (sample count index).as Role.index] }
  | .anyLambda _ => { kind := NodeKind.lambda }

/-- Arguments that have the shapes of the patterns and no more. -/
def sampleList (count : Nat) : List Pattern → List Node
  | [] => []
  | p :: ps => (sample count p).as Role.argument :: sampleList count ps

end

/-- The pattern matches the samples of the other one, however many arguments these have where any
may stand. -/
def Covers (q p : Pattern) : Prop :=
  ∀ count, holds q (sample count p) = true

/-- The patterns match the samples of the others one by one. -/
def CoversAll (qs ps : List Pattern) : Prop :=
  ∀ count, holdsAll qs (sampleList count ps) = true

/-- The patterns, as a list of arguments, match the samples of the others. -/
def CoversArguments (qs ps : List Pattern) : Prop :=
  ∀ count, (isAnyList qs || holdsAll qs (unlessAny count ps (sampleList count ps))) = true

/-! ## The parts of a sample -/

@[simp] lemma holds_as (p : Pattern) (n : Node) (role : String) : holds p (n.as role) = holds p n :=
  holds_role p n role

lemma sampleList_eq_map (count : Nat) (ps : List Pattern) :
    sampleList count ps = ps.map fun p => (sample count p).as Role.argument := by
  induction ps with
  | nil => rfl
  | cons p ps ih => rw [sampleList, ih, List.map_cons]

/-- All arguments of a sample play the role of an argument, so that none is taken for the
receiver. -/
lemma role_of_mem_arguments {count : Nat} {ps : List Pattern} {n : Node}
    (h : n ∈ unlessAny count ps (sampleList count ps)) : n.role = some Role.argument := by
  unfold unlessAny at h
  split at h
  · obtain rfl := List.eq_of_mem_replicate h
    rfl
  · rw [sampleList_eq_map] at h
    obtain ⟨p, -, rfl⟩ := List.mem_map.mp h
    rfl

@[simp] lemma filter_arguments (count : Nat) (ps : List Pattern) :
    (unlessAny count ps (sampleList count ps)).filter (·.role == some Role.argument) =
      unlessAny count ps (sampleList count ps) :=
  filter_role_of_forall fun _ => role_of_mem_arguments

@[simp] lemma find?_arguments (count : Nat) (ps : List Pattern) :
    (unlessAny count ps (sampleList count ps)).find? (·.role == some Role.object) = none :=
  find?_role_of_forall (by decide) fun _ => role_of_mem_arguments

@[simp] lemma role_as (n : Node) (role : String) : (n.as role).role = some role :=
  rfl

/-- The roles that parts of one node play are different. -/
@[simp] lemma roles_ne :
    Role.object ≠ Role.argument ∧ Role.left ≠ Role.right ∧ Role.array ≠ Role.index := by
  decide

@[simp] lemma ofString_inj {s t : String} : Value.ofString s = .ofString t ↔ s = t :=
  ⟨Value.ofString_injective, congrArg _⟩

/-! ## Covering goes down to the parts -/

section
variable {p q p' q' : Pattern} {ps qs : List Pattern} {a b : String} {x y : Span}

attribute [local simp] Covers sample holds Node.child?

lemma covers_field : Covers (.field q b y) (.field p a x) ↔ a = b ∧ Covers q p := by
  simp [forall_and]

/-- A call covers one of the same name, if its receiver covers the receiver and its arguments the
arguments. The others below say the same of their parts. -/
lemma covers_method :
    Covers (.method q b qs y) (.method p a ps x) ↔ a = b ∧ Covers q p ∧ CoversArguments qs ps := by
  simp [CoversArguments, Node.childrenIn, forall_and, and_assoc]

lemma covers_call : Covers (.call b qs y) (.call a ps x) ↔ a = b ∧ CoversArguments qs ps := by
  simp [CoversArguments, Node.childrenIn, forall_and]

lemma covers_creation :
    Covers (.creation b qs y) (.creation a ps x) ↔ a = b ∧ CoversArguments qs ps := by
  simp [CoversArguments, Node.childrenIn, forall_and]

lemma covers_typeTest : Covers (.typeTest q b y) (.typeTest p a x) ↔ a = b ∧ Covers q p := by
  simp [forall_and]

lemma covers_unary {o o' : UnaryOperator} :
    Covers (.unary o' q y) (.unary o p x) ↔ o.symbol = o'.symbol ∧ Covers q p := by
  simp [forall_and]

lemma covers_binary {o o' : BinaryOperator} :
    Covers (.binary o' q q' y) (.binary o p p' x) ↔
      o.symbol = o'.symbol ∧ Covers q p ∧ Covers q' p' := by
  simp [forall_and, and_assoc]

lemma covers_update {o o' : UpdateOperator} :
    Covers (.update o' q y) (.update o p x) ↔
      (o.nodeKind = o'.nodeKind ∧ o.symbol = o'.symbol) ∧ Covers q p := by
  simp [forall_and]

lemma covers_element : Covers (.element q q' y) (.element p p' x) ↔ Covers q p ∧ Covers q' p' := by
  simp [forall_and]

end

/-- A call without a receiver is told from one with a receiver. -/
lemma not_covers_receiver {p : Pattern} {ps qs : List Pattern} {a b : String} {x y : Span}
    {count : Nat} :
    ¬ holds (.call b qs y) (sample count (.method p a ps x)) = true := by
  simp [sample, holds, Node.child?]

/-! ## Patterns that cover each other ask for one kind -/

/-- What a pattern asks of the kind of a node. There is one head for each kind, whatever its name;
calls with and without a receiver share one, and so do literals of one type, with or without a
value. -/
inductive Head where
  | anything
  | name
  | literal (type : LiteralType)
  | null
  | this
  | field
  | call
  | creation
  | typeTest
  | unary
  | binary
  | update (inFront : Bool)
  | element
  | lambda
deriving DecidableEq

/-- The kind that is asked for; where any may stand, that of a bare node, which differs from all
others. -/
def Head.kind : Head → String
  | .anything => ""
  | .name => NodeKind.name
  | .literal type => type.nodeKind
  | .null => NodeKind.null
  | .this => NodeKind.this
  | .field => NodeKind.fieldAccess
  | .call => NodeKind.methodCall
  | .creation => NodeKind.creation
  | .typeTest => NodeKind.typeTest
  | .unary => NodeKind.unary
  | .binary => NodeKind.binary
  | .update inFront => UpdateOperator.nodeKind ⟨inFront, true⟩
  | .element => NodeKind.arrayAccess
  | .lambda => NodeKind.lambda

/-- The head of a pattern. -/
def head : Pattern → Head
  | .wildcard _ | .anyArguments _ | .unknown _ _ => .anything
  | .reference _ _ => .name
  | .literal c _ => .literal c.type
  | .anyLiteral type _ => .literal type
  | .null _ => .null
  | .this _ => .this
  | .field _ _ _ => .field
  | .method _ _ _ _ | .ownMethod _ _ _ | .call _ _ _ => .call
  | .creation _ _ _ => .creation
  | .typeTest _ _ _ => .typeTest
  | .unary _ _ _ => .unary
  | .binary _ _ _ _ => .binary
  | .update op _ _ => .update op.inFront
  | .element _ _ _ => .element
  | .anyLambda _ => .lambda

/-- All heads, to decide that their kinds differ. -/
def Head.all : List Head :=
  [.anything, .name, .literal .int, .literal .double, .literal .string, .literal .boolean, .null,
    .this, .field, .call, .creation, .typeTest, .unary, .binary, .update true, .update false,
    .element, .lambda]

lemma Head.mem_all (h : Head) : h ∈ Head.all := by
  rcases h with _ | _ | ⟨_ | _ | _ | _⟩ | _ | _ | _ | _ | _ | _ | _ | _ | ⟨_ | _⟩ | _ | _ <;> decide

lemma Head.kind_injective {h h' : Head} (heq : h.kind = h'.kind) : h = h' :=
  List.inj_on_of_nodup_map (l := Head.all) (by decide) h.mem_all h'.mem_all heq

lemma sample_kind (count : Nat) (p : Pattern) : (sample count p).kind = p.head.kind := by
  cases p <;> rfl

/-- A node that a pattern matches has the kind that the pattern asks for. -/
lemma kind_of_holds {q : Pattern} {n : Node} (h : holds q n = true) (hq : q.head ≠ .anything) :
    n.kind = q.head.kind := by
  cases q with
  | wildcard | anyArguments | unknown => exact absurd rfl hq
  | anyLiteral | null | this | anyLambda => exact beq_iff_eq.mp h
  | reference => exact (isKindNamed_iff.mp h).1
  | literal => exact beq_iff_eq.mp (Bool.and_eq_true_iff.mp h).1
  | field | typeTest | unary | update | creation =>
    exact (isKindNamed_iff.mp (Bool.and_eq_true_iff.mp h).1).1
  | method | ownMethod | call | binary =>
    have hfront := (Bool.and_eq_true_iff.mp h).1
    exact (isKindNamed_iff.mp (Bool.and_eq_true_iff.mp hfront).1).1
  | element =>
    have hfront := (Bool.and_eq_true_iff.mp h).1
    exact beq_iff_eq.mp (Bool.and_eq_true_iff.mp hfront).1

/-- Patterns that cover each other have one head. If only one of them asks for nothing, the sample
of that one is a bare node, and the other does not match it. -/
lemma head_eq_of_covers {p q : Pattern} (h : Covers q p) (h' : Covers p q) : p.head = q.head := by
  by_cases hq : q.head = .anything
  · by_cases hp : p.head = .anything
    · rw [hp, hq]
    · exact Head.kind_injective ((kind_of_holds (h' 0) hp).symm.trans (sample_kind 0 q))
  · exact Head.kind_injective ((sample_kind 0 p).symm.trans (kind_of_holds (h 0) hq))

/-! ## Patterns that cover each other are equal -/

/-- Arguments among which no mark stands alone are all patterns of expressions. -/
lemma formed_of_unmixed {ps : List Pattern} (hf : Expr.FormedArguments Constant.Formed Unmixed ps)
    (hu : Unmixed ps) (hany : isAnyList ps = false) : ∀ p ∈ ps, Formed p := by
  intro p hp
  rcases (Expr.formedArguments_iff _ _).mp hf p hp with hmark | hformed
  · rw [hu.eq_singleton hp hmark] at hany
    cases p with
    | anyArguments => cases hany
    | _ => cases hmark
  · exact hformed

/-- Only the mark for any arguments matches any number of them. -/
lemma coversArguments_of_any {ps qs : List Pattern} (hp : isAnyList ps = true)
    (h : CoversArguments qs ps) :
    isAnyList qs = true := by
  have hmany := h (qs.length + 1)
  rw [Bool.or_eq_true] at hmany
  rcases hmany with hany | hall
  · exact hany
  · -- There are samples with more arguments than there are patterns.
    have hlength := holdsAll_length hall
    rw [unlessAny, if_pos hp, List.length_replicate] at hlength
    omega

/-- Without the mark, arguments are covered one by one. -/
lemma coversAll_of_arguments {ps qs : List Pattern} (hp : isAnyList ps = false)
    (hq : isAnyList qs = false) (h : CoversArguments qs ps) : CoversAll qs ps := by
  intro count
  have hcount := h count
  rwa [hq, Bool.false_or, unlessAny, hp, if_neg Bool.false_ne_true] at hcount

lemma sameList_of_any {ps qs : List Pattern} (hp : isAnyList ps = true) (hq : isAnyList qs = true) :
    sameList ps qs = true := by
  unfold isAnyList at hp hq
  split at hp
  · split at hq
    · rfl
    · cases hq
  · cases hp

/-- Lists of arguments that cover each other take any arguments both, or cover each other one by
one. What follows in the second case is a premise here: it is the induction hypothesis where this is
used. -/
lemma sameList_of_coversArguments {ps qs : List Pattern}
    (hp : Unmixed ps ∧ Expr.FormedArguments Constant.Formed Unmixed ps)
    (hq : Unmixed qs ∧ Expr.FormedArguments Constant.Formed Unmixed qs)
    (h : CoversArguments qs ps) (h' : CoversArguments ps qs)
    (hall : (∀ p ∈ ps, Formed p) → (∀ q ∈ qs, Formed q) →
      CoversAll qs ps → CoversAll ps qs → sameList ps qs = true) :
    sameList ps qs = true := by
  cases hps : isAnyList ps with
  | true => exact sameList_of_any hps (coversArguments_of_any hps h)
  | false =>
    cases hqs : isAnyList qs with
    | true =>
      rw [coversArguments_of_any hqs h'] at hps
      cases hps
    | false =>
      exact hall (formed_of_unmixed hp.2 hp.1 hps) (formed_of_unmixed hq.2 hq.1 hqs)
        (coversAll_of_arguments hps hqs h) (coversAll_of_arguments hqs hps h')

lemma coversAll_cons {p q : Pattern} {ps qs : List Pattern} :
    CoversAll (q :: qs) (p :: ps) ↔ Covers q p ∧ CoversAll qs ps := by
  simp [CoversAll, Covers, sampleList, holdsAll, forall_and]

mutual

/-- Patterns that match the samples of each other are equal. The induction is on the first pattern;
the second one has the same head, and the two lemmas on covering for that head lead to the parts. -/
lemma same_of_covers :
    (p q : Pattern) → Formed p → Formed q → Covers q p → Covers p q → same p q = true
  | .wildcard _, q, _, hq, h, h' => by
    have hhead := head_eq_of_covers h h'
    cases q with
    | wildcard => rfl
    | anyArguments | unknown => cases hq
    | _ => cases hhead
  | .reference a _, q, _, _, h, h' => by
    have hhead := head_eq_of_covers h h'
    cases q with
    | reference b _ =>
      have hname := (isKindNamed_iff.mp (h 0)).2
      exact beq_iff_eq.mpr (Value.ofString_injective hname)
    | _ => cases hhead
  | .literal c _, q, hp, _, h, h' => by
    have hhead := head_eq_of_covers h h'
    cases q with
    | literal d _ =>
      have hvalue := (Bool.and_eq_true_iff.mp (h 0)).2
      exact Bool.and_eq_true_iff.mpr ⟨beq_iff_eq.mpr (Head.literal.inj hhead), hvalue⟩
    | anyLiteral type _ =>
      -- The sample of any literal has no value.
      exact absurd (Value.eq_none_of_same (Bool.and_eq_true_iff.mp (h' 0)).2) hp.ne_none
    | _ => cases hhead
  | .anyLiteral type _, q, _, hq, h, h' => by
    have hhead := head_eq_of_covers h h'
    cases q with
    | literal d _ =>
      exact absurd (Value.eq_none_of_same (Bool.and_eq_true_iff.mp (h 0)).2) hq.ne_none
    | anyLiteral type' _ => exact beq_iff_eq.mpr (Head.literal.inj hhead)
    | _ => cases hhead
  | .null _, q, _, _, h, h' => by
    have hhead := head_eq_of_covers h h'
    cases q with
    | null => rfl
    | _ => cases hhead
  | .this _, q, _, _, h, h' => by
    have hhead := head_eq_of_covers h h'
    cases q with
    | this => rfl
    | _ => cases hhead
  | .anyLambda _, q, _, _, h, h' => by
    have hhead := head_eq_of_covers h h'
    cases q with
    | anyLambda => rfl
    | _ => cases hhead
  | .field p a _, q, hp, hq, h, h' => by
    have hhead := head_eq_of_covers h h'
    cases q with
    | field q b _ =>
      obtain ⟨rfl, hpart⟩ := covers_field.mp h
      have hsame := same_of_covers p q hp.1 hq.1 hpart (covers_field.mp h').2
      rw [same, hsame, beq_self_eq_true, Bool.true_and]
    | _ => cases hhead
  | .method p a ps _, q, hp, hq, h, h' => by
    have hhead := head_eq_of_covers h h'
    cases q with
    | method q b qs _ =>
      obtain ⟨rfl, hpart, hargs⟩ := covers_method.mp h
      obtain ⟨-, hpart', hargs'⟩ := covers_method.mp h'
      have hsame := same_of_covers p q hp.1 hq.1 hpart hpart'
      have hall := sameList_of_coversArguments hp.2.2 hq.2.2 hargs hargs' (sameList_of_covers ps qs)
      rw [same, hsame, hall, beq_self_eq_true, Bool.true_and, Bool.true_and]
    | ownMethod => cases hq
    | call b qs _ => exact absurd (h 0) not_covers_receiver
    | _ => cases hhead
  | .call a ps _, q, hp, hq, h, h' => by
    have hhead := head_eq_of_covers h h'
    cases q with
    | call b qs _ =>
      obtain ⟨rfl, hargs⟩ := covers_call.mp h
      have hall :=
        sameList_of_coversArguments hp.2 hq.2 hargs (covers_call.mp h').2 (sameList_of_covers ps qs)
      rw [same, hall, beq_self_eq_true, Bool.true_and]
    | ownMethod => cases hq
    | method q b qs _ => exact absurd (h' 0) not_covers_receiver
    | _ => cases hhead
  | .creation a ps _, q, hp, hq, h, h' => by
    have hhead := head_eq_of_covers h h'
    cases q with
    | creation b qs _ =>
      obtain ⟨rfl, hargs⟩ := covers_creation.mp h
      have hall := sameList_of_coversArguments hp.2 hq.2 hargs (covers_creation.mp h').2
        (sameList_of_covers ps qs)
      rw [same, hall, beq_self_eq_true, Bool.true_and]
    | _ => cases hhead
  | .typeTest p a _, q, hp, hq, h, h' => by
    have hhead := head_eq_of_covers h h'
    cases q with
    | typeTest q b _ =>
      obtain ⟨rfl, hpart⟩ := covers_typeTest.mp h
      have hsame := same_of_covers p q hp.1 hq.1 hpart (covers_typeTest.mp h').2
      rw [same, hsame, beq_self_eq_true, Bool.true_and]
    | _ => cases hhead
  | .unary o p _, q, hp, hq, h, h' => by
    have hhead := head_eq_of_covers h h'
    cases q with
    | unary o' q _ =>
      obtain ⟨hsymbol, hpart⟩ := covers_unary.mp h
      obtain rfl := UnaryOperator.symbol_injective hsymbol
      have hsame := same_of_covers p q hp hq hpart (covers_unary.mp h').2
      rw [same, hsame, beq_self_eq_true, Bool.true_and]
    | _ => cases hhead
  | .binary o p p' _, q, hp, hq, h, h' => by
    have hhead := head_eq_of_covers h h'
    cases q with
    | binary o' q q' _ =>
      obtain ⟨hsymbol, hleft, hright⟩ := covers_binary.mp h
      obtain ⟨-, hleft', hright'⟩ := covers_binary.mp h'
      obtain rfl := BinaryOperator.symbol_injective hsymbol
      have hsame := same_of_covers p q hp.1 hq.1 hleft hleft'
      have hsame' := same_of_covers p' q' hp.2 hq.2 hright hright'
      rw [same, hsame, hsame', beq_self_eq_true, Bool.true_and, Bool.true_and]
    | _ => cases hhead
  | .update o p _, q, hp, hq, h, h' => by
    have hhead := head_eq_of_covers h h'
    cases q with
    | update o' q _ =>
      obtain ⟨⟨hkind, hsymbol⟩, hpart⟩ := covers_update.mp h
      obtain rfl := UpdateOperator.eq_of_symbol hkind hsymbol
      have hsame := same_of_covers p q hp hq hpart (covers_update.mp h').2
      rw [same, hsame, beq_self_eq_true, Bool.true_and]
    | _ => cases hhead
  | .element p p' _, q, hp, hq, h, h' => by
    have hhead := head_eq_of_covers h h'
    cases q with
    | element q q' _ =>
      obtain ⟨harray, hindex⟩ := covers_element.mp h
      obtain ⟨harray', hindex'⟩ := covers_element.mp h'
      have hsame := same_of_covers p q hp.1 hq.1 harray harray'
      have hsame' := same_of_covers p' q' hp.2 hq.2 hindex hindex'
      rw [same, hsame, hsame', Bool.true_and]
    | _ => cases hhead

lemma sameList_of_covers : (ps qs : List Pattern) → (∀ p ∈ ps, Formed p) → (∀ q ∈ qs, Formed q) →
    CoversAll qs ps → CoversAll ps qs → sameList ps qs = true
  | [], [], _, _, _, _ => rfl
  | [], _ :: _, _, _, h, _ => nomatch h 0
  | _ :: _, [], _, _, h, _ => nomatch h 0
  | p :: ps, q :: qs, hp, hq, h, h' => by
    obtain ⟨hfirst, hrest⟩ := coversAll_cons.mp h
    obtain ⟨hfirst', hrest'⟩ := coversAll_cons.mp h'
    have hsame := same_of_covers p q (hp p (List.mem_cons_self ..))
      (hq q (List.mem_cons_self ..)) hfirst hfirst'
    have hall := sameList_of_covers ps qs (fun r hr => hp r (List.mem_cons_of_mem p hr))
      (fun r hr => hq r (List.mem_cons_of_mem q hr)) hrest hrest'
    rw [sameList, hsame, hall, Bool.true_and]

end

/-! ## Every pattern covers itself -/

lemma coversArguments_self {ps : List Pattern}
    (hp : Unmixed ps ∧ Expr.FormedArguments Constant.Formed Unmixed ps)
    (hall : (∀ p ∈ ps, Formed p) → CoversAll ps ps) : CoversArguments ps ps := by
  intro count
  cases hps : isAnyList ps with
  | true => rw [Bool.true_or]
  | false =>
    rw [Bool.false_or, unlessAny, hps, if_neg Bool.false_ne_true]
    exact hall (formed_of_unmixed hp.2 hp.1 hps) count

mutual

/-- Every pattern matches its samples. -/
lemma covers_self : (p : Pattern) → Formed p → Covers p p
  | .wildcard _, _ => fun _ => rfl
  | .reference _ _, _ => fun _ => isKindNamed_iff.mpr ⟨rfl, rfl⟩
  | .literal _ _, hp => fun _ => Bool.and_eq_true_iff.mpr ⟨beq_self_eq_true _, hp.same_self⟩
  | .anyLiteral _ _, _ | .null _, _ | .this _, _ | .anyLambda _, _ => fun _ => beq_self_eq_true _
  | .field p _ _, hp => covers_field.mpr ⟨rfl, covers_self p hp.1⟩
  | .method p _ ps _, hp =>
    covers_method.mpr ⟨rfl, covers_self p hp.1, coversArguments_self hp.2.2 (coversAll_self ps)⟩
  | .call _ ps _, hp => covers_call.mpr ⟨rfl, coversArguments_self hp.2 (coversAll_self ps)⟩
  | .creation _ ps _, hp => covers_creation.mpr ⟨rfl, coversArguments_self hp.2 (coversAll_self ps)⟩
  | .typeTest p _ _, hp => covers_typeTest.mpr ⟨rfl, covers_self p hp.1⟩
  | .unary _ p _, hp => covers_unary.mpr ⟨rfl, covers_self p hp⟩
  | .binary _ p p' _, hp => covers_binary.mpr ⟨rfl, covers_self p hp.1, covers_self p' hp.2⟩
  | .update _ p _, hp => covers_update.mpr ⟨⟨rfl, rfl⟩, covers_self p hp⟩
  | .element p p' _, hp => covers_element.mpr ⟨covers_self p hp.1, covers_self p' hp.2⟩

lemma coversAll_self : (ps : List Pattern) → (∀ p ∈ ps, Formed p) → CoversAll ps ps
  | [], _ => fun _ => rfl
  | p :: ps, hp => coversAll_cons.mpr ⟨covers_self p (hp p (List.mem_cons_self ..)),
      coversAll_self ps fun q hq => hp q (List.mem_cons_of_mem p hq)⟩

end

/-! ## Equal patterns match the same nodes -/

lemma isAnyArguments_congr {p q : Pattern} (h : same p q = true) :
    p.isAnyArguments = q.isAnyArguments := by
  cases q with
  | anyArguments =>
    cases p with
    | anyArguments => rfl
    | _ => cases h
  | _ =>
    cases p with
    | anyArguments => cases h
    | _ => rfl

lemma isAnyList_cons (p : Pattern) (ps : List Pattern) :
    isAnyList (p :: ps) = (p.isAnyArguments && ps.isEmpty) := by
  cases ps with
  | nil => cases p <;> rfl
  | cons q qs => cases p <;> rfl

/-- Equal lists are both the mark for any arguments, or neither is. -/
lemma isAnyList_congr {ps qs : List Pattern} (h : sameList ps qs = true) :
    isAnyList ps = isAnyList qs := by
  cases ps with
  | nil =>
    cases qs with
    | nil => rfl
    | cons q qs => cases h
  | cons p ps =>
    cases qs with
    | nil => cases h
    | cons q qs =>
      rw [sameList, Bool.and_eq_true] at h
      -- Equal lists are equally long, so both marks stand alone or neither does.
      have hempty : ps.isEmpty = qs.isEmpty := by
        cases ps <;> cases qs
        · rfl
        · cases h.2
        · cases h.2
        · rfl
      rw [isAnyList_cons, isAnyList_cons, isAnyArguments_congr h.1, hempty]

mutual

/-- Equal patterns match the same nodes: what a test looks at is what equality compares, and never a
place in the text. -/
lemma holds_congr : (p q : Pattern) → same p q = true → holds p = holds q
  | .wildcard _, q, h => by
    cases q with
    | wildcard => rfl
    | _ => cases h
  | .reference a _, q, h => by
    cases q with
    | reference b _ =>
      obtain rfl := beq_iff_eq.mp h
      rfl
    | _ => cases h
  -- Equal constants need not be identical, but the same values are equal to both.
  | .literal c _, q, h => by
    cases q with
    | literal d _ =>
      obtain ⟨htype, hvalue⟩ := Constant.same_congr h
      funext n
      rw [holds, holds, htype, hvalue]
    | _ => cases h
  | .anyLiteral a _, q, h => by
    cases q with
    | anyLiteral b _ =>
      obtain rfl := beq_iff_eq.mp h
      rfl
    | _ => cases h
  | .null _, q, h => by
    cases q with
    | null => rfl
    | _ => cases h
  | .this _, q, h => by
    cases q with
    | this => rfl
    | _ => cases h
  | .anyLambda _, q, h => by
    cases q with
    | anyLambda => rfl
    | _ => cases h
  | .anyArguments _, q, h => by
    cases q with
    | anyArguments => rfl
    | _ => cases h
  | .unknown a _, q, h => by
    cases q with
    | unknown b _ => rfl
    | _ => cases h
  | .field p a _, q, h => by
    cases q with
    | field q b _ =>
      rw [same, Bool.and_eq_true, beq_iff_eq] at h
      funext n
      rw [holds, holds, holds_congr p q h.1, h.2]
    | _ => cases h
  | .method p a ps _, q, h => by
    cases q with
    | method q b qs _ =>
      rw [same, Bool.and_eq_true, Bool.and_eq_true, beq_iff_eq] at h
      funext n
      rw [holds, holds, holds_congr p q h.1.1, h.1.2, isAnyList_congr h.2, holdsAll_congr ps qs h.2]
    | _ => cases h
  | .ownMethod a ps _, q, h => by
    cases q with
    | ownMethod b qs _ =>
      rw [same, Bool.and_eq_true, beq_iff_eq] at h
      funext n
      rw [holds, holds, h.1, isAnyList_congr h.2, holdsAll_congr ps qs h.2]
    | _ => cases h
  | .call a ps _, q, h => by
    cases q with
    | call b qs _ =>
      rw [same, Bool.and_eq_true, beq_iff_eq] at h
      funext n
      rw [holds, holds, h.1, isAnyList_congr h.2, holdsAll_congr ps qs h.2]
    | _ => cases h
  | .creation a ps _, q, h => by
    cases q with
    | creation b qs _ =>
      rw [same, Bool.and_eq_true, beq_iff_eq] at h
      funext n
      rw [holds, holds, h.1, isAnyList_congr h.2, holdsAll_congr ps qs h.2]
    | _ => cases h
  | .typeTest p a _, q, h => by
    cases q with
    | typeTest q b _ =>
      rw [same, Bool.and_eq_true, beq_iff_eq] at h
      funext n
      rw [holds, holds, holds_congr p q h.1, h.2]
    | _ => cases h
  | .unary o p _, q, h => by
    cases q with
    | unary o' q _ =>
      rw [same, Bool.and_eq_true, beq_iff_eq] at h
      funext n
      rw [holds, holds, holds_congr p q h.2, h.1]
    | _ => cases h
  | .binary o p p' _, q, h => by
    cases q with
    | binary o' q q' _ =>
      rw [same, Bool.and_eq_true, Bool.and_eq_true, beq_iff_eq] at h
      funext n
      rw [holds, holds, holds_congr p q h.1.2, holds_congr p' q' h.2, h.1.1]
    | _ => cases h
  | .update o p _, q, h => by
    cases q with
    | update o' q _ =>
      rw [same, Bool.and_eq_true, beq_iff_eq] at h
      funext n
      rw [holds, holds, holds_congr p q h.2, h.1]
    | _ => cases h
  | .element p p' _, q, h => by
    cases q with
    | element q q' _ =>
      rw [same, Bool.and_eq_true] at h
      funext n
      rw [holds, holds, holds_congr p q h.1, holds_congr p' q' h.2]
    | _ => cases h

lemma holdsAll_congr : (ps qs : List Pattern) → sameList ps qs = true → holdsAll ps = holdsAll qs
  | [], [], _ => rfl
  | [], _ :: _, h | _ :: _, [], h => nomatch h
  | p :: ps, q :: qs, h => by
    rw [sameList, Bool.and_eq_true] at h
    funext ns
    cases ns with
    | nil => rfl
    | cons n ns => rw [holdsAll, holdsAll, holds_congr p q h.1, holdsAll_congr ps qs h.2]

end

/-! ## Equality of patterns is equality of matches -/

/-- Two compiled patterns that there is room to test are equal, wherever they stand, exactly if they
match the same nodes; and each of them can be tested on every node and matches one.

That the texts compile is used only to know that the patterns are well formed; the rooms in which
they were read need not be the same. -/
theorem same_iff_test_eq {r r' : Room Opening} {s t : String} {k l : Kind}
    (hk : compileIn r s = .ok k) (hl : compileIn r' t = .ok l) {room : Room Descent}
    (hfits : fitsIn room k.expression = true) (hfits' : fitsIn room l.expression = true) :
    (k.expression.same l.expression = true ↔
      ∀ n, k.expression.test room n = l.expression.test room n) ∧
      (∀ n, ∃ b, k.expression.test room n = .ok b) ∧ ∃ n, k.expression.test room n = .ok true := by
  have hp := formed_of_compileIn hk
  have hq := formed_of_compileIn hl
  have htest := test_eq_holds k.expression room hp hfits
  have htest' := test_eq_holds l.expression room hq hfits'
  refine ⟨⟨fun hsame n => ?_, fun heq => ?_⟩, fun n => ⟨_, htest n⟩, sample 0 k.expression, ?_⟩
  · rw [htest, htest', holds_congr _ _ hsame]
  · have hholds : ∀ n, holds k.expression n = holds l.expression n := by
      intro n
      have hn := heq n
      rw [htest, htest'] at hn
      exact Except.ok.inj hn
    -- Each pattern matches its own samples, so the other one, which matches the same nodes, does.
    refine same_of_covers _ _ hp hq (fun count => ?_) (fun count => ?_)
    · rw [← hholds, covers_self _ hp]
    · rw [hholds, covers_self _ hq]
  · rw [htest, covers_self _ hp]

/-- The theorem at two patterns that differ only in what they take as arguments. -/
theorem same_iff_test_eq_send :
    ∃ k l, compile "queue.send(...)" = .ok k ∧ compile "queue.send(_, 1.5)" = .ok l ∧
    fitsIn testRoom k.expression = true ∧ fitsIn testRoom l.expression = true ∧
    (k.expression.same l.expression = true ↔
      ∀ n, k.expression.test testRoom n = l.expression.test testRoom n) ∧
      (∀ n, ∃ b, k.expression.test testRoom n = .ok b) ∧
      ∃ n, k.expression.test testRoom n = .ok true := by
  obtain ⟨k, hk, hfits⟩ := exists_of_any_toOption
    (show (compile "queue.send(...)").toOption.any (fun k => fitsIn testRoom k.expression) =
      true by decide +kernel)
  obtain ⟨l, hl, hfits'⟩ := exists_of_any_toOption
    (show (compile "queue.send(_, 1.5)").toOption.any (fun l => fitsIn testRoom l.expression) =
      true by decide +kernel)
  exact ⟨k, l, hk, hl, hfits, hfits', same_iff_test_eq hk hl hfits hfits'⟩

end Pattern

end ShapeLint
