import ShapeLint.Proofs.Layout

/-!
# Names that declare

A name of a source is used as a value, or it declares something or names what is declared. The nodes
of the two differ in kind, and a pattern that is a name matches the former only. Whether a name
declares is not seen at the name: it depends on the field it fills in the node around it and on the
type of that node, and it is decided when that node is made.

`nameLeaves` says for a concrete tree which of its names are kept, from left to right, and in what
position each of them stands. `nameNodes` lists the names of a tree of nodes. For a tree of the
grammar's shapes the one list is made of the other (`Tree.Shaped.namesKept`, by recursion on the
tree), so that every name is found in the nodes once, where it was, and of the kind of its position.
One position is missed: an import whose path is a single name.
-/

namespace ShapeLint.Java

variable {source : Source}

/-! ## Names in nodes -/

/-- A name in a tree of nodes: whether it is used or declares, the name itself, and where it
stands. -/
structure NameNode where
  kind : String
  value : Value
  span : Span
deriving DecidableEq

/-- Whether nodes of a kind are names. -/
def isNameKind (kind : String) : Bool :=
  kind == NodeKind.name || kind == NodeKind.declaredName

mutual

/-- The names in a tree of nodes, from left to right. -/
def nameNodes : Node → List NameNode
  | ⟨kind, value, _, children, span⟩ =>
    (if isNameKind kind then [⟨kind, value, span⟩] else []) ++ nameNodesList children

/-- The names in several trees of nodes. -/
def nameNodesList : List Node → List NameNode
  | [] => []
  | n :: ns => nameNodes n ++ nameNodesList ns

end

lemma nameNodesList_eq_flatMap (ns : List Node) : nameNodesList ns = ns.flatMap nameNodes := by
  induction ns with
  | nil => rfl
  | cons n ns ih => rw [nameNodesList, ih, List.flatMap_cons]

/-- The names in a node that is none itself are those in its children. -/
lemma nameNodes_eq_flatMap {n : Node} (h : isNameKind n.kind = false) :
    nameNodes n = n.children.flatMap nameNodes := by
  obtain ⟨kind, value, role, children, span⟩ := n
  rw [nameNodes, if_neg (by simp [h]), List.nil_append, nameNodesList_eq_flatMap]

/-- The role of a node does not show in its names. -/
lemma nameNodes_withRole (n : Node) (role : Option String) :
    nameNodes { n with role } = nameNodes n := by
  obtain ⟨kind, value, oldRole, children, span⟩ := n
  rfl

/-! ## Names in concrete trees -/

/-- Where a name stands in a concrete tree: it declares something or names what is declared, it is
the whole path of an import, or it stands anywhere else. -/
inductive Position where
  | declared
  | imported
  | other
deriving DecidableEq

/-- A name of a concrete tree and its position. -/
structure NameLeaf where
  tree : Tree
  position : Position

/-- The position in which a child stands that fills a field of a node of a type, where nodes of the
type have no rule of their own. Some types make names of all their children declare, and some fields
do so in whatever node they are. -/
def plainPosition (type : String) (field? : Option String) : Position :=
  if type ∈ ["scoped_identifier", "inferred_parameters", "labeled_statement", "break_statement",
    "continue_statement"] then
    .declared
  else if field? = some "name" ∨ field? = some "parameters" then .declared
  else if type = "import_declaration" then .imported
  else .other

/-- The position in which a child stands that fills a field of a node of a type, before two colons
or behind them; none if the node keeps nothing of it. This is the table of the types that have a
rule of their own, and agrees with the conversion by `childNames_normalNode`. -/
def childPosition? (type : String) (field? : Option String) (behindColons : Bool) :
    Option Position :=
  match type with
  | "decimal_integer_literal" | "hex_integer_literal" | "octal_integer_literal"
  | "binary_integer_literal" | "decimal_floating_point_literal" | "hex_floating_point_literal"
  | "string_literal" | "character_literal" | "true" | "false" | "null_literal" => none
  | "method_invocation" =>
    if field? = some "object" ∨ field? = some "arguments" then some .other else none
  | "field_access" => if field? = some "object" then some .other else none
  | "object_creation_expression" =>
    if field? = some "type" ∨ field? = some "type_arguments" then none else some .other
  | "instanceof_expression" => if field? = some "left" then some .other else none
  | "unary_expression" | "binary_expression" | "update_expression" => some .other
  | "method_reference" => if behindColons then some .declared else some .other
  | _ => some (plainPosition type field?)

mutual

/-- The names of a concrete tree that are kept, from left to right, if the tree stands in a position
itself. Parentheses pass their own position on to what they enclose. -/
def nameLeaves (position : Position) : Tree → List NameLeaf
  | ⟨type, field?, isNamed, isMissing, isFlagged, start, stop, children⟩ =>
    if type = "identifier"
      then [⟨⟨type, field?, isNamed, isMissing, isFlagged, start, stop, children⟩, position⟩]
    else if type = "parenthesized_expression"
      then nameLeavesIn (fun _ _ => some position) false children
    else nameLeavesIn (childPosition? type) false children

/-- The names of children that are kept, if it is known where they stand. -/
def nameLeavesIn (position? : Option String → Bool → Option Position) (behindColons : Bool) :
    List Tree → List NameLeaf
  | [] => []
  | t :: ts =>
    (if t.isNamed && !t.isComment then
      (position? t.field? (behindColons || t.type == "::")).elim [] fun position =>
        nameLeaves position t
    else []) ++ nameLeavesIn position? (behindColons || t.type == "::") ts

end

lemma nameLeaves_identifier {t : Tree} (h : t.type = "identifier") (position : Position) :
    nameLeaves position t = [⟨t, position⟩] := by
  obtain ⟨type, field?, isNamed, isMissing, isFlagged, start, stop, children⟩ := t
  rw [nameLeaves, if_pos h]

lemma nameLeaves_parenthesized {t : Tree} (h : t.type = "parenthesized_expression")
    (position : Position) :
    nameLeaves position t = nameLeavesIn (fun _ _ => some position) false t.children := by
  obtain ⟨type, field?, isNamed, isMissing, isFlagged, start, stop, children⟩ := t
  obtain rfl : type = "parenthesized_expression" := h
  rw [nameLeaves, if_neg (by decide), if_pos rfl]

lemma nameLeaves_inner {t : Tree} (hname : t.type ≠ "identifier")
    (hparens : t.type ≠ "parenthesized_expression") (position : Position) :
    nameLeaves position t = nameLeavesIn (childPosition? t.type) false t.children := by
  obtain ⟨type, field?, isNamed, isMissing, isFlagged, start, stop, children⟩ := t
  rw [nameLeaves, if_neg hname, if_neg hparens]

/-- Only a method reference tells its sides apart. -/
lemma childPosition?_side {type : String} (h : type ≠ "method_reference") (field? : Option String) :
    childPosition? type field? true = childPosition? type field? false := by
  unfold childPosition?
  split
  case h_19 => exact absurd rfl h
  all_goals rfl

/-- Nothing is kept of a literal. -/
lemma childPosition?_literal {type : String} (h : type ∈ opaqueTypes) (field? : Option String)
    (behindColons : Bool) :
    childPosition? type field? behindColons = none := by
  simp only [opaqueTypes, List.mem_cons, List.not_mem_nil, or_false] at h
  rcases h with rfl | rfl | rfl | rfl | rfl | rfl | rfl | rfl <;> rfl

/-- The trees that count: those that are named and no comments. -/
def keptOf (ts : List Tree) : List Tree :=
  ts.filter fun c => c.isNamed && !c.isComment

lemma keptOf_cons (t : Tree) (ts : List Tree) :
    keptOf (t :: ts) = if t.isNamed && !t.isComment then t :: keptOf ts else keptOf ts :=
  List.filter_cons

lemma keptChildren_eq {t : Tree} (h : t.type ∉ opaqueTypes) :
    keptChildren t = keptOf t.children := by
  rw [keptChildren, if_neg (mt List.contains_iff_mem.1 h), keptOf]

lemma normalsOf_keptOf (ts : List Tree) : normalsOf source (keptOf ts) = normalsOf source ts :=
  normalsOf_filter ts

/-- Names in two lists one after the other; the colons may stand in the first. -/
lemma nameLeavesIn_append (position? : Option String → Bool → Option Position) (behindColons : Bool)
    (ss ts : List Tree) :
    nameLeavesIn position? behindColons (ss ++ ts) =
      nameLeavesIn position? behindColons ss ++
        nameLeavesIn position? (behindColons || ss.any (·.type == "::")) ts := by
  induction ss generalizing behindColons with
  | nil => simp [nameLeavesIn]
  | cons s ss ih =>
    rw [List.cons_append, nameLeavesIn, nameLeavesIn, ih, List.append_assoc, List.any_cons,
      Bool.or_assoc]

/-- The names of children whose position does not depend on the colons. -/
lemma nameLeavesIn_of_sideless {position? : Option String → Bool → Option Position}
    (h : ∀ field?, position? field? true = position? field? false) (behindColons : Bool)
    (ts : List Tree) :
    nameLeavesIn position? behindColons ts =
      (keptOf ts).flatMap fun c =>
        (position? c.field? false).elim [] fun position => nameLeaves position c := by
  have hside (field? : Option String) (b : Bool) : position? field? b = position? field? false := by
    cases b with
    | false => rfl
    | true => exact h field?
  induction ts generalizing behindColons with
  | nil => rfl
  | cons t ts ih =>
    rw [nameLeavesIn, ih, hside, keptOf_cons]
    split
    · rw [List.flatMap_cons]
    · rfl

/-- The names of children that stand on one side of the colons. -/
lemma nameLeavesIn_of_side {position? : Option String → Bool → Option Position}
    {behindColons : Bool} {ts : List Tree}
    (h : ∀ c ∈ ts, (behindColons || c.type == "::") = behindColons) :
    nameLeavesIn position? behindColons ts =
      nameLeavesIn (fun field? _ => position? field? behindColons) behindColons ts := by
  induction ts with
  | nil => rfl
  | cons t ts ih =>
    obtain ⟨ht, hts⟩ := List.forall_mem_cons.1 h
    rw [nameLeavesIn, nameLeavesIn, ht, ih hts]

/-- The names of a method reference: those before its colons, and those behind, which declare. -/
lemma nameLeaves_methodReference {t : Tree} (htype : t.type = "method_reference")
    (position : Position) :
    nameLeaves position t =
      (keptOf (t.children.takeWhile (·.type != "::"))).flatMap (nameLeaves .other) ++
        (keptOf (t.children.dropWhile (·.type != "::"))).flatMap (nameLeaves .declared) := by
  have hbefore : ∀ c ∈ t.children.takeWhile (·.type != "::"), (c.type == "::") = false := by
    intro c hc
    have hall := List.all_eq_true.1 (List.all_takeWhile (p := (·.type != "::"))) c hc
    rwa [bne, Bool.not_eq_true'] at hall
  have hany : (t.children.takeWhile (·.type != "::")).any (·.type == "::") = false :=
    List.any_eq_false.2 fun c hc => by simp [hbefore c hc]
  have hbehind :
      nameLeavesIn (childPosition? t.type) false (t.children.dropWhile (·.type != "::")) =
        nameLeavesIn (childPosition? t.type) true (t.children.dropWhile (·.type != "::")) := by
    cases hrest : t.children.dropWhile (·.type != "::") with
    | nil => rfl
    | cons c cs =>
      have hcolons : (c.type == "::") = true := by
        simpa [hrest] using List.head?_dropWhile_not (fun c : Tree => c.type != "::") t.children
      rw [nameLeavesIn, nameLeavesIn, hcolons, Bool.or_true, Bool.or_true]
  rw [nameLeaves_inner (by simp [htype]) (by simp [htype])]
  -- the children are taken apart where the colons stand
  conv_lhs => rw [← List.takeWhile_append_dropWhile (p := (·.type != "::")) (l := t.children)]
  have hfalse : ∀ c ∈ t.children.takeWhile (·.type != "::"), (false || c.type == "::") = false :=
    fun c hc => by rw [hbefore c hc, Bool.or_false]
  rw [nameLeavesIn_append, hany, Bool.or_false, hbehind, nameLeavesIn_of_side hfalse,
    nameLeavesIn_of_side fun c _ => Bool.true_or _, nameLeavesIn_of_sideless fun _ => rfl,
    nameLeavesIn_of_sideless fun _ => rfl, htype]
  rfl

/-! ## Positions and kinds -/

/-- The kind of the names in a position. -/
def Position.kind : Position → String
  | .declared => NodeKind.declaredName
  | .imported | .other => NodeKind.name

/-- The kind that names in a position are to have: those that make up an import declare what they
import. -/
def Position.statedKind : Position → String
  | .declared | .imported => NodeKind.declaredName
  | .other => NodeKind.name

/-- The name as a node of a kind. -/
def NameLeaf.node (source : Source) (kind : Position → String) (leaf : NameLeaf) : NameNode :=
  ⟨kind leaf.position, .text (Text.codePoints (textOf source leaf.tree)), spanOf source leaf.tree⟩

/-- What a node becomes where it stands: a name in a declaring position becomes a declared one. -/
def placed : Position → Node → Node
  | .declared, n => declared n
  | .imported, n | .other, n => n

/-- What is no name stays as it is in every position. -/
lemma placed_of_kind {n : Node} (h : isNameKind n.kind = false) (position : Position) :
    placed position n = n := by
  cases position with
  | declared =>
    rw [isNameKind, Bool.or_eq_false_iff] at h
    rw [placed, declared, if_neg (by simp [h.1])]
  | imported => rfl
  | other => rfl

lemma nameNodes_placed_inRole (t : Tree) (position : Position) (n : Node) :
    nameNodes (placed position (inRole t n)) = nameNodes (placed position n) := by
  cases position with
  | declared =>
    rw [placed, placed, declared, declared, inRole]
    split
    · rfl
    · exact nameNodes_withRole n t.field?
  | imported => exact nameNodes_withRole n t.field?
  | other => exact nameNodes_withRole n t.field?

/-! ## Normal forms of the children -/

/-- A tree has its normal form from those of its children. -/
lemma exists_of_normalOf {t : Tree} {o : Option Node} (h : normalOf source t = .ok o) :
    ∃ ns, normalsOf source (keptChildren t) = .ok ns ∧ normalNode source t ns = .ok o := by
  rw [normalOf_eq] at h
  exact exists_of_bind_eq_ok h

/-- What is to be had from the normal forms of trees is had from each of them. It is stated for any
list that is read off nodes, and used for names. -/
lemma flatMap_normalsOf {β : Type} {g : Node → List β} {f : Tree → List β} {ts : List Tree}
    {ns : List Node} (h : normalsOf source ts = .ok ns)
    (hg : ∀ c ∈ ts, ∀ o, normalOf source c = .ok o → (o.map (inRole c)).toList.flatMap g = f c) :
    ns.flatMap g = (keptOf ts).flatMap f := by
  induction ts generalizing ns with
  | nil =>
    obtain rfl : [] = ns := Except.ok.inj h
    rfl
  | cons t ts ih =>
    obtain ⟨ht, hts⟩ := List.forall_mem_cons.1 hg
    rw [normalsOf_cons] at h
    rw [keptOf_cons]
    split at h
    -- A tree that counts comes to one node or to none; one that does not count comes to nothing on
    -- either side.
    case isTrue hkept =>
      obtain ⟨o, ho, h⟩ := exists_of_bind_eq_ok h
      obtain ⟨ms, hms, h⟩ := exists_of_bind_eq_ok h
      obtain rfl := Except.ok.inj h
      rw [if_pos hkept, List.flatMap_append, List.flatMap_cons, ht o ho, ih hms hts]
    case isFalse hkept => rw [if_neg hkept, ih h hts]

/-- What the node of a type gets of the names of a child. Of a list of arguments a call takes what
is in it. -/
def namesGiven (type : String) (n : Node) : List NameNode :=
  (childPosition? type n.role false).elim [] fun position =>
    if n.role = some "arguments" ∧
      (type = "method_invocation" ∨ type = "object_creation_expression") then
      n.children.flatMap nameNodes
    else nameNodes (placed position n)

lemma flatMap_nameNodes_withRole (ns : List Node) (role : Option String) :
    (ns.map fun n => { n with role }).flatMap nameNodes = ns.flatMap nameNodes := by
  rw [List.flatMap_map]
  exact List.flatMap_congr fun n _ => nameNodes_withRole n role

lemma filter_flatMap_nameNodes (p : Node → Bool) (ns : List Node) :
    (ns.filter p).flatMap nameNodes = ns.flatMap fun n => if p n then nameNodes n else [] := by
  induction ns with
  | nil => rfl
  | cons n ns ih =>
    rw [List.filter_cons, List.flatMap_cons, ← ih]
    split <;> rfl

section

variable (t : Tree) (ns : List Node)

/-- A call keeps the names of its object and of its arguments, and not its own. -/
lemma childNames_methodCall :
    (methodCall source t ns).children.flatMap nameNodes =
      ns.flatMap (namesGiven "method_invocation") := by
  rw [methodCall, List.flatMap_assoc]
  refine List.flatMap_congr fun n _ => ?_
  by_cases hobject : n.role = some "object"
  · simp [namesGiven, childPosition?, hobject, Role.object, placed]
  · by_cases harguments : n.role = some "arguments"
    · simp [namesGiven, childPosition?, harguments, Role.object, argumentsOf,
        flatMap_nameNodes_withRole]
    · simp [namesGiven, childPosition?, hobject, harguments, Role.object]

/-- An access to a field keeps the names of its object. -/
lemma childNames_fieldAccess :
    (fieldAccess source t ns).children.flatMap nameNodes =
      ns.flatMap (namesGiven "field_access") := by
  rw [fieldAccess, filter_flatMap_nameNodes]
  refine List.flatMap_congr fun n _ => ?_
  by_cases hobject : n.role = some "object"
  · simp [namesGiven, childPosition?, hobject, Role.object, placed]
  · simp [namesGiven, childPosition?, hobject, Role.object]

/-- A creation keeps the names of its arguments and of its body. -/
lemma childNames_creation :
    (creation source t ns).children.flatMap nameNodes =
      ns.flatMap (namesGiven "object_creation_expression") := by
  rw [creation, List.flatMap_assoc]
  refine List.flatMap_congr fun n _ => ?_
  by_cases harguments : n.role = some "arguments"
  · simp [namesGiven, childPosition?, harguments, argumentsOf, flatMap_nameNodes_withRole]
  · by_cases htype : n.role = some "type" ∨ n.role = some "type_arguments"
    · simp [namesGiven, childPosition?, harguments, htype]
    · simp [namesGiven, childPosition?, harguments, htype, placed]

/-- A type test keeps the names on its left. -/
lemma childNames_typeTest :
    (typeTest source t ns).children.flatMap nameNodes =
      ns.flatMap (namesGiven "instanceof_expression") := by
  rw [typeTest, filter_flatMap_nameNodes]
  refine List.flatMap_congr fun n _ => ?_
  by_cases hleft : n.role = some "left"
  · simp [namesGiven, childPosition?, hleft, Role.left, placed]
  · simp [namesGiven, childPosition?, hleft, Role.left]

lemma childNames_update {n : Node} (h : update source t ns = .ok n) :
    n.children.flatMap nameNodes = ns.flatMap nameNodes := by
  rw [update] at h
  split at h
  · obtain rfl := Except.ok.inj h
    exact flatMap_nameNodes_withRole ns _
  · cases h

/-- Any other node keeps all names, and makes some of them declare. -/
lemma childNames_generic :
    (generic source t ns).children.flatMap nameNodes =
      ns.flatMap fun n => nameNodes (placed (plainPosition t.type n.role) n) := by
  rw [generic, List.flatMap_map]
  refine List.flatMap_congr fun n _ => ?_
  have htypes : declaringTypes.contains t.type = true ↔
      t.type ∈ ["scoped_identifier", "inferred_parameters", "labeled_statement",
        "break_statement", "continue_statement"] := List.contains_iff_mem
  have hfields : declaringFields.contains n.role = true ↔
      n.role = some "name" ∨ n.role = some "parameters" := by
    simp [declaringFields]
  rw [plainPosition]
  simp only [Bool.or_eq_true, htypes, hfields]
  split_ifs <;> simp_all [placed]

end

lemma exists_of_map_some_eq_ok {ε α : Type} {x : Except ε α} {o : Option α}
    (h : x.map some = .ok o) :
    ∃ a, o = some a ∧ x = .ok a := by
  cases x with
  | error e => cases h
  | ok a => exact ⟨a, (Except.ok.inj h).symm, rfl⟩

/-- A literal is neither a name nor over anything, and it stands where it was read, however it is
turned into a value. -/
lemma leaf_of_literal {t : Tree} {n : Node}
    (h : integer source t = .ok n ∨ floating source t = .ok n ∨ quoted source t = .ok n) :
    isNameKind n.kind = false ∧ n.children = [] ∧ n.span = spanOf source t := by
  obtain h | h | h := h
  · rw [integer] at h
    split at h
    · obtain rfl := Except.ok.inj h
      exact ⟨by dsimp only; split <;> rfl, rfl, rfl⟩
    · cases h
  · rw [floating] at h
    split at h
    · obtain rfl := Except.ok.inj h
      exact ⟨rfl, rfl, rfl⟩
    · cases h
  · rw [quoted] at h
    split at h
    · obtain rfl := Except.ok.inj h
      exact ⟨by dsimp only; split <;> rfl, rfl, rfl⟩
    · cases h

lemma isNameKind_update {t : Tree} {ns : List Node} {n : Node} (h : update source t ns = .ok n) :
    isNameKind n.kind = false := by
  rw [update] at h
  split at h
  · obtain rfl := Except.ok.inj h
    dsimp only
    split <;> rfl
  · cases h

/-- Only parentheses become nothing, and only names become names. The cases are those of the
conversion. -/
lemma exists_of_normalNode {t : Tree} {ns : List Node} {o : Option Node}
    (ho : normalNode source t ns = .ok o) (hparens : t.type ≠ "parenthesized_expression") :
    ∃ n, o = some n ∧
      (t.type ≠ "identifier" → t.type ≠ "simple_name" → isNameKind n.kind = false) := by
  have hplain (htype : t.type ≠ "identifier") (hother : t.type ≠ "simple_name") :
      isNameKind t.type = false := by
    simp [isNameKind, NodeKind.name, NodeKind.declaredName, htype, hother]
  rw [normalNode] at ho
  split at ho
  case h_1 htype => exact absurd htype hparens
  case h_2 htype =>
    obtain rfl := Except.ok.inj ho
    exact ⟨_, rfl, fun hname => absurd htype hname⟩
  -- Literals.
  case h_3 | h_4 | h_5 | h_6 =>
    obtain ⟨n, rfl, hn⟩ := exists_of_map_some_eq_ok ho
    exact ⟨n, rfl, fun _ _ => (leaf_of_literal (.inl hn)).1⟩
  case h_7 | h_8 =>
    obtain ⟨n, rfl, hn⟩ := exists_of_map_some_eq_ok ho
    exact ⟨n, rfl, fun _ _ => (leaf_of_literal (.inr (.inl hn))).1⟩
  case h_9 | h_10 =>
    obtain ⟨n, rfl, hn⟩ := exists_of_map_some_eq_ok ho
    exact ⟨n, rfl, fun _ _ => (leaf_of_literal (.inr (.inr hn))).1⟩
  -- The nodes that keep their type as their kind.
  case h_18 | h_19 | h_21 | h_22 =>
    obtain rfl := Except.ok.inj ho
    exact ⟨_, rfl, hplain⟩
  case h_20 =>
    obtain ⟨n, rfl, hn⟩ := exists_of_map_some_eq_ok ho
    exact ⟨n, rfl, fun _ _ => isNameKind_update hn⟩
  -- The nodes of a kind of their own.
  all_goals
    obtain rfl := Except.ok.inj ho
    exact ⟨_, rfl, fun _ _ => rfl⟩

lemma flatMap_namesGiven_of_none {type : String}
    (h : ∀ field?, childPosition? type field? false = none) (ns : List Node) :
    ns.flatMap (namesGiven type) = [] :=
  List.flatMap_eq_nil_iff.2 fun n _ => by rw [namesGiven, h, Option.elim_none]

/-- The names in a node are those it gets of its children, if it is neither a name nor made by
parentheses, and no method reference. -/
lemma childNames_normalNode {t : Tree} {ns : List Node} {n : Node}
    (hn : normalNode source t ns = .ok (some n)) (hname : t.type ≠ "identifier")
    (hparens : t.type ≠ "parenthesized_expression") (href : t.type ≠ "method_reference") :
    n.children.flatMap nameNodes = ns.flatMap (namesGiven t.type) := by
  rw [normalNode] at hn
  split at hn
  case h_1 htype => exact absurd htype hparens
  case h_2 htype => exact absurd htype hname
  -- Literals.
  case h_3 htype | h_4 htype | h_5 htype | h_6 htype =>
    obtain ⟨m, ⟨⟩, hm⟩ := exists_of_map_some_eq_ok hn
    rw [htype, (leaf_of_literal (.inl hm)).2.1, flatMap_namesGiven_of_none fun _ => rfl,
      List.flatMap_nil]
  case h_7 htype | h_8 htype =>
    obtain ⟨m, ⟨⟩, hm⟩ := exists_of_map_some_eq_ok hn
    rw [htype, (leaf_of_literal (.inr (.inl hm))).2.1, flatMap_namesGiven_of_none fun _ => rfl,
      List.flatMap_nil]
  case h_9 htype | h_10 htype =>
    obtain ⟨m, ⟨⟩, hm⟩ := exists_of_map_some_eq_ok hn
    rw [htype, (leaf_of_literal (.inr (.inr hm))).2.1, flatMap_namesGiven_of_none fun _ => rfl,
      List.flatMap_nil]
  case h_11 htype | h_12 htype | h_13 htype =>
    obtain rfl := Option.some.inj (Except.ok.inj hn)
    rw [htype, flatMap_namesGiven_of_none fun _ => rfl]
    rfl
  -- Calls, members, creations and type tests.
  case h_14 htype =>
    obtain rfl := Option.some.inj (Except.ok.inj hn)
    rw [htype, childNames_methodCall]
  case h_15 htype =>
    obtain rfl := Option.some.inj (Except.ok.inj hn)
    rw [htype, childNames_fieldAccess]
  case h_16 htype =>
    obtain rfl := Option.some.inj (Except.ok.inj hn)
    rw [htype, childNames_creation]
  case h_17 htype =>
    obtain rfl := Option.some.inj (Except.ok.inj hn)
    rw [htype, childNames_typeTest]
  -- Operators and steps.
  case h_18 htype | h_19 htype =>
    obtain rfl := Option.some.inj (Except.ok.inj hn)
    rw [htype]
    exact List.flatMap_congr fun n _ => by simp [namesGiven, childPosition?, placed]
  case h_20 htype =>
    obtain ⟨m, ⟨⟩, hm⟩ := exists_of_map_some_eq_ok hn
    rw [childNames_update t ns hm, htype]
    exact List.flatMap_congr fun n _ => by simp [namesGiven, childPosition?, placed]
  case h_21 htype => exact absurd htype href
  -- All other nodes.
  case h_22 =>
    obtain rfl := Option.some.inj (Except.ok.inj hn)
    rw [childNames_generic]
    refine List.flatMap_congr fun n _ => ?_
    have hposition : childPosition? t.type n.role false = some (plainPosition t.type n.role) := by
      unfold childPosition?
      split
      case h_20 => rfl
      all_goals contradiction
    rw [namesGiven, hposition, Option.elim_some, if_neg]
    rintro ⟨-, htype | htype⟩ <;> contradiction

/-! ## Shapes of the grammar -/

/-- A node has the shape that the grammar gives it, as far as names depend on it. The grammar has no
type for declared names, parentheses enclose one expression, and arguments are a list. -/
structure ShapedAt (t : Tree) : Prop where
  type_ne : t.type ≠ "simple_name"
  encloses : t.type = "parenthesized_expression" → (keptOf t.children).length = 1
  lists : t.type = "method_invocation" ∨ t.type = "object_creation_expression" →
    ∀ c ∈ t.children, c.field? = some "arguments" → c.type = "argument_list"
  /-- Before the colons of a method reference there is one part, and behind them only type arguments
  before the last. -/
  refers : t.type = "method_reference" →
    (keptOf (t.children.takeWhile (·.type != "::"))).length = 1 ∧
      ∀ c ∈ (keptOf (t.children.dropWhile (·.type != "::"))).dropLast, c.type = "type_arguments"

instance (t : Tree) : Decidable (ShapedAt t) :=
  decidable_of_iff (_ ∧ _ ∧ _ ∧ _)
    ⟨fun ⟨h₁, h₂, h₃, h₄⟩ => ⟨h₁, h₂, h₃, h₄⟩, fun ⟨h₁, h₂, h₃, h₄⟩ => ⟨h₁, h₂, h₃, h₄⟩⟩

mutual

/-- The nodes of a tree, each before its children. -/
def Tree.subtrees : Tree → List Tree
  | ⟨type, field?, isNamed, isMissing, isFlagged, start, stop, children⟩ =>
    ⟨type, field?, isNamed, isMissing, isFlagged, start, stop, children⟩ :: subtreesList children

/-- The nodes of several trees. -/
def Tree.subtreesList : List Tree → List Tree
  | [] => []
  | t :: ts => t.subtrees ++ subtreesList ts

end

/-- All nodes of a tree have the shapes of the grammar. -/
def Tree.Shaped (t : Tree) : Prop :=
  ∀ s ∈ t.subtrees, ShapedAt s

instance (t : Tree) : Decidable t.Shaped :=
  inferInstanceAs (Decidable (∀ s ∈ t.subtrees, ShapedAt s))

lemma Tree.subtreesList_eq_flatMap (ts : List Tree) : subtreesList ts = ts.flatMap subtrees := by
  induction ts with
  | nil => rfl
  | cons t ts ih => rw [subtreesList, ih, List.flatMap_cons]

lemma Tree.subtrees_eq (t : Tree) : t.subtrees = t :: t.children.flatMap subtrees := by
  obtain ⟨type, field?, isNamed, isMissing, isFlagged, start, stop, children⟩ := t
  rw [subtrees, subtreesList_eq_flatMap]

lemma Tree.Shaped.at {t : Tree} (h : t.Shaped) : ShapedAt t := by
  refine h t ?_
  rw [Tree.subtrees_eq]
  exact List.mem_cons_self

lemma Tree.Shaped.child {t c : Tree} (h : t.Shaped) (hc : c ∈ t.children) : c.Shaped := by
  intro s hs
  refine h s ?_
  rw [Tree.subtrees_eq]
  exact List.mem_cons_of_mem t (List.mem_flatMap.2 ⟨c, hc, hs⟩)

lemma Tree.size_le_sizeList {c : Tree} {ts : List Tree} (h : c ∈ ts) : c.size ≤ sizeList ts := by
  induction ts with
  | nil => cases h
  | cons t ts ih =>
    rw [sizeList]
    obtain rfl | h := List.mem_cons.1 h
    · exact Nat.le_add_right _ _
    · exact Nat.le_trans (ih h) (Nat.le_add_left _ _)

/-- A child is smaller than its parent, which is what the recursions below go by. -/
lemma Tree.size_lt_of_mem_children {t c : Tree} (h : c ∈ t.children) : c.size < t.size := by
  have hle := size_le_sizeList h
  rw [size_eq t]
  omega

/-! ## Names through conversion -/

/-- In whatever position a tree stands, the names in its normal form are those that are kept of it,
each of the kind of its position. The position has to be general, because parentheses pass it on. -/
def NamesKept (source : Source) (t : Tree) : Prop :=
  ∀ (position : Position) (o : Option Node), normalOf source t = .ok o →
    (o.toList.flatMap fun n => nameNodes (placed position n)) =
      (nameLeaves position t).map (·.node source Position.kind)

lemma flatMap_placed_inRole (t : Tree) (position : Position) (o : Option Node) :
    ((o.map (inRole t)).toList.flatMap fun n => nameNodes (placed position n)) =
      o.toList.flatMap fun n => nameNodes (placed position n) := by
  cases o with
  | none => rfl
  | some n =>
    rw [Option.map_some, Option.toList_some, List.flatMap_singleton, nameNodes_placed_inRole]
    exact (List.flatMap_singleton ..).symm

/-- A name is kept itself, and is of the kind of its position. -/
lemma namesKept_of_identifier {t : Tree} (htype : t.type = "identifier") : NamesKept source t := by
  intro position o ho
  obtain ⟨ns, -, ho⟩ := exists_of_normalOf ho
  rw [normalNode, htype] at ho
  obtain rfl := Except.ok.inj ho
  rw [nameLeaves_identifier htype]
  cases position <;> rfl

lemma mem_of_keptOf_eq {ts : List Tree} {c : Tree} (h : keptOf ts = [c]) :
    c ∈ ts ∧ (c.isNamed && !c.isComment) = true := by
  have hc : c ∈ keptOf ts := h ▸ List.mem_singleton_self c
  exact List.mem_filter.1 hc

/-- Parentheses around one tree that counts become what it becomes. -/
lemma normalOf_parenthesized {t c : Tree} (htype : t.type = "parenthesized_expression")
    (hkept : keptOf t.children = [c]) :
    normalOf source t = normalOf source c >>= fun o => .ok (o.map (inRole c)) := by
  have hnode (ns : List Node) : normalNode source t ns = .ok ns.head? := by
    simp only [normalNode, htype]
  rw [normalOf_eq, keptChildren_eq (by rw [htype]; decide), hkept,
    normalsOf_kept (mem_of_keptOf_eq hkept).2, bind_assoc]
  refine congrArg _ (funext fun o => (hnode _).trans ?_)
  rw [Option.head?_toList]

/-- Parentheses keep what the one tree in them keeps, in the same position. -/
lemma namesKept_of_parenthesized {t c : Tree} (htype : t.type = "parenthesized_expression")
    (hkept : keptOf t.children = [c]) (ih : NamesKept source c) : NamesKept source t := by
  intro position o ho
  rw [normalOf_parenthesized htype hkept] at ho
  obtain ⟨inner, hinner, ho⟩ := exists_of_bind_eq_ok ho
  obtain rfl := Except.ok.inj ho
  rw [flatMap_placed_inRole, ih position inner hinner, nameLeaves_parenthesized htype,
    nameLeavesIn_of_sideless fun _ => rfl, hkept, List.flatMap_singleton, Option.elim_some]

/-- Every tree of the grammar has a normal form, if its literals have values. -/
lemma Tree.Shaped.exists_normal {t : Tree} (h : t.Shaped) {o : Option Node}
    (ho : normalOf source t = .ok o) :
    ∃ n, o = some n := by
  by_cases hparens : t.type = "parenthesized_expression"
  · obtain ⟨c, hkept⟩ := List.length_eq_one_iff.1 (h.at.encloses hparens)
    have hc : c ∈ t.children := (mem_of_keptOf_eq hkept).1
    rw [normalOf_parenthesized hparens hkept] at ho
    obtain ⟨inner, hinner, ho⟩ := exists_of_bind_eq_ok ho
    obtain ⟨n, rfl⟩ := (h.child hc).exists_normal hinner
    exact ⟨inRole c n, (Except.ok.inj ho).symm⟩
  · obtain ⟨ns, -, ho⟩ := exists_of_normalOf ho
    obtain ⟨n, hn, -⟩ := exists_of_normalNode ho hparens
    exact ⟨n, hn⟩
termination_by t.size
decreasing_by exact Tree.size_lt_of_mem_children hc

/-- Only an identifier has a name for its normal form. -/
lemma isNameKind_of_normalOf {t : Tree} {n : Node} (hn : normalOf source t = .ok (some n))
    (hname : t.type ≠ "identifier") (hdeclared : t.type ≠ "simple_name")
    (hparens : t.type ≠ "parenthesized_expression") :
    isNameKind n.kind = false := by
  obtain ⟨ns, -, hn⟩ := exists_of_normalOf hn
  obtain ⟨m, ⟨⟩, hkind⟩ := exists_of_normalNode hn hparens
  exact hkind hname hdeclared

/-- What a node gets of the names of a child is what is kept of the child. A list of arguments is
not itself a name, so taking what is in it loses none. -/
lemma namesGiven_of_namesKept {t c : Tree} (hshaped : ShapedAt t) (hc : c ∈ t.children)
    (ih : NamesKept source c) {o : Option Node} (ho : normalOf source c = .ok o) :
    (o.map (inRole c)).toList.flatMap (namesGiven t.type) =
      ((childPosition? t.type c.field? false).elim [] fun position => nameLeaves position c).map
        (·.node source Position.kind) := by
  have hplaced (position : Position) :=
    (flatMap_placed_inRole c position o).trans (ih position o ho)
  cases o with
  | none =>
    cases childPosition? t.type c.field? false with
    | none => rfl
    | some position => exact hplaced position
  | some n =>
    simp only [Option.map_some, Option.toList_some, List.flatMap_singleton] at hplaced ⊢
    have hrole : (inRole c n).role = c.field? := rfl
    rw [namesGiven, hrole]
    cases childPosition? t.type c.field? false with
    | none => rfl
    | some position =>
      rw [Option.elim_some, Option.elim_some, ← hplaced position]
      split
      -- The arguments of a call stand in a list of their own, which is no name.
      case isTrue hcall =>
        have htype : c.type = "argument_list" := hshaped.lists hcall.2 c hc hcall.1
        have hkind : isNameKind n.kind = false :=
          isNameKind_of_normalOf ho (by simp [htype]) (by simp [htype]) (by simp [htype])
        rw [nameNodes_placed_inRole, placed_of_kind hkind, nameNodes_eq_flatMap hkind, inRole]
      case isFalse => rfl

/-- Of the parts of a method reference the last one declares, unless it is the only one. -/
lemma children_methodReference (t : Tree) (m : Node) (ms : List Node) (n : Node) :
    (methodReference source t (m :: (ms ++ [n]))).children = m :: (ms ++ [declared n]) := by
  have hreverse : (m :: (ms ++ [n])).reverse = n :: (ms.reverse ++ [m]) := by simp
  obtain ⟨other, others, hothers⟩ := List.exists_cons_of_ne_nil (l := ms.reverse ++ [m]) (by simp)
  rw [methodReference, hreverse, hothers]
  dsimp only
  rw [← hothers]
  simp

/-- The names kept of several trees in one position. -/
lemma flatMap_namesKept {ts : List Tree} {ns : List Node} (h : normalsOf source ts = .ok ns)
    (ih : ∀ c ∈ ts, NamesKept source c) (position : Position) :
    (ns.flatMap fun n => nameNodes (placed position n)) =
      ((keptOf ts).flatMap (nameLeaves position)).map (·.node source Position.kind) := by
  rw [List.map_flatMap]
  exact flatMap_normalsOf h fun c hc o ho =>
    (flatMap_placed_inRole c position o).trans (ih c hc position o ho)

/-- The one tree that counts among several is the one that has a normal form. -/
lemma exists_normals_of_keptOf {ts : List Tree} {c : Tree} (hkept : keptOf ts = [c])
    (hshaped : c.Shaped) {ns : List Node} (h : normalsOf source ts = .ok ns) : ∃ n, ns = [n] := by
  rw [← normalsOf_keptOf, hkept, normalsOf_kept (mem_of_keptOf_eq hkept).2] at h
  obtain ⟨o, ho, h⟩ := exists_of_bind_eq_ok h
  obtain ⟨n, rfl⟩ := hshaped.exists_normal ho
  exact ⟨inRole c n, (Except.ok.inj h).symm⟩

/-- Where only the last of several trees can be a name, it does not matter whether the others are to
declare. -/
lemma flatMap_declared_last {ts : List Tree} {ns : List Node} (hns : normalsOf source ts = .ok ns)
    (hshaped : ∀ c ∈ ts, c.Shaped) (ih : ∀ c ∈ ts, NamesKept source c)
    (hlast : ∀ c ∈ (keptOf ts).dropLast, c.type = "type_arguments") :
    ns = [] ∨ ∃ ms n, ns = ms ++ [n] ∧
      ms.flatMap nameNodes = ms.flatMap fun m => nameNodes (declared m) := by
  rw [← normalsOf_keptOf] at hns
  obtain hnil | ⟨others, c, hconcat⟩ := List.eq_nil_or_concat (keptOf ts)
  · rw [hnil] at hns
    exact .inl (Except.ok.inj hns).symm
  · rw [List.concat_eq_append] at hconcat
    -- The trees that count, and the last of them; the ones before it are type arguments.
    have hmem : ∀ d ∈ others ++ [c], d ∈ ts ∧ (d.isNamed && !d.isComment) = true := fun d hd =>
      List.mem_filter.1 (hconcat ▸ hd)
    obtain ⟨hothers, hc⟩ := List.forall_mem_append.1 hmem
    have hc := hc c (List.mem_singleton_self c)
    rw [hconcat, List.dropLast_concat] at hlast
    rw [hconcat, normalsOf_append] at hns
    obtain ⟨ms, hms, hns⟩ := exists_of_bind_eq_ok hns
    obtain ⟨lasts, hlasts, hns⟩ := exists_of_bind_eq_ok hns
    have hsingle : keptOf [c] = [c] := by rw [keptOf_cons, if_pos hc.2, keptOf, List.filter_nil]
    obtain ⟨n, rfl⟩ := exists_normals_of_keptOf hsingle (hshaped c hc.1) hlasts
    have hkept (position : Position) :=
      flatMap_namesKept hms (fun d hd => ih d (hothers d hd).1) position
    refine .inr ⟨ms, n, (Except.ok.inj hns).symm,
      (hkept .other).trans (.trans ?_ (hkept .declared).symm)⟩
    refine congrArg _ (List.flatMap_congr fun d hd => ?_)
    have htype := hlast d (List.mem_of_mem_filter hd)
    rw [nameLeaves_inner (by simp [htype]) (by simp [htype]),
      nameLeaves_inner (by simp [htype]) (by simp [htype])]

/-- A method reference makes its last part declare. Behind the colons that is the only part that can
be a name, since all others are type arguments. -/
lemma namesKept_of_methodReference {t : Tree} (hshaped : t.Shaped)
    (htype : t.type = "method_reference") (ih : ∀ c ∈ t.children, NamesKept source c) :
    NamesKept source t := by
  intro position o ho
  have hchildren :
      ∀ c ∈ t.children.takeWhile (·.type != "::") ++ t.children.dropWhile (·.type != "::"),
        c.Shaped ∧ NamesKept source c := by
    rw [List.takeWhile_append_dropWhile]
    exact fun c hc => ⟨hshaped.child hc, ih c hc⟩
  obtain ⟨hfront, hback⟩ := List.forall_mem_append.1 hchildren
  obtain ⟨hone, harguments⟩ := hshaped.at.refers htype
  obtain ⟨operand, hoperand⟩ := List.length_eq_one_iff.1 hone
  -- The nodes before the colons and those behind them.
  obtain ⟨ns, hns, ho⟩ := exists_of_normalOf ho
  rw [keptChildren_eq (by rw [htype]; decide), normalsOf_keptOf,
    ← List.takeWhile_append_dropWhile (p := (·.type != "::")) (l := t.children),
    normalsOf_append] at hns
  obtain ⟨before, hbefore, hns⟩ := exists_of_bind_eq_ok hns
  obtain ⟨behind, hbehind, hns⟩ := exists_of_bind_eq_ok hns
  obtain rfl := Except.ok.inj hns
  obtain ⟨n, rfl, hkind⟩ := exists_of_normalNode ho (by simp [htype])
  have hkind := hkind (by simp [htype]) (by simp [htype])
  rw [normalNode, htype] at ho
  obtain rfl := Option.some.inj (Except.ok.inj ho)
  rw [Option.toList_some, List.flatMap_singleton, placed_of_kind hkind, nameNodes_eq_flatMap hkind,
    nameLeaves_methodReference htype, List.map_append,
    ← flatMap_namesKept hbefore fun c hc => (hfront c hc).2,
    ← flatMap_namesKept hbehind fun c hc => (hback c hc).2]
  obtain ⟨m, rfl⟩ :=
    exists_normals_of_keptOf hoperand (hfront operand (mem_of_keptOf_eq hoperand).1).1 hbefore
  obtain rfl | ⟨ms, n, rfl, hms⟩ :=
    flatMap_declared_last hbehind (fun c hc => (hback c hc).1) (fun c hc => (hback c hc).2)
      harguments
  · rw [List.append_nil, methodReference]
    simp [placed]
  · rw [List.singleton_append, children_methodReference]
    simp [placed, hms]

/-- Any other node keeps what it is given of its children. -/
lemma namesKept_of_inner {t : Tree} (hshaped : ShapedAt t) (hname : t.type ≠ "identifier")
    (hparens : t.type ≠ "parenthesized_expression") (href : t.type ≠ "method_reference")
    (ih : ∀ c ∈ t.children, NamesKept source c) : NamesKept source t := by
  intro position o ho
  obtain ⟨ns, hns, ho⟩ := exists_of_normalOf ho
  obtain ⟨n, rfl, hkind⟩ := exists_of_normalNode ho hparens
  have hkind := hkind hname hshaped.type_ne
  rw [Option.toList_some, List.flatMap_singleton, placed_of_kind hkind, nameNodes_eq_flatMap hkind,
    childNames_normalNode ho hname hparens href, nameLeaves_inner hname hparens,
    nameLeavesIn_of_sideless (childPosition?_side href), List.map_flatMap]
  by_cases hopaque : t.type ∈ opaqueTypes
  · rw [keptChildren, if_pos (List.contains_iff_mem.2 hopaque)] at hns
    obtain rfl : [] = ns := Except.ok.inj hns
    refine (List.flatMap_eq_nil_iff.2 fun c _ => ?_).symm
    rw [childPosition?_literal hopaque, Option.elim_none, List.map_nil]
  · rw [keptChildren_eq hopaque, normalsOf_keptOf] at hns
    exact flatMap_normalsOf hns fun c hc o ho => namesGiven_of_namesKept hshaped hc (ih c hc) ho

/-- The names are kept of every tree of the grammar's shapes. The recursion is on the size of the
tree. -/
lemma Tree.Shaped.namesKept {t : Tree} (h : t.Shaped) : NamesKept source t := by
  have ih : ∀ c ∈ t.children, NamesKept source c := fun c hc => (h.child hc).namesKept
  by_cases hname : t.type = "identifier"
  · exact namesKept_of_identifier hname
  by_cases hparens : t.type = "parenthesized_expression"
  · obtain ⟨c, hkept⟩ := List.length_eq_one_iff.1 (h.at.encloses hparens)
    exact namesKept_of_parenthesized hparens hkept (ih c (mem_of_keptOf_eq hkept).1)
  by_cases href : t.type = "method_reference"
  · exact namesKept_of_methodReference h href ih
  · exact namesKept_of_inner h.at hname hparens href ih
termination_by t.size
decreasing_by exact Tree.size_lt_of_mem_children hc

/-- The names of a converted source are those of its tree, at the top in no position of their
own. -/
lemma nameNodes_convert {t : Tree} {n : Node} (hshaped : t.Shaped) (hn : convert source t = .ok n) :
    nameNodes n = (nameLeaves .other t).map (·.node source Position.kind) := by
  rw [convert, convertFrom_enter] at hn
  cases ho : normalOf source t with
  | error e =>
    rw [ho] at hn
    cases hn
  | ok o =>
    obtain ⟨m, rfl⟩ := hshaped.exists_normal ho
    rw [ho] at hn
    obtain rfl := Except.ok.inj hn
    rw [nameNodes_withRole, ← hshaped.namesKept .other _ ho]
    exact (List.flatMap_singleton ..).symm

/-- The names in the nodes of a tree are those that are kept of it, from left to right and at their
spans, each of the kind of its position. So every name that declares something or names what is
declared is of the kind of declared names, exactly if no import has a single name as its path. -/
theorem nameNodes_convert_iff {t : Tree} {n : Node} (hshaped : t.Shaped)
    (hn : convert source t = .ok n) :
    nameNodes n = (nameLeaves .other t).map (·.node source Position.kind) ∧
      (nameNodes n = (nameLeaves .other t).map (·.node source Position.statedKind) ↔
        ∀ leaf ∈ nameLeaves .other t, leaf.position ≠ .imported) := by
  have hkind (leaf : NameLeaf) :
      leaf.node source Position.kind = leaf.node source Position.statedKind ↔
        leaf.position ≠ .imported := by
    obtain ⟨tree, position⟩ := leaf
    cases position <;>
      simp [NameLeaf.node, Position.kind, Position.statedKind, NodeKind.name, NodeKind.declaredName]
  have hnames := nameNodes_convert hshaped hn
  refine ⟨hnames, ?_⟩
  rw [hnames, List.map_inj_left]
  exact forall₂_congr fun leaf _ => hkind leaf

/-- A source with names in many positions: in an import, as a label, as a parameter, in parentheses
and on both sides of a method reference. -/
def namesSource : Source :=
  .ofString "import a.b; l: f(y -> (y), T::<U>g);"

/-- The tree of the source. -/
def namesTree : Tree :=
  nodeAt "program" none 0 36
    [nodeAt "import_declaration" none 0 11
      [tokenAt "import" 0, nodeAt "scoped_identifier" none 7 10
        [nodeAt "identifier" (some "scope") 7 8 [], tokenAt "." 8,
          nodeAt "identifier" (some "name") 9 10 []],
        tokenAt ";" 10],
      nodeAt "labeled_statement" none 12 36
        [nodeAt "identifier" none 12 13 [], tokenAt ":" 13,
          nodeAt "expression_statement" none 15 36
            [nodeAt "method_invocation" none 15 35
              [nodeAt "identifier" (some "name") 15 16 [],
                nodeAt "argument_list" (some "arguments") 16 35
                  [tokenAt "(" 16,
                    nodeAt "lambda_expression" none 17 25
                      [nodeAt "identifier" (some "parameters") 17 18 [], tokenAt "->" 19,
                        nodeAt "parenthesized_expression" (some "body") 22 25
                          [tokenAt "(" 22, nodeAt "identifier" none 23 24 [], tokenAt ")" 24]],
                    tokenAt "," 25,
                    nodeAt "method_reference" none 27 34
                      [nodeAt "identifier" none 27 28 [], tokenAt "::" 28,
                        nodeAt "type_arguments" none 30 33
                          [tokenAt "<" 30, nodeAt "type_identifier" none 31 32 [],
                            tokenAt ">" 32],
                        nodeAt "identifier" none 33 34 []],
                    tokenAt ")" 34]],
              tokenAt ";" 35]]]

lemma exists_of_isOk {ε α : Type} {x : Except ε α} (h : x.isOk = true) : ∃ a, x = .ok a := by
  cases x with
  | error e => cases h
  | ok a => exact ⟨a, rfl⟩

/-- Seven of its eight identifiers are kept, and five of these declare. -/
theorem nameNodes_convert_iff_namesTree :
    namesTree.Shaped ∧ ∃ n, convert namesSource namesTree = .ok n ∧
      (nameNodes n).map (fun m => (m.kind, m.value)) =
        [("simple_name", .ofString "a"), ("simple_name", .ofString "b"),
          ("simple_name", .ofString "l"), ("simple_name", .ofString "y"),
          ("identifier", .ofString "y"), ("identifier", .ofString "T"),
          ("simple_name", .ofString "g")] := by
  have hshaped : namesTree.Shaped := by decide +kernel
  obtain ⟨n, hn⟩ : ∃ n, convert namesSource namesTree = .ok n := by
    rw [convert, convertFrom_enter]
    exact exists_of_isOk (by decide +kernel)
  refine ⟨hshaped, n, hn, ?_⟩
  rw [(nameNodes_convert_iff hshaped hn).1]
  decide +kernel

/-- The tree of `import A;`. -/
def importTree : Tree :=
  nodeAt "program" none 0 9
    [nodeAt "import_declaration" none 0 9
      [tokenAt "import" 0, nodeAt "identifier" none 7 8 [], tokenAt ";" 8]]

/-- The path of an import that is a single name is taken for a name used as a value. The tree has
neither errors nor a shape that the grammar does not give. -/
theorem not_nameNodes_convert : ¬ ∀ (source : Source) (t : Tree) (n : Node), t.Shaped →
    t.hasError = false → convert source t = .ok n →
      nameNodes n = (nameLeaves .other t).map (·.node source Position.statedKind) := by
  intro hall
  have hshaped : importTree.Shaped := by decide +kernel
  obtain ⟨n, hn⟩ : ∃ n, convert (.ofString "import A;") importTree = .ok n := by
    rw [convert, convertFrom_enter]
    exact exists_of_isOk (by decide +kernel)
  have hnames := hall _ importTree n hshaped (by decide) hn
  rw [nameNodes_convert hshaped hn] at hnames
  exact absurd hnames (by decide +kernel)

end ShapeLint.Java
