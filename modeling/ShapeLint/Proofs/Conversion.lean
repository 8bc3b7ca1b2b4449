import Mathlib.Tactic.Lemma
import ShapeLint.Java.Convert

/-!
# Conversion from the leaves on

`convertFrom` is a machine: it keeps the nodes it is inside of on a stack of frames. `NormalForm`
says the same without a stack. A tree has a normal form if its children that count have one, and it
is the one that `normalNode` makes of theirs. From a frame that has children to come, the machine
gets to the frame in which their normal forms are built, whatever is below on the stack. So a tree
with a normal form is converted to it.

The other way round nothing is needed here: a tree without a normal form is one at which conversion
fails.

`normalOf` computes both by recursion on the tree, the normal form and the first failure. What the
machine comes to, from any frame and on any stack, is told by it (`convertFrom_enter`), so that what
is to be shown of all conversions can be shown by recursion on the tree.
-/

namespace ShapeLint.Java

variable {source : Source}

mutual

/-- The tree has the node, or nothing, as its normal form. It is made of those of the children that
count. -/
inductive NormalForm (source : Source) : Tree → Option Node → Prop where
  | made {t : Tree} {ns : List Node} {o : Option Node} :
      NormalForms source (keptChildren t) ns → normalNode source t ns = .ok o →
      NormalForm source t o

/-- The trees have the nodes as their normal forms, each in the role of its tree; a tree that
becomes nothing leaves no trace. -/
inductive NormalForms (source : Source) : List Tree → List Node → Prop where
  | nil : NormalForms source [] []
  | cons {t : Tree} {ts : List Tree} {o : Option Node} {ns : List Node} :
      NormalForm source t o → NormalForms source ts ns →
      NormalForms source (t :: ts) ((o.map (inRole t)).toList ++ ns)

end

/-! ## Steps of the machine -/

/-- A child that is to come is entered, and the frame of its parent is put on the stack. -/
lemma convertFrom_child (t child : Tree) (pending : List Tree) (built : List Node)
    (stack : List Frame) :
    convertFrom source ⟨t, child :: pending, built⟩ stack =
      convertFrom source (.enter child) (⟨t, pending, built⟩ :: stack) := by
  rw [convertFrom]

/-- A node without further children is left, and its normal form goes to the frame below. -/
lemma convertFrom_leave {t : Tree} {built : List Node} {o : Option Node}
    (h : normalNode source t built.reverse = .ok o) (outer : Frame) (stack : List Frame) :
    convertFrom source ⟨t, [], built⟩ (outer :: stack) =
      convertFrom source (outer.add (o.map (inRole t))) stack := by
  rw [convertFrom, h]

lemma convertFrom_last {t : Tree} {built : List Node} {o : Option Node}
    (h : normalNode source t built.reverse = .ok o) :
    convertFrom source ⟨t, [], built⟩ [] = .ok o := by
  rw [convertFrom, h]

lemma Frame.add_mk (t : Tree) (pending : List Tree) (built : List Node) (o : Option Node) :
    Frame.add ⟨t, pending, built⟩ o = ⟨t, pending, o.toList.reverse ++ built⟩ := by
  cases o with
  | none => rfl
  | some n => rfl

/-! ## Runs of the machine -/

mutual

/-- Entering a tree comes to adding its normal form to the frame below. The two lemmas follow the
two relations. -/
lemma NormalForm.convertFrom {t : Tree} {o : Option Node} (outer : Frame) (stack : List Frame) :
    NormalForm source t o →
      convertFrom source (.enter t) (outer :: stack) =
        convertFrom source (outer.add (o.map (inRole t))) stack
  | .made hkids hnode => by
    rw [Frame.enter, hkids.convertFrom t [] (outer :: stack), List.append_nil]
    exact convertFrom_leave (by rwa [List.reverse_reverse]) outer stack

/-- The children that are to come are built one after another. -/
lemma NormalForms.convertFrom {ts : List Tree} {ns : List Node} (t : Tree) (built : List Node)
    (stack : List Frame) :
    NormalForms source ts ns →
      convertFrom source ⟨t, ts, built⟩ stack =
        convertFrom source ⟨t, [], ns.reverse ++ built⟩ stack
  | .nil => rfl
  | .cons hchild hothers => by
    rw [convertFrom_child, hchild.convertFrom, Frame.add_mk, hothers.convertFrom,
      List.reverse_append, List.append_assoc]

end

/-- A tree is converted to its normal form. -/
lemma NormalForm.convert {t : Tree} {n : Node} (h : NormalForm source t (some n)) :
    convert source t = .ok { n with role := none } := by
  obtain ⟨hkids, hnode⟩ := h
  have hrun : Java.convertFrom source (.enter t) [] = .ok (some n) := by
    rw [Frame.enter, hkids.convertFrom t [] [], List.append_nil]
    exact convertFrom_last (by rwa [List.reverse_reverse])
  rw [Java.convert, hrun]

/-! ## Conversion by recursion -/

mutual

/-- The normal form of a tree, or the first failure in it. What is inside of a literal or the like
is not looked at. -/
def normalOf (source : Source) : Tree → Except NormalFailure (Option Node)
  | ⟨type, field?, isNamed, isMissing, isFlagged, start, stop, children⟩ =>
    if opaqueTypes.contains type then
      normalNode source ⟨type, field?, isNamed, isMissing, isFlagged, start, stop, children⟩ []
    else
      normalsOf source children >>= normalNode source
        ⟨type, field?, isNamed, isMissing, isFlagged, start, stop, children⟩

/-- The normal forms of the trees that count, each in the role of its tree, or the first failure in
them. -/
def normalsOf (source : Source) : List Tree → Except NormalFailure (List Node)
  | [] => .ok []
  | t :: ts =>
    if t.isNamed && !t.isComment then do
      let o ← normalOf source t
      let ns ← normalsOf source ts
      .ok ((o.map (inRole t)).toList ++ ns)
    else normalsOf source ts

end

lemma normalsOf_cons (t : Tree) (ts : List Tree) :
    normalsOf source (t :: ts) =
      if t.isNamed && !t.isComment then
        normalOf source t >>= fun o => normalsOf source ts >>= fun ns =>
          .ok ((o.map (inRole t)).toList ++ ns)
      else normalsOf source ts :=
  rfl

/-- A tree that counts leaves its normal form. -/
theorem normalsOf_kept {t : Tree} (h : (t.isNamed && !t.isComment) = true) :
    normalsOf source [t] = normalOf source t >>= fun o => .ok (o.map (inRole t)).toList := by
  rw [normalsOf_cons, if_pos h]
  refine congrArg _ (funext fun o => ?_)
  exact congrArg Except.ok (List.append_nil _)

/-- Trees that do not count leave no trace. -/
theorem normalsOf_filter (ts : List Tree) :
    normalsOf source (ts.filter fun c => c.isNamed && !c.isComment) = normalsOf source ts := by
  induction ts with
  | nil => rfl
  | cons t ts ih =>
    rw [List.filter_cons]
    split
    case isTrue ht => rw [normalsOf_cons, normalsOf_cons, ih]
    case isFalse ht => rw [ih, normalsOf_cons, if_neg ht]

/-- The normal forms of two lists of trees are put together; a failure in the first comes first. -/
lemma normalsOf_append (ss ts : List Tree) :
    normalsOf source (ss ++ ts) =
      normalsOf source ss >>= fun ns => normalsOf source ts >>= fun ms => .ok (ns ++ ms) := by
  induction ss with
  | nil =>
    rw [List.nil_append]
    cases normalsOf source ts <;> simp [normalsOf, bind, Except.bind]
  | cons s ss ih =>
    rw [List.cons_append, normalsOf_cons, normalsOf_cons, ih]
    split
    · simp only [bind_assoc]
      refine congrArg _ (funext fun o => congrArg _ (funext fun ns => ?_))
      cases normalsOf source ts <;> simp [bind, Except.bind]
    · rfl

/-- The normal form of one tree among others. -/
lemma normalsOf_around (before : List Tree) (t : Tree) (after : List Tree) :
    normalsOf source (before ++ t :: after) =
      normalsOf source before >>= fun ns => normalsOf source [t] >>= fun os =>
        normalsOf source after >>= fun ms => .ok (ns ++ (os ++ ms)) := by
  have hsplit : before ++ t :: after = before ++ ([t] ++ after) := rfl
  rw [hsplit, normalsOf_append, normalsOf_append [t]]
  simp only [bind_assoc]
  refine congrArg _ (funext fun ns => congrArg _ (funext fun os => ?_))
  cases normalsOf source after <;> rfl

/-- The recursion on all children is one on those that count. -/
lemma normalOf_eq (t : Tree) :
    normalOf source t = normalsOf source (keptChildren t) >>= normalNode source t := by
  obtain ⟨type, field?, isNamed, isMissing, isFlagged, start, stop, children⟩ := t
  rw [normalOf, keptChildren]
  split
  · rfl
  · rw [normalsOf_filter]

/-- Where the machine goes on after a tree, once it is known what the tree comes to. -/
def resume (source : Source) (t : Tree) (stack : List Frame) :
    Except NormalFailure (Option Node) → Except NormalFailure (Option Node)
  | .error e => .error e
  | .ok o =>
    match stack with
    | [] => .ok o
    | outer :: stack => convertFrom source (outer.add (o.map (inRole t))) stack

/-- A frame with no children to come is left, with a failure or with a normal form. -/
lemma convertFrom_built (t : Tree) (built : List Node) (stack : List Frame) :
    convertFrom source ⟨t, [], built⟩ stack =
      resume source t stack (normalNode source t built.reverse) := by
  cases hn : normalNode source t built.reverse with
  | error e => rw [convertFrom, hn, resume]
  | ok o =>
    cases stack with
    | nil => rw [convertFrom_last hn, resume]
    | cons outer stack => rw [convertFrom_leave hn, resume]

lemma kept_of_mem_keptChildren {t c : Tree} (h : c ∈ keptChildren t) :
    (c.isNamed && !c.isComment) = true := by
  rw [keptChildren] at h
  split at h
  · cases h
  · exact (List.mem_filter.mp h).2

/-- A frame comes to what its node comes to with the nodes that are built and those of the children
to come. The recursion is on the size of these: the first of them is entered, and the others come
afterwards. -/
lemma convertFrom_eq (t : Tree) (pending : List Tree) (built : List Node) (stack : List Frame)
    (hkept : ∀ c ∈ pending, (c.isNamed && !c.isComment) = true) :
    convertFrom source ⟨t, pending, built⟩ stack =
      resume source t stack (normalsOf source pending >>= fun ns =>
        normalNode source t (built.reverse ++ ns)) := by
  match pending with
  | [] =>
    rw [convertFrom_built]
    exact congrArg (fun ns => resume source t stack (normalNode source t ns))
      (List.append_nil _).symm
  | child :: pending =>
    obtain ⟨hchild, hothers⟩ := List.forall_mem_cons.mp hkept
    -- The child is turned into a node on top of the frame, which waits below with what it has.
    have henter := convertFrom_eq child (keptChildren child) [] (⟨t, pending, built⟩ :: stack)
      fun c hc => kept_of_mem_keptChildren hc
    rw [convertFrom_child, Frame.enter, henter, normalsOf_cons, if_pos hchild, normalOf_eq]
    simp only [List.reverse_nil, List.nil_append]
    cases normalsOf source (keptChildren child) >>= normalNode source child with
    | error e => rfl
    | ok o =>
      have hnext :=
        convertFrom_eq t pending ((o.map (inRole child)).toList.reverse ++ built) stack hothers
      rw [resume, Frame.add_mk, hnext, List.reverse_append, List.reverse_reverse]
      cases normalsOf source pending with
      | error e => rfl
      | ok ns =>
        exact congrArg (fun ms => resume source t stack (normalNode source t ms))
          (List.append_assoc ..)
termination_by Tree.sizeList pending
decreasing_by
  · have hsize := Frame.sizeList_keptChildren child
    simp only [Tree.sizeList]
    omega
  · have hsize := Frame.sizeList_keptChildren child
    simp only [Tree.sizeList]
    omega

/-- The machine comes to the normal form, or to the first failure. -/
lemma convertFrom_enter (t : Tree) : convertFrom source (.enter t) [] = normalOf source t := by
  rw [Frame.enter, convertFrom_eq t (keptChildren t) [] [] fun c hc => kept_of_mem_keptChildren hc,
    normalOf_eq]
  simp only [List.reverse_nil, List.nil_append]
  cases normalsOf source (keptChildren t) >>= normalNode source t <;> rfl

/-- Trees with one normal form, or one failure, and one span are converted alike. -/
theorem convert_congr {t t' : Tree} (hform : normalOf source t' = normalOf source t)
    (hspan : spanOf source t' = spanOf source t) : convert source t' = convert source t := by
  rw [convert, convert, convertFrom_enter, convertFrom_enter, hform, hspan]

end ShapeLint.Java
