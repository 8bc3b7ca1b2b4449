import ShapeLint.Proofs.Parts
import ShapeLint.Proofs.Rendering
import ShapeLint.Proofs.Reported

/-!
# Where the parts of a pattern text lie

Each node that is read from a text has an extent, and the extents fit together as the nodes do.
`Sits` says so of one node and its parts: the extent is not empty and lies in the text, the extents
of the parts lie in it and follow each other, and a node without parts is spelled by exactly what
its extent covers. `Laid` says it of a node and of all that stands in it.

`Leaves` is how this comes out of the readers: it relates what is read from a text to what is left
of that text. What stands in front of a node may be longer and what is left behind it may be shorter
without changing where it lies (`Spans.widen`, `Spans.shorten`), so the readers between two parts do
not matter, and one lemma puts a node together from parts that are read one after another
(`spans_node`). The induction on the room closes the knot that `operandWithin` ties.
-/

namespace ShapeLint

/-! ## Tokens -/

section
variable {Lit Loc : Type}

/-- The parts of an expression in the order in which they are written: what it is applied to, and
then its arguments. -/
def Expr.parts (e : Expr Lit Loc) : List (Expr Lit Loc) :=
  e.operands ++ e.arguments

/-- Whether an expression is written as one token, with no parts in it. -/
def Expr.isLeaf : Expr Lit Loc → Bool
  | .wildcard _ | .reference _ _ | .literal _ _ | .anyLiteral _ _ | .null _ | .this _ | .anyLambda _
  | .anyArguments _ => true
  | _ => false

/-- The text is a token that the expression is written as, given what literals are spelled by. -/
def Expr.Token (spells : Lit → List Char → Prop) : Expr Lit Loc → List Char → Prop
  | .wildcard _, w => w = "_".toList
  | .reference name _, w => w = name.toList
  | .literal lit _, w => spells lit w
  | .anyLiteral type _, w => ∃ word ∈ type.words, w = ':' :: (word.toList ++ [':'])
  | .null _, w => w = "null".toList
  | .this _, w => w = "this".toList
  | .anyLambda _, w => w = ":lambda:".toList
  | .anyArguments _, w => w = "...".toList
  | _, _ => False

/-- What stands in a part of an expression stands in the expression. -/
lemma Expr.Within.of_part {part e whole : Expr Lit Loc} (hpart : part ∈ whole.parts)
    (h : e.Within part) :
    e.Within whole := by
  rcases List.mem_append.mp hpart with hmem | hmem
  · exact .operand hmem h
  · exact .argument hmem h

end

namespace Grammar

open Reader

/-- The text spells a literal in this way, and is a literal of that type. -/
def Spelling.Spells : Spelling → List Char → Prop
  | .double text, w => w = text ∧ DoubleText w
  | .integer text, w => w = text ∧ IntegerText w
  | .string text, w => w = text ∧ StringText w
  | .boolean b, w => w = (if b then "true" else "false").toList

/-! A token and what is left behind it are the text that it is taken from. -/

/-- What is left behind a token is the text without it. Tokens of characters are put together from
smaller ones, so this is shown of each way to do so. -/
def Cuts (f : List Char → Option (List Char × List Char)) : Prop :=
  ∀ s t rest, f s = some (t, rest) → s = t ++ rest

section Cuts

variable {p q : List Char → Option (List Char × List Char)}

lemma Cuts.followed (hp : Cuts p) (hq : Cuts q) : Cuts (followed p q) := by
  intro s t rest h
  obtain ⟨a, b, u, rfl, ha, hb⟩ := followed_inv h
  rw [List.append_assoc, ← hq u b rest hb]
  exact hp s a u ha

lemma Cuts.maybe (hp : Cuts p) : Cuts (maybe p) := by
  intro s t rest h
  unfold Grammar.maybe optionally at h
  cases hs : p s with
  | none =>
    rw [hs] at h
    obtain ⟨rfl, rfl⟩ := Prod.mk.inj (Option.some.inj h)
    rfl
  | some found =>
    rw [hs] at h
    obtain rfl : found = (t, rest) := Option.some.inj h
    exact hp s t rest hs

lemma Cuts.orElse (hp : Cuts p) (hq : Cuts q) : Cuts fun s => p s <|> q s := by
  intro s t rest h
  simp only [Option.orElse_eq_some] at h
  rcases h with hs | ⟨-, hs⟩
  · exact hp s t rest hs
  · exact hq s t rest hs

lemma cuts_fraction : Cuts fraction? := by
  intro s t rest h
  obtain ⟨rfl, rfl⟩ := Prod.mk.inj (Option.some.inj h)
  exact List.takeWhile_append_dropWhile.symm

lemma cuts_numeral : Cuts numeral? := by
  intro s t rest h
  unfold numeral? at h
  split at h
  · cases h
  case h_2 c s =>
    split at h
    case isTrue hc =>
      obtain ⟨rfl, rfl⟩ := Prod.mk.inj (Option.some.inj h)
      rw [List.cons_append, List.takeWhile_append_dropWhile]
    case isFalse => cases h

lemma cuts_point : Cuts point? := by
  intro s t rest h
  unfold point? at h
  split at h
  case h_1 s =>
    obtain ⟨rfl, rfl⟩ := Prod.mk.inj (Option.some.inj h)
    rfl
  case h_2 => cases h

lemma cuts_floatSuffix : Cuts floatSuffix? := by
  intro s t rest h
  unfold floatSuffix? at h
  split at h
  · cases h
  case h_2 c s =>
    split at h
    case isTrue hc =>
      obtain ⟨rfl, rfl⟩ := Prod.mk.inj (Option.some.inj h)
      rfl
    case isFalse => cases h

lemma cuts_exponent : Cuts exponent? := by
  intro s t rest h
  unfold exponent? at h
  split at h
  · cases h
  case h_2 c s =>
    split at h
    case isTrue hc =>
      dsimp only at h
      split at h
      · cases h
      · obtain ⟨rfl, rfl⟩ := Prod.mk.inj (Option.some.inj h)
        rw [List.append_assoc, List.takeWhile_append_dropWhile, List.cons_append, ← sign_eq]
    case isFalse => cases h

/-- A floating point literal is put together in one of four ways. -/
lemma cuts_doubleToken : Cuts doubleToken? := by
  have hending := cuts_exponent.maybe.followed cuts_floatSuffix.maybe
  have hbehind := cuts_numeral.followed (cuts_point.followed (cuts_fraction.followed hending))
  have hinFront := cuts_point.followed (cuts_numeral.followed hending)
  have hexponent := cuts_numeral.followed (cuts_exponent.followed cuts_floatSuffix.maybe)
  have hsuffix := cuts_numeral.followed cuts_floatSuffix
  exact hbehind.orElse (hinFront.orElse (hexponent.orElse hsuffix))

lemma cuts_markedToken {lower upper : Char} {class_ : Char → Bool} :
    Cuts (markedToken? lower upper class_) := by
  intro s t rest h
  unfold markedToken? at h
  split at h
  case h_1 c s =>
    split at h
    case isTrue hc =>
      dsimp only at h
      split at h
      · cases h
      · obtain ⟨rfl, rfl⟩ := Prod.mk.inj (Option.some.inj h)
        rw [List.cons_append, List.cons_append, List.takeWhile_append_dropWhile]
    case isFalse => cases h
  case h_2 => cases h

lemma cuts_integerToken : Cuts integerToken? :=
  cuts_markedToken.orElse (cuts_markedToken.orElse cuts_numeral)

end Cuts

/-- What is read as the inside of a string literal ends in the quotation mark that closes it. -/
lemma exists_of_stringBody? {s body rest : List Char} (h : stringBody? s = some (body, rest)) :
    ∃ inner, body = inner ++ ['"'] ∧ StringBody inner ∧ s = body ++ rest := by
  fun_induction stringBody? s generalizing body with
  | case1 => cases h
  | case2 => cases h
  | case3 => cases h
  | case4 c s hc ih =>
    obtain ⟨⟨body', rest'⟩, hrest, heq⟩ := Option.map_eq_some_iff.mp h
    obtain ⟨rfl, rfl⟩ := Prod.mk.inj heq
    obtain ⟨inner, rfl, hinner, rfl⟩ := ih hrest
    exact ⟨'\\' :: c :: inner, rfl, .escaped hc hinner, rfl⟩
  | case5 s =>
    obtain ⟨rfl, rfl⟩ := Prod.mk.inj (Option.some.inj h)
    exact ⟨[], rfl, .nil, rfl⟩
  | case6 => cases h
  -- The character is none of those that end a literal or have a meaning in it.
  | case7 c s hend hescape hquote hline ih =>
    obtain ⟨⟨body', rest'⟩, hrest, heq⟩ := Option.map_eq_some_iff.mp h
    obtain ⟨rfl, rfl⟩ := Prod.mk.inj heq
    obtain ⟨inner, rfl, hinner, rfl⟩ := ih hrest
    refine ⟨c :: inner, rfl, .plain ?_ hinner, rfl⟩
    have hslash := ne_backslash hend hescape
    simp only [not_or] at hline
    simp [hquote, hslash, hline]

/-- What is read as a string literal is spelled like one, and is taken from the front of the
text. -/
theorem stringText_of_stringToken? {s t rest : List Char} (h : stringToken? s = some (t, rest)) :
    StringText t ∧ s = t ++ rest := by
  unfold stringToken? at h
  split at h
  case h_1 s =>
    obtain ⟨⟨body, rest'⟩, hrest, heq⟩ := Option.map_eq_some_iff.mp h
    obtain ⟨rfl, rfl⟩ := Prod.mk.inj heq
    obtain ⟨inner, rfl, hinner, rfl⟩ := exists_of_stringBody? hrest
    exact ⟨⟨inner, rfl, hinner⟩, rfl⟩
  case h_2 => cases h

/-! ## What is read and what is left -/

namespace Reader

variable {α β : Type}

/-- Whatever is read from the text, it and what is left of the text are so related. Unlike `Yields`,
this relates the two to each other and to the text that is read. -/
def Leaves (p : Reader α) (s : List Char) (Q : α → List Char → Prop) : Prop :=
  ∀ mark, (p mark s).Meets (fun a rest _ => Q a rest) (fun _ => True) True

section
variable {p q : Reader α} {s : List Char} {P Q : α → List Char → Prop}

lemma leaves_true (p : Reader α) (s : List Char) : Leaves p s fun _ _ => True := by
  intro mark
  cases p mark s <;> trivial

lemma Leaves.mono (h : Leaves p s P) (hPQ : ∀ a rest, P a rest → Q a rest) : Leaves p s Q :=
  fun mark => (h mark).imp (fun a rest _ => hPQ a rest) (fun _ h => h) fun h => h

lemma leaves_pure {a : α} (h : Q a s) : Leaves (pure a) s Q :=
  fun _ => h

/-- What the first reader leaves is what the second one reads from. -/
lemma Leaves.bind {f : α → Reader β} {R : β → List Char → Prop} (hp : Leaves p s P)
    (hf : ∀ a t, P a t → Leaves (f a) t R) : Leaves (p >>= f) s R :=
  fun mark => meets_bind.mpr
    ((hp mark).imp (fun a t mark' h => hf a t h mark') (fun _ h => h) fun h => h)

/-- Counting what is left takes nothing from the text. -/
lemma leaves_left_bind {f : Nat → Reader β} {R : β → List Char → Prop}
    (h : Leaves (f s.length) s R) :
    Leaves (left >>= f) s R :=
  fun mark => h mark

lemma Leaves.orElse (hp : Leaves p s Q) (hq : Leaves q s Q) : Leaves (orElse p q) s Q :=
  fun mark => meets_orElse.mpr
    ((hp mark).imp (fun _ _ _ h => h) (fun mark' _ => hq mark') fun h => h)

lemma leaves_firstOf {ps : List (Reader α)} (h : ∀ p ∈ ps, Leaves p s Q) :
    Leaves (firstOf ps) s Q := by
  induction ps with
  | nil => exact fun _ => trivial
  | cons p ps ih =>
    obtain ⟨hp, hps⟩ := List.forall_mem_cons.mp h
    exact hp.orElse (ih hps)

/-- A reader that reads nothing leaves the text as it is. -/
lemma Leaves.optional {Q : Option α → List Char → Prop} (hp : Leaves p s fun a => Q (some a))
    (hnone : Q none s) :
    Leaves (optional p) s Q :=
  fun mark => meets_optional.mpr ((hp mark).imp (fun _ _ _ h => h) (fun _ _ => hnone) fun h => h)

/-- Looking ahead takes nothing from the text. -/
lemma leaves_butNot (p : Reader α) (s : List Char) :
    Leaves (butNot p) s fun _ rest => rest = s := by
  intro mark
  rw [meets_butNot]
  cases p mark s <;> trivial

lemma Leaves.rule (hp : Leaves p s Q) : Leaves (rule p) s Q :=
  fun mark => meets_rule.mpr ((hp mark).imp (fun _ _ _ h => h) (fun _ _ => trivial) fun h => h)

lemma leaves_lexeme {f : List Char → Option (α × List Char)}
    (h : ∀ a rest, f s = some (a, rest) → Q a rest) :
    Leaves (lexeme f) s Q :=
  fun _ => meets_lexeme h fun _ => trivial

lemma leaves_word (w : String) (s : List Char) :
    Leaves (word w) s fun _ rest => s = w.toList ++ rest :=
  fun _ => meets_word (fun _ h => h) trivial

/-- What each item keeps of the items so far and of the text, the repetition keeps. An item may
depend on those before it, as each selector takes all that has been read as its receiver. -/
lemma Leaves.many {Q : List α → List Char → Prop}
    (hp : ∀ as t, Q as t → Leaves p t fun a rest => Q (as ++ [a]) rest) (hs : Q [] s) :
    Leaves (many p) s Q := by
  -- the items so far are what changes along the text
  have hmany : ∀ mark s before, Q before s →
      (Reader.many p mark s).Meets (fun as rest _ => Q (before ++ as) rest) (fun _ => True)
        True := by
    intro mark s
    fun_induction Reader.many p mark s with
    | case1 => exact fun _ _ => trivial
    | case2 mark s mark' hread =>
      intro before hbefore
      change Q (before ++ []) s
      rwa [List.append_nil]
    | case3 mark s a t mark' hread hlt as rest mark'' hothers ih =>
      intro before hbefore
      have hitem := hp before s hbefore mark
      rw [hread] at hitem
      have hrest := ih (before ++ [a]) hitem
      rw [hothers] at hrest
      change Q (before ++ a :: as) rest
      rw [List.append_cons]
      exact hrest
    | case4 mark s a t mark' hread hlt hno ih =>
      intro before hbefore
      cases hothers : Reader.many p mark' t with
      | ok as rest mark'' => exact absurd hothers (hno as rest mark'')
      | fail mark'' => trivial
      | deep => trivial
    | case5 mark s a t mark' hread hge =>
      intro before hbefore
      have hitem := hp before s hbefore mark
      rwa [hread] at hitem
  exact fun mark => hmany mark s [] hs

end

end Reader

/-- A reader that is known to take a part from the front of a text leaves the rest of it. -/
lemma Balances.leaves {α : Type} {n k : Nat} {d : Int} {p : Reader α} (h : Balances n k d p)
    (s : List Char) :
    Leaves p s fun _ rest => rest <:+ s := by
  intro mark
  refine (h mark s).imp ?_ (fun _ h => h) fun _ => trivial
  rintro a rest mark' ⟨w, rfl, -⟩
  exact List.suffix_append w rest

/-- The same for an option, where nothing read means nothing taken. -/
lemma Balances.leaves_optional {α : Type} {n k : Nat} {d : Int} {p : Reader α}
    (h : Balances n k d p) (s : List Char) :
    Leaves (Reader.optional p) s fun o rest => rest <:+ s ∧ (o = none → rest = s) :=
  Leaves.optional ((h.leaves s).mono fun _ _ hrest => ⟨hrest, nofun⟩)
    ⟨List.suffix_refl s, fun _ => rfl⟩

lemma leaves_skip (s : List Char) : Leaves skip s fun _ rest => rest <:+ s :=
  (balances_skip : Balances 0 0 0 skip).leaves s

/-- A name is taken from the front of the text, and it is not empty. -/
lemma leaves_identifier (s : List Char) :
    Leaves identifier s fun name rest => s = name.toList ++ rest ∧ rest.length < s.length := by
  intro mark
  cases hread : identifier mark s with
  | fail | deep => trivial
  | ok name rest mark' =>
    obtain ⟨⟨⟨c, cs, hname, -⟩, -⟩, -, rfl, -⟩ := exists_of_identifier hread
    refine ⟨rfl, ?_⟩
    rw [hname, List.length_append, List.length_cons]
    omega

/-- The extent of a leaf goes from the start of the text to what is left of it. -/
lemma Leaves.leaf {α : Type} {p : Reader α} {node : α → Extent → Surface} {s : List Char}
    {P : α → List Char → Prop} {Q : Surface → List Char → Prop} (hp : Leaves p s P)
    (hnode : ∀ a rest, P a rest → Q (node a ⟨s.length, rest.length⟩) rest) :
    Leaves (leaf p node) s Q :=
  Leaves.rule (leaves_left_bind (Leaves.bind hp fun a rest h =>
    leaves_left_bind (leaves_pure (hnode a rest h))))

/-! ## Extents -/

/-- Where a node lies in a text, and where its parts lie in it. Extents count what is left of the
text, so that the larger number comes first. -/
structure Sits (s : List Char) (e : Surface) : Prop where
  proper : e.loc.after < e.loc.before
  bounded : e.loc.before ≤ s.length
  inside : ∀ part ∈ e.parts, part.loc.before ≤ e.loc.before ∧ e.loc.after ≤ part.loc.after
  ordered : e.parts.Pairwise fun a b => b.loc.before ≤ a.loc.after
  /-- What the extent of a leaf covers is the token of the leaf. -/
  spelled : e.isLeaf = true → ∃ u w v, s = u ++ (w ++ v) ∧ e.loc = ⟨(w ++ v).length, v.length⟩ ∧
    e.Token Spelling.Spells w

/-- All that stands in an expression lies in the text as it should, the expression itself
included. -/
def Laid (s : List Char) (e : Surface) : Prop :=
  ∀ part : Surface, part.Within e → Sits s part

/-- A node lies at the same place of a text that has more in front. -/
lemma Sits.widen {s t : List Char} {e : Surface} (h : Sits s e) (hs : s <:+ t) : Sits t e where
  proper := h.proper
  bounded := h.bounded.trans hs.length_le
  inside := h.inside
  ordered := h.ordered
  spelled hleaf := by
    obtain ⟨u, w, v, rfl, hloc, htoken⟩ := h.spelled hleaf
    obtain ⟨before, rfl⟩ := hs
    exact ⟨before ++ u, w, v, (List.append_assoc ..).symm, hloc, htoken⟩

/-- A node that sits in a text and whose parts are laid in it is laid in it. -/
lemma laid_of_parts {s : List Char} {e : Surface} (h : Sits s e)
    (hparts : ∀ part ∈ e.parts, Laid s part) : Laid s e := by
  intro part hwithin
  cases hwithin with
  | self => exact h
  | operand hmem hwithin => exact hparts _ (List.mem_append_left _ hmem) part hwithin
  | argument hmem hwithin => exact hparts _ (List.mem_append_right _ hmem) part hwithin

/-- The expression is laid in a text and ends before what is left of that text. This is what a
reader is asked for, because where an expression ends decides where the next one may begin. -/
structure Spans (s : List Char) (e : Surface) (rest : List Char) : Prop where
  suffix : rest <:+ s
  after : rest.length ≤ e.loc.after
  laid : Laid s e

/-- The expressions are laid in a text one after another, before what is left of that text. -/
structure Lists (s : List Char) (es : List Surface) (rest : List Char) : Prop where
  suffix : rest <:+ s
  each : ∀ e ∈ es, Spans s e rest
  ordered : es.Pairwise fun a b => b.loc.before ≤ a.loc.after

section
variable {s t rest : List Char} {e : Surface} {es : List Surface}

lemma Spans.sits (h : Spans s e rest) : Sits s e :=
  h.laid e .self

/-- What stands in front of a text does not change where an expression lies. -/
lemma Spans.widen (h : Spans s e rest) (hs : s <:+ t) : Spans t e rest :=
  ⟨h.suffix.trans hs, h.after, fun part hpart => (h.laid part hpart).widen hs⟩

/-- What is read behind an expression does not change where it lies. -/
lemma Spans.shorten (h : Spans s e t) (ht : rest <:+ t) : Spans s e rest :=
  ⟨ht.trans h.suffix, ht.length_le.trans h.after, h.laid⟩

lemma Lists.widen (h : Lists s es rest) (hs : s <:+ t) : Lists t es rest :=
  ⟨h.suffix.trans hs, fun e he => (h.each e he).widen hs, h.ordered⟩

lemma Lists.shorten (h : Lists s es t) (ht : rest <:+ t) : Lists s es rest :=
  ⟨ht.trans h.suffix, fun e he => (h.each e he).shorten ht, h.ordered⟩

lemma lists_nil (h : rest <:+ s) : Lists s [] rest :=
  ⟨h, fun _ he => absurd he List.not_mem_nil, .nil⟩

/-- Expressions that are read from a text and then from what is left of it follow each other. -/
lemma Lists.append {es' : List Surface} (h : Lists s es t) (h' : Lists t es' rest) :
    Lists s (es ++ es') rest where
  suffix := h'.suffix.trans h.suffix
  each := by
    intro e he
    rcases List.mem_append.mp he with he | he
    · exact (h.each e he).shorten h'.suffix
    · exact (h'.each e he).widen h.suffix
  ordered := by
    refine List.pairwise_append.mpr ⟨h.ordered, h'.ordered, fun a ha b hb => ?_⟩
    -- the second list starts in what the first one has left
    exact ((h'.each b hb).sits.bounded).trans (h.each a ha).after

lemma Spans.lists (h : Spans s e rest) : Lists s [e] rest :=
  ⟨h.suffix, List.forall_mem_singleton.mpr h, List.pairwise_singleton ..⟩

/-- A node is laid in a text if its parts are, one after another, and its extent goes from before
the first of them to what is left of the text. Every node with parts comes out of this. -/
lemma spans_node {before : Nat} (hloc : e.loc = ⟨before, rest.length⟩) (hleaf : e.isLeaf = false)
    (hparts : Lists s e.parts rest) (hfirst : ∀ part ∈ e.parts, part.loc.before ≤ before)
    (hproper : rest.length < before) (hbefore : before ≤ s.length) : Spans s e rest := by
  refine ⟨hparts.suffix,
    by rw [hloc], laid_of_parts ?_ fun part hpart => (hparts.each part hpart).laid⟩
  refine ⟨by rwa [hloc], by rwa [hloc], fun part hpart => ?_, hparts.ordered, fun h => ?_⟩
  · rw [hloc]
    exact ⟨hfirst part hpart, (hparts.each part hpart).after⟩
  · rw [hleaf] at h
    cases h

/-- A node that starts where the text does: a prefix operator, a call, a creation. -/
lemma spans_front (hloc : e.loc = ⟨s.length, rest.length⟩) (hleaf : e.isLeaf = false)
    (hparts : Lists s e.parts rest) (hproper : rest.length < s.length) : Spans s e rest :=
  spans_node hloc hleaf hparts (fun part hpart => (hparts.each part hpart).sits.bounded) hproper
    (Nat.le_refl _)

/-- A node that starts where its first part does: a binary operator, a type test, a selector. -/
lemma spans_behind {first : Surface} (hfirst : Spans s first t) (hothers : Lists t es rest)
    (hparts : e.parts = first :: es) (hloc : e.loc = ⟨first.loc.before, rest.length⟩)
    (hleaf : e.isLeaf = false) : Spans s e rest := by
  have hafter := hfirst.after
  have hlt := hfirst.sits.proper
  have hrest := hothers.suffix.length_le
  have hlist : Lists s e.parts rest := hparts ▸ hfirst.lists.append hothers
  refine spans_node hloc hleaf hlist (fun part hpart => ?_) (by omega) hfirst.sits.bounded
  rw [hparts] at hpart
  rcases List.mem_cons.mp hpart with rfl | hpart
  · exact Nat.le_refl _
  · have hbounded := (hothers.each part hpart).sits.bounded
    omega

/-- A leaf is laid in a text that starts with its token. -/
lemma spans_leaf {w : List Char} (hs : s = w ++ rest) (hw : w ≠ [])
    (hloc : e.loc = ⟨s.length, rest.length⟩) (hparts : e.parts = [])
    (htoken : e.Token Spelling.Spells w) : Spans s e rest := by
  have hlength : s.length = w.length + rest.length := by rw [hs, List.length_append]
  have hpos := List.length_pos_iff.mpr hw
  refine ⟨hs ▸ List.suffix_append w rest, by rw [hloc], laid_of_parts ?_ (by simp [hparts])⟩
  refine ⟨by rw [hloc]; dsimp only; omega, by rw [hloc], by simp [hparts], by simp [hparts],
    fun _ => ?_⟩
  exact ⟨[], w, rest, hs, by rw [hloc, hs], htoken⟩

end

/-! ## Leaves -/

/-- Whatever the reader reads from a text is laid in it, up to what the reader leaves. -/
def Places (p : Reader Surface) : Prop :=
  ∀ s, Leaves p s (Spans s)

/-- A reader of tokens places a leaf, if the token is not empty and the node is written so. -/
lemma places_leaf {α : Type} {p : Reader α} {node : α → Extent → Surface}
    {token : α → List Char → Prop}
    (hp : ∀ s, Leaves p s fun a rest => ∃ w, s = w ++ rest ∧ w ≠ [] ∧ token a w)
    (hloc : ∀ a x, (node a x).loc = x) (hparts : ∀ a x, (node a x).parts = [])
    (hnode : ∀ a x w, token a w → (node a x).Token Spelling.Spells w) :
    Places (leaf p node) := by
  intro s
  refine Leaves.leaf (hp s) fun a rest h => ?_
  obtain ⟨w, hs, hw, htoken⟩ := h
  exact spans_leaf hs hw (hloc a _) (hparts a _) (hnode a _ w htoken)

lemma places_anyArguments : Places anyArguments := by
  refine places_leaf (fun s => ?_) (fun _ _ => rfl) (fun _ _ => rfl) fun _ _ _ h => h
  exact (leaves_word "..." s).mono fun _ rest h => ⟨_, h, by decide, rfl⟩

lemma places_wildcard : Places wildcard := by
  refine places_leaf (fun s => ?_) (fun _ _ => rfl) (fun _ _ => rfl) fun _ _ _ h => h
  refine (leaves_word "_" s).bind fun _ t ht =>
    (leaves_butNot nameChar t).mono fun _ rest hrest => ?_
  exact ⟨_, hrest ▸ ht, by decide, rfl⟩

lemma places_reference : Places reference := by
  refine places_leaf (fun s => ?_) (fun _ _ => rfl) (fun _ _ => rfl) fun _ _ _ h => h
  refine (leaves_identifier s).mono fun name rest ⟨hs, hlt⟩ => ⟨_, hs, ?_, rfl⟩
  intro hnil
  rw [hs, hnil, List.nil_append] at hlt
  exact Nat.lt_irrefl _ hlt

/-- The six words between colons are those that the literal types are written with, and the one for
a lambda. -/
lemma places_anyOfType : Places anyOfType := by
  -- The token is the word between its two colons.
  have htoken : ∀ s, Leaves (do
      word ":"
      let type ← rule (lexeme (leadingWord? typeWords))
      word ":"
      pure type) s fun type rest =>
        ∃ w, s = w ++ rest ∧ w ≠ [] ∧ type ∈ typeWords ∧ w = ':' :: (type.toList ++ [':']) := by
    intro s
    refine (leaves_word ":" s).bind fun _ s₁ h₁ => (Leaves.rule (leaves_lexeme fun type s₂ h₂ =>
      eq_append_of_leadingWord? h₂)).bind fun type s₂ h₂ => (leaves_word ":" s₂).bind fun _ s₃ h₃ =>
        leaves_pure ?_
    exact ⟨':' :: (type.toList ++ [':']), by rw [h₁, h₂.2, h₃]; simp, List.cons_ne_nil _ _, h₂.1,
      rfl⟩
  refine places_leaf htoken (fun type x => ?_) (fun type x => ?_) fun type x w ⟨htype, hw⟩ => ?_
  · split <;> rfl
  · split <;> rfl
  · subst hw
    simp only [typeWords, List.mem_cons, List.not_mem_nil, or_false] at htype
    rcases htype with rfl | rfl | rfl | rfl | rfl | rfl <;> simp [Expr.Token, LiteralType.words]

lemma places_keyword : Places keyword := by
  have htoken : ∀ s, Leaves (lexeme (wordToken? ["true", "false", "null", "this"])) s fun w rest =>
      ∃ u, s = u ++ rest ∧ u ≠ [] ∧ w ∈ ["true", "false", "null", "this"] ∧ u = w.toList := by
    refine fun s => leaves_lexeme fun w rest h => ?_
    obtain ⟨hw, hs⟩ := eq_append_of_wordToken? h
    have hne : ∀ w ∈ ["true", "false", "null", "this"], w.toList ≠ [] := by decide
    exact ⟨w.toList, hs, hne w hw, hw, rfl⟩
  refine places_leaf htoken (fun w x => ?_) (fun w x => ?_) fun w x u ⟨hw, hu⟩ => ?_
  · split <;> rfl
  · split <;> rfl
  · subst hu
    simp only [List.mem_cons, List.not_mem_nil, or_false] at hw
    rcases hw with rfl | rfl | rfl | rfl <;> simp [Expr.Token, Spelling.Spells]

/-- A token that is a literal. -/
lemma places_spelled {f : List Char → Option (List Char × List Char)}
    {spelling : List Char → Spelling}
    (h : ∀ s t rest, f s = some (t, rest) → s = t ++ rest ∧ t ≠ [] ∧ (spelling t).Spells t) :
    Places (leaf (lexeme f) fun text => .literal (spelling text)) := by
  have htoken : ∀ s, Leaves (lexeme f) s fun t rest =>
      ∃ w, s = w ++ rest ∧ w ≠ [] ∧ (spelling t).Spells w :=
    fun s => leaves_lexeme fun t rest hf => ⟨t, h s t rest hf⟩
  exact places_leaf htoken (fun _ _ => rfl) (fun _ _ => rfl) fun _ _ _ hw => hw

lemma places_literal : Places literal := by
  refine fun s => Leaves.rule (leaves_firstOf ?_)
  simp only [List.forall_mem_cons, List.not_mem_nil, false_imp_iff, implies_true, and_true]
  refine ⟨places_spelled (fun s t rest h => ?_) s, places_spelled (fun s t rest h => ?_) s,
    places_spelled (fun s t rest h => ?_) s⟩
  · have htext := doubleText_of_doubleToken? h
    obtain ⟨c, u, hhead, -⟩ := htext.head []
    rw [List.append_nil] at hhead
    exact ⟨cuts_doubleToken s t rest h, by simp [hhead], rfl, htext⟩
  · have htext := integerText_of_integerToken? h
    obtain ⟨c, u, hhead, -⟩ := htext.head []
    rw [List.append_nil] at hhead
    exact ⟨cuts_integerToken s t rest h, by simp [hhead], rfl, htext⟩
  · obtain ⟨htext, hs⟩ := stringText_of_stringToken? h
    obtain ⟨body, rfl, -⟩ := id htext
    exact ⟨hs, List.cons_ne_nil _ _, rfl, htext⟩

/-! ## Brackets

From here on `expression` reads what stands in brackets, and places it. -/

section
variable {expression : Reader Surface} (hexpr : Places expression)
include hexpr

lemma places_argument : Places (argument expression) :=
  fun s => Leaves.rule ((places_anyArguments s).orElse (hexpr s))

/-- Arguments follow each other. The invariant of the repetition is that those so far do. -/
lemma lists_argumentList (s : List Char) : Leaves (argumentList expression) s (Lists s) := by
  refine Leaves.rule ((places_argument hexpr s).bind fun first t hfirst => ?_)
  refine Leaves.bind
    (Leaves.many (Q := fun others => Lists s (first :: others)) (fun others u hothers => ?_)
      hfirst.lists)
    fun _ _ h => leaves_pure h
  refine (leaves_skip u).bind fun _ u₁ h₁ => (leaves_word "," u₁).bind fun _ u₂ h₂ =>
    (leaves_skip u₂).bind fun _ u₃ h₃ => (places_argument hexpr u₃).mono fun e rest he => ?_
  have hsuffix : u₃ <:+ u := h₃.trans ((h₂ ▸ List.suffix_append _ _).trans h₁)
  exact hothers.append (he.widen hsuffix).lists

lemma lists_arguments (s : List Char) : Leaves (arguments expression) s (Lists s) := by
  refine Leaves.rule ((leaves_skip s).bind fun _ s₁ h₁ => (leaves_word "(" s₁).bind fun _ s₂ h₂ =>
    (leaves_skip s₂).bind fun _ s₃ h₃ => ?_)
  have hsuffix : s₃ <:+ s := h₃.trans ((h₂ ▸ List.suffix_append _ _).trans h₁)
  refine Leaves.bind (Leaves.optional (Q := fun args => Lists s (args.getD [])) ?_
    (lists_nil hsuffix)) fun args t hargs => ?_
  · exact (lists_argumentList hexpr s₃).mono fun _ _ h => h.widen hsuffix
  · refine (leaves_skip t).bind fun _ t₁ h₁ => (leaves_word ")" t₁).rule.bind fun _ t₂ h₂ =>
      leaves_pure ?_
    exact hargs.shorten ((h₂ ▸ List.suffix_append _ _).trans h₁)

/-- Parentheses are not in the extent of what stands in them. -/
lemma places_grouped : Places (grouped expression) := by
  refine fun s => Leaves.rule ((leaves_word "(" s).bind fun _ s₁ h₁ =>
    (leaves_skip s₁).bind fun _ s₂ h₂ => (hexpr s₂).bind fun e t he =>
      (leaves_skip t).bind fun _ t₁ h₃ => (leaves_word ")" t₁).rule.bind fun _ t₂ h₄ =>
      leaves_pure ?_)
  exact (he.widen (h₂.trans (h₁ ▸ List.suffix_append _ _))).shorten
    ((h₄ ▸ List.suffix_append _ _).trans h₃)

/-- A creation starts with its word, so its extent is that of the text it is read from. -/
lemma places_creation : Places (creation expression) := by
  intro s
  refine Leaves.leaf (P := fun parts rest => Lists s parts.2 rest ∧ rest.length < s.length) ?_
    fun parts rest h => ?_
  · refine (leaves_word "new" s).bind fun _ s₁ h₁ => (leaves_butNot nameChar s₁).bind fun _ s₂ h₂ =>
      (leaves_skip s₂).bind fun _ s₃ h₃ => (leaves_identifier s₃).bind fun name s₄ h₄ =>
        (lists_arguments hexpr s₄).bind fun args rest hargs => leaves_pure ?_
    have hsuffix : s₃ <:+ s := h₃.trans (h₂ ▸ h₁ ▸ List.suffix_append _ _)
    have hname : s₄ <:+ s₃ := h₄.1 ▸ List.suffix_append _ _
    exact ⟨hargs.widen (hname.trans hsuffix),
      (hargs.suffix.length_le.trans_lt h₄.2).trans_le hsuffix.length_le⟩
  · exact spans_front rfl rfl h.1 h.2

lemma places_call : Places (call expression) := by
  intro s
  refine Leaves.leaf (P := fun parts rest => Lists s parts.2 rest ∧ rest.length < s.length) ?_
    fun parts rest h => ?_
  · refine (leaves_identifier s).bind fun name s₁ h₁ =>
      (lists_arguments hexpr s₁).bind fun args rest hargs => leaves_pure ?_
    exact ⟨hargs.widen (h₁.1 ▸ List.suffix_append _ _), hargs.suffix.length_le.trans_lt h₁.2⟩
  · exact spans_front rfl rfl h.1 h.2

/-! ## Selectors and prefix operators -/

/-- The parts of a selector are laid in a text, and the selector ends where so much is left of it.
Where it begins is not said, since the node that it makes begins with the receiver. -/
def Selector.Spans (s : List Char) (x : Selector) (rest : List Char) : Prop :=
  match x with
  | .field _ after => after = rest.length ∧ Lists s [] rest
  | .method _ args after => after = rest.length ∧ Lists s args rest
  | .index e after => after = rest.length ∧ Lists s [e] rest

omit hexpr in
/-- Attaching a selector to a receiver in front of it gives a node in the text. -/
lemma Selector.Spans.attach {s t rest : List Char} {e : Surface} {x : Selector}
    (he : Grammar.Spans s e t) (hx : x.Spans t rest) :
    Grammar.Spans s (Selector.attach e x) rest := by
  cases x with
  | field | method | index =>
    obtain ⟨rfl, hparts⟩ := hx
    exact spans_behind he hparts rfl rfl rfl

lemma spans_member (s : List Char) : Leaves (member expression) s fun x rest => x.Spans s rest := by
  refine Leaves.rule ((leaves_word "." s).bind fun _ s₁ h₁ => (leaves_skip s₁).bind fun _ s₂ h₂ =>
    (leaves_identifier s₂).bind fun name s₃ h₃ => ?_)
  have hsuffix : s₃ <:+ s :=
    (h₃.1 ▸ List.suffix_append _ _).trans (h₂.trans (h₁ ▸ List.suffix_append _ _))
  refine Leaves.bind
    (Leaves.optional (Q := fun args rest => Lists s (args.getD []) rest) ?_ (lists_nil hsuffix))
    fun args rest hargs => leaves_left_bind (leaves_pure ?_)
  · exact (lists_arguments hexpr s₃).mono fun _ _ h => h.widen hsuffix
  · cases args with
    | none | some => exact ⟨rfl, hargs⟩

end

section
variable {nested : Nested} (hnested : ∀ opening, Places (nested.expression opening))
include hnested

lemma places_primary : Places (primary nested) := by
  refine fun s => Leaves.rule (leaves_firstOf ?_)
  simp only [List.forall_mem_cons, List.not_mem_nil, false_imp_iff, implies_true, and_true]
  exact ⟨places_grouped (hnested .group) s, places_creation (hnested .creation) s,
    places_anyOfType s, places_literal s, places_keyword s,
    places_wildcard s, places_call (hnested .call) s, places_reference s⟩

lemma spans_index (s : List Char) : Leaves (index nested) s fun x rest => x.Spans s rest := by
  refine Leaves.rule ((leaves_word "[" s).bind fun _ s₁ h₁ => (leaves_skip s₁).bind fun _ s₂ h₂ =>
    (leaves_butNot _ s₂).bind fun _ s₃ h₃ => (hnested .index s₃).bind fun e t he =>
      (leaves_skip t).bind fun _ t₁ h₄ => (leaves_word "]" t₁).rule.bind fun _ t₂ h₅ =>
        leaves_left_bind (leaves_pure ⟨rfl, Spans.lists ?_⟩))
  exact (he.widen (h₃ ▸ h₂.trans (h₁ ▸ List.suffix_append _ _))).shorten
    ((h₅ ▸ List.suffix_append _ _).trans h₄)

lemma spans_selector (s : List Char) : Leaves (selector nested) s fun x rest => x.Spans s rest := by
  refine Leaves.rule ((leaves_skip s).bind fun _ t ht => ?_)
  have heither := (spans_member (hnested .member) t).orElse (spans_index hnested t)
  refine heither.mono fun x rest hx => ?_
  cases x with
  | field | method | index => exact ⟨hx.1, hx.2.widen ht⟩

/-- The receiver grows by one selector after the other. That the node so far spans the text is the
invariant of the loop. -/
lemma places_selected : Places (selected nested) := by
  intro s
  refine Leaves.rule (leaves_left_bind ((places_primary hnested s).bind fun head t hhead => ?_))
  refine Leaves.bind
    (Leaves.many (Q := fun xs => Spans s (xs.foldl Selector.attach head)) (fun xs u hxs => ?_)
      hhead)
    fun selectors u hresult => ?_
  · refine (spans_selector hnested u).mono fun x rest hx => ?_
    rw [List.foldl_append]
    exact hx.attach hxs
  -- the step behind, if there is one, takes the whole as its operand
  have hstep : Leaves stepBehind u fun _ rest => rest <:+ u := by
    refine Leaves.rule ((leaves_skip u).bind fun _ u₁ h₁ => ?_)
    exact ((balances_updateOperator : Balances 0 1 0 updateOperator).leaves u₁).mono fun _ _ h =>
      h.trans h₁
  refine Leaves.bind (Leaves.optional (Q := fun _ rest => rest <:+ u) hstep (List.suffix_refl u))
    fun step rest hrest => ?_
  have hshort := hresult.shorten hrest
  cases step with
  | none => exact leaves_pure hshort
  | some up =>
    have hlt : rest.length < s.length :=
      hshort.after.trans_lt (hshort.sits.proper.trans_le hshort.sits.bounded)
    exact leaves_left_bind (leaves_pure (spans_front rfl rfl hshort.lists hlt))

/-- A prefix operator starts at the front of the text, and its operand lies behind it. -/
lemma places_prefixed {operand : Reader Surface} (hoperand : Places operand) :
    Places (prefixed operand nested) := by
  intro s
  -- a prefix operator and its operand, whichever operator it is
  have hprefix : ∀ (t : List Char) (node : Surface → Extent → Surface), t <:+ s →
      (∀ e x, (node e x).loc = x) → (∀ e x, (node e x).parts = [e]) →
      (∀ e x, (node e x).isLeaf = false) →
      Leaves (skip >>= fun _ => operand >>= fun e => left >>= fun after =>
        pure (node e ⟨s.length, after⟩)) t (Spans s) := by
    intro t node ht hloc hparts hleaf
    refine (leaves_skip t).bind fun _ t₁ h₁ => (hoperand t₁).bind fun e rest he =>
      leaves_left_bind (leaves_pure ?_)
    have hwide := he.widen (h₁.trans ht)
    have hlt : rest.length < s.length :=
      hwide.after.trans_lt (hwide.sits.proper.trans_le hwide.sits.bounded)
    exact spans_front (hloc e _) (hleaf e _) ((hparts e _).symm ▸ hwide.lists) hlt
  have hupdate := Balances.leaves_optional (balances_updateOperator : Balances 0 1 0 _) s
  refine Leaves.rule (leaves_left_bind (hupdate.bind fun step t ht => ?_))
  cases step with
  | some up =>
    exact hprefix t (fun e x => .update ⟨true, up⟩ e x) ht.1 (fun _ _ => rfl)
      (fun _ _ => rfl) fun _ _ => rfl
  | none =>
    obtain rfl := ht.2 rfl
    have hunary := Balances.leaves_optional (balances_unaryOperator : Balances 0 1 0 _) t
    refine hunary.bind fun op u hu => ?_
    cases op with
    | some op =>
      exact hprefix u (fun e x => .unary op e x) hu.1 (fun _ _ => rfl)
        (fun _ _ => rfl) fun _ _ => rfl
    | none =>
      obtain rfl := hu.2 rfl
      exact places_selected hnested u

end

/-! ## Binary operators and nesting -/

/-- The parts of a tail are laid in a text, and the tail ends where so much is left of it. The node
that it makes begins with the left operand. -/
def Tail.Spans (s : List Char) (x : Tail) (rest : List Char) : Prop :=
  match x with
  | .operator _ rhs after => after = rest.length ∧ Lists s [rhs] rest
  | .typeTest _ after => after = rest.length ∧ Lists s [] rest

/-- Attaching a tail to a left operand in front of it gives a node in the text. -/
lemma Tail.Spans.attach {s t rest : List Char} {e : Surface} {x : Tail} (he : Grammar.Spans s e t)
    (hx : x.Spans t rest) :
    Grammar.Spans s (Tail.attach e x) rest := by
  cases x with
  | operator | typeTest =>
    obtain ⟨rfl, hparts⟩ := hx
    exact spans_behind he hparts rfl rfl rfl

lemma places_chain {operand : Reader Surface} {tail : Reader Tail} (ho : Places operand)
    (ht : ∀ s, Leaves tail s fun x rest => x.Spans s rest) : Places (chain operand tail) := by
  intro s
  refine Leaves.rule ((ho s).bind fun first t hfirst => ?_)
  refine Leaves.bind
    (Leaves.many (Q := fun xs => Spans s (xs.foldl Tail.attach first)) (fun xs u hxs => ?_) hfirst)
    fun _ _ h => leaves_pure h
  refine (ht u).mono fun x rest hx => ?_
  rw [List.foldl_append]
  exact hx.attach hxs

lemma spans_operatorTail {operand : Reader Surface}
    {table : List (String × Option Char × BinaryOperator)}
    (h : ∀ entry ∈ table, ∀ c ∈ entry.1.toList, c ∉ bracketChars) (ho : Places operand)
    (s : List Char) :
    Leaves (operatorTail (operator table) operand) s fun x rest => x.Spans s rest := by
  have hop := (balances_operator h : Balances 0 0 0 _).leaves
  refine Leaves.rule ((leaves_skip s).bind fun _ s₁ h₁ => (hop s₁).bind fun op s₂ h₂ =>
    (leaves_skip s₂).bind fun _ s₃ h₃ => (ho s₃).bind fun rhs rest hrhs =>
      leaves_left_bind (leaves_pure ⟨rfl, Spans.lists ?_⟩))
  exact hrhs.widen (h₃.trans (h₂.trans h₁))

lemma spans_typeTestTail (s : List Char) : Leaves typeTestTail s fun x rest => x.Spans s rest := by
  refine Leaves.rule ((leaves_skip s).bind fun _ s₁ h₁ =>
    (leaves_word "instanceof" s₁).bind fun _ s₂ h₂ =>
      (leaves_butNot nameChar s₂).bind fun _ s₃ h₃ => (leaves_skip s₃).bind fun _ s₄ h₄ =>
      (leaves_identifier s₄).bind fun name rest hname =>
        leaves_left_bind (leaves_pure ⟨rfl, lists_nil ?_⟩))
  have hsuffix : s₃ <:+ s := h₃ ▸ (h₂ ▸ List.suffix_append _ _).trans h₁
  exact (hname.1 ▸ List.suffix_append _ _).trans (h₄.trans hsuffix)

lemma places_expressionOver {operand : Reader Surface} (ho : Places operand) :
    Places (expressionOver operand) := by
  have hproduct : Places (multiplicative operand) :=
    places_chain ho (spans_operatorTail (by decide) ho)
  have hsum : Places (additive operand) :=
    places_chain hproduct (spans_operatorTail (by decide) hproduct)
  have hshift : Places (shift operand) := places_chain hsum (spans_operatorTail (by decide) hsum)
  have hrelational : Places (relational operand) := places_chain hshift fun s =>
    Leaves.rule ((spans_typeTestTail s).orElse (spans_operatorTail (by decide) hshift s))
  exact places_chain hrelational (spans_operatorTail (by decide) hrelational)

/-- The induction is on the room. -/
lemma places_operandWithin (room : Room Opening) : Places (operandWithin room) := by
  induction room with
  | none => exact fun _ _ => trivial
  | more inside ih =>
    rw [operandWithin_more]
    exact places_prefixed (fun o => places_expressionOver (ih o)) (ih .sign)

/-- **Extents fit together.** What is read from a whole text is laid in that text, whatever room
there is. -/
theorem laid_of_whole {room : Room Opening} {s rest : List Char} {e : Surface}
    {suffix : Option (Context × Bool)} {mark mark' : Nat}
    (h : whole room mark s = .ok (e, suffix) rest mark') : Laid s e := by
  have hwhole : Leaves (whole room) s fun read _ => Laid s read.1 := by
    refine Leaves.rule ((leaves_skip s).bind fun _ t ht =>
      (places_expressionOver (places_operandWithin _) t).bind fun e u he => ?_)
    refine (leaves_true _ _).bind fun _ _ _ => (leaves_true _ _).bind fun suffix _ _ => ?_
    exact (leaves_true _ _).bind fun _ _ _ => (leaves_true _ _).bind fun _ _ _ =>
      leaves_pure (he.widen ht).laid
  have hread := hwhole mark
  rwa [h] at hread

end Grammar

end ShapeLint
