import ShapeLint.Proofs.Separation

/-!
# Exact patterns do not overlap

A pattern is exact if no mark in it leaves anything open. A node that two exact patterns match is
asked for its kind, its value and its parts by both of them, so that nothing is left in which they
could differ. Two exact compiled patterns therefore match a node in common exactly if they are equal
(`overlap_iff`).

The node may be any at all. A part of it is looked up by its role, and both patterns look up the
same one, also where several children play that role. A call with a receiver and one without are
told apart by whether there is such a child.
-/

namespace ShapeLint.Pattern

mutual

/-- Whether no mark in the pattern leaves anything open. The marks are those for any expression, any
literal of a type, any lambda and any arguments. -/
def isExact : Pattern → Bool
  | .wildcard _ | .anyLiteral _ _ | .anyLambda _ | .anyArguments _ => false
  | .reference _ _ | .literal _ _ | .null _ | .this _ | .unknown _ _ => true
  | .field part _ _ | .typeTest part _ _ | .unary _ part _ | .update _ part _ => isExact part
  | .binary _ lhs rhs _ => isExact lhs && isExact rhs
  | .element array index _ => isExact array && isExact index
  | .method receiver _ args _ => isExact receiver && areExact args
  | .ownMethod _ args _ | .call _ args _ | .creation _ args _ => areExact args

/-- Whether no mark in the patterns leaves anything open. -/
def areExact : List Pattern → Bool
  | [] => true
  | p :: ps => isExact p && areExact ps

end

/-! ## Exact patterns that a text can have -/

/-- A pattern that a text can have and that leaves nothing open. Both are asked for together in
every case below. -/
structure Plain (p : Pattern) : Prop where
  formed : Formed p
  exact : isExact p = true

/-- Arguments that a text can have and that leave nothing open. -/
structure PlainArguments (ps : List Pattern) : Prop where
  formed : Expr.FormedArguments Constant.Formed Unmixed ps
  exact : areExact ps = true

/-- An exact pattern asks for a kind of node. -/
lemma Plain.head_ne {p : Pattern} (h : Plain p) : p.head ≠ .anything := by
  cases p with
  | wildcard => cases h.exact
  | anyArguments | unknown => cases h.formed
  | _ => exact nofun

lemma PlainArguments.first {p : Pattern} {ps : List Pattern}
    (h : PlainArguments (p :: ps)) : Plain p := by
  have hexact := (Bool.and_eq_true_iff.mp h.exact).1
  rcases h.formed.1 with hmark | hformed
  · cases p with
    | anyArguments => cases hexact
    | _ => cases hmark
  · exact ⟨hformed, hexact⟩

lemma PlainArguments.rest {p : Pattern} {ps : List Pattern} (h : PlainArguments (p :: ps)) :
    PlainArguments ps :=
  ⟨h.formed.2, (Bool.and_eq_true_iff.mp h.exact).2⟩

/-- The mark for any arguments is not exact, so nodes that exact arguments take are matched one by
one. -/
lemma PlainArguments.holdsAll {ps : List Pattern} (h : PlainArguments ps) {ns : List Node}
    (hn : (isAnyList ps || Pattern.holdsAll ps ns) = true) : Pattern.holdsAll ps ns = true := by
  have hexact := h.exact
  unfold isAnyList at hn
  split at hn
  · cases hexact
  · exact hn

/-! ## Patterns that match one node -/

/-- Exact patterns that match one node ask for one kind, that of the node. -/
lemma head_eq_of_holds {p q : Pattern} (hp : Plain p) (hq : Plain q) {n : Node}
    (h : holds p n = true) (h' : holds q n = true) : p.head = q.head :=
  Head.kind_injective ((kind_of_holds h hp.head_ne).symm.trans (kind_of_holds h' hq.head_ne))

/-- A node has one value, so two patterns that ask for its name ask for one name. -/
lemma name_eq_of_isKindNamed {n : Node} {kind kind' name name' : String}
    (h : n.isKindNamed kind name = true) (h' : n.isKindNamed kind' name' = true) : name = name' :=
  Value.ofString_injective ((isKindNamed_iff.mp h).2.symm.trans (isKindNamed_iff.mp h').2)

/-- Two patterns that look up a part in one role look up the same part. -/
lemma exists_part {p q : Pattern} {part : Option Node} (h : part.any (holds p) = true)
    (h' : part.any (holds q) = true) :
    ∃ m, holds p m = true ∧ holds q m = true := by
  cases part with
  | none => cases h
  | some m => exact ⟨m, h, h'⟩

/-- A call with a receiver is no call without one. -/
lemma not_holds_call {p : Pattern} {ps qs : List Pattern} {a b : String} {x y : Span} {n : Node}
    (h : holds (.method p a ps x) n = true) : holds (.call b qs y) n = false := by
  rw [holds, Bool.and_eq_true, Bool.and_eq_true] at h
  obtain ⟨⟨-, hpart⟩, -⟩ := h
  obtain ⟨m, hm, -⟩ := (Option.any_eq_true ..).mp hpart
  rw [holds, hm, Option.isNone_some, Bool.and_false, Bool.false_and]

mutual

/-- Exact patterns that match one node are equal. The induction is on the first pattern; the head of
the second one must be the same, and so must be its name, and the parts of the two are again exact
and match the same part of the node. -/
lemma same_of_holds : (p q : Pattern) → Plain p → Plain q → (n : Node) →
    holds p n = true → holds q n = true → same p q = true
  | .wildcard _, _, hp, _, _, _, _ | .anyLiteral _ _, _, hp, _, _, _, _
  | .anyLambda _, _, hp, _, _, _, _ => nomatch hp.exact
  | .ownMethod _ _ _, _, hp, _, _, _, _ | .anyArguments _, _, hp, _, _, _, _
  | .unknown _ _, _, hp, _, _, _, _ =>
    hp.formed.elim
  | .reference a _, q, hp, hq, n, h, h' => by
    -- Here and below, the kind of the node leaves only patterns with the same head.
    have hhead := head_eq_of_holds hp hq h h'
    cases q with
    | reference b _ => exact beq_iff_eq.mpr (name_eq_of_isKindNamed h h')
    | _ => cases hhead
  | .literal c _, q, hp, hq, n, h, h' => by
    have hhead := head_eq_of_holds hp hq h h'
    cases q with
    | literal d _ =>
      have hvalue := Value.same_symm (Bool.and_eq_true_iff.mp h).2
      have hvalue' := (Bool.and_eq_true_iff.mp h').2
      exact Bool.and_eq_true_iff.mpr
        ⟨beq_iff_eq.mpr (Head.literal.inj hhead), Value.same_trans hvalue hvalue'⟩
    | anyLiteral => cases hq.exact
    | _ => cases hhead
  | .null _, q, hp, hq, n, h, h' => by
    have hhead := head_eq_of_holds hp hq h h'
    cases q with
    | null => rfl
    | _ => cases hhead
  | .this _, q, hp, hq, n, h, h' => by
    have hhead := head_eq_of_holds hp hq h h'
    cases q with
    | this => rfl
    | _ => cases hhead
  | .field p a _, q, hp, hq, n, h, h' => by
    have hhead := head_eq_of_holds hp hq h h'
    cases q with
    | field q b _ =>
      rw [holds, Bool.and_eq_true] at h h'
      obtain rfl := name_eq_of_isKindNamed h.1 h'.1
      obtain ⟨m, hm, hm'⟩ := exists_part h.2 h'.2
      have hsame := same_of_holds p q ⟨hp.formed.1, hp.exact⟩ ⟨hq.formed.1, hq.exact⟩ m hm hm'
      rw [same, hsame, beq_self_eq_true, Bool.true_and]
    | _ => cases hhead
  | .method p a ps _, q, hp, hq, n, h, h' => by
    have hhead := head_eq_of_holds hp hq h h'
    cases q with
    | method q b qs _ =>
      obtain ⟨hexact, hexacts⟩ := Bool.and_eq_true_iff.mp hp.exact
      obtain ⟨hexact', hexacts'⟩ := Bool.and_eq_true_iff.mp hq.exact
      have hps : PlainArguments ps := ⟨hp.formed.2.2.2, hexacts⟩
      have hqs : PlainArguments qs := ⟨hq.formed.2.2.2, hexacts'⟩
      rw [holds, Bool.and_eq_true, Bool.and_eq_true] at h h'
      obtain rfl := name_eq_of_isKindNamed h.1.1 h'.1.1
      obtain ⟨m, hm, hm'⟩ := exists_part h.1.2 h'.1.2
      have hsame := same_of_holds p q ⟨hp.formed.1, hexact⟩ ⟨hq.formed.1, hexact'⟩ m hm hm'
      have hall := sameList_of_holds ps qs hps hqs _ (hps.holdsAll h.2) (hqs.holdsAll h'.2)
      rw [same, hsame, hall, beq_self_eq_true, Bool.true_and, Bool.true_and]
    | ownMethod => cases hq.formed
    | call =>
      rw [not_holds_call h] at h'
      cases h'
    | _ => cases hhead
  | .call a ps _, q, hp, hq, n, h, h' => by
    have hhead := head_eq_of_holds hp hq h h'
    cases q with
    | call b qs _ =>
      have hps : PlainArguments ps := ⟨hp.formed.2.2, hp.exact⟩
      have hqs : PlainArguments qs := ⟨hq.formed.2.2, hq.exact⟩
      rw [holds, Bool.and_eq_true, Bool.and_eq_true] at h h'
      obtain rfl := name_eq_of_isKindNamed h.1.1 h'.1.1
      have hall := sameList_of_holds ps qs hps hqs _ (hps.holdsAll h.2) (hqs.holdsAll h'.2)
      rw [same, hall, beq_self_eq_true, Bool.true_and]
    | ownMethod => cases hq.formed
    | method =>
      rw [not_holds_call h'] at h
      cases h
    | _ => cases hhead
  | .creation a ps _, q, hp, hq, n, h, h' => by
    have hhead := head_eq_of_holds hp hq h h'
    cases q with
    | creation b qs _ =>
      have hps : PlainArguments ps := ⟨hp.formed.2.2, hp.exact⟩
      have hqs : PlainArguments qs := ⟨hq.formed.2.2, hq.exact⟩
      rw [holds, Bool.and_eq_true] at h h'
      obtain rfl := name_eq_of_isKindNamed h.1 h'.1
      have hall := sameList_of_holds ps qs hps hqs _ (hps.holdsAll h.2) (hqs.holdsAll h'.2)
      rw [same, hall, beq_self_eq_true, Bool.true_and]
    | _ => cases hhead
  | .typeTest p a _, q, hp, hq, n, h, h' => by
    have hhead := head_eq_of_holds hp hq h h'
    cases q with
    | typeTest q b _ =>
      rw [holds, Bool.and_eq_true] at h h'
      obtain rfl := name_eq_of_isKindNamed h.1 h'.1
      obtain ⟨m, hm, hm'⟩ := exists_part h.2 h'.2
      have hsame := same_of_holds p q ⟨hp.formed.1, hp.exact⟩ ⟨hq.formed.1, hq.exact⟩ m hm hm'
      rw [same, hsame, beq_self_eq_true, Bool.true_and]
    | _ => cases hhead
  | .unary o p _, q, hp, hq, n, h, h' => by
    have hhead := head_eq_of_holds hp hq h h'
    cases q with
    | unary o' q _ =>
      rw [holds, Bool.and_eq_true] at h h'
      obtain rfl := UnaryOperator.symbol_injective (name_eq_of_isKindNamed h.1 h'.1)
      obtain ⟨m, hm, hm'⟩ := exists_part h.2 h'.2
      have hsame := same_of_holds p q ⟨hp.formed, hp.exact⟩ ⟨hq.formed, hq.exact⟩ m hm hm'
      rw [same, hsame, beq_self_eq_true, Bool.true_and]
    | _ => cases hhead
  | .binary o p p' _, q, hp, hq, n, h, h' => by
    have hhead := head_eq_of_holds hp hq h h'
    cases q with
    | binary o' q q' _ =>
      obtain ⟨hleft, hright⟩ := Bool.and_eq_true_iff.mp hp.exact
      obtain ⟨hleft', hright'⟩ := Bool.and_eq_true_iff.mp hq.exact
      rw [holds, Bool.and_eq_true, Bool.and_eq_true] at h h'
      obtain rfl := BinaryOperator.symbol_injective (name_eq_of_isKindNamed h.1.1 h'.1.1)
      obtain ⟨l, hl, hl'⟩ := exists_part h.1.2 h'.1.2
      obtain ⟨r, hr, hr'⟩ := exists_part h.2 h'.2
      have hsame := same_of_holds p q ⟨hp.formed.1, hleft⟩ ⟨hq.formed.1, hleft'⟩ l hl hl'
      have hsame' := same_of_holds p' q' ⟨hp.formed.2, hright⟩ ⟨hq.formed.2, hright'⟩ r hr hr'
      rw [same, hsame, hsame', beq_self_eq_true, Bool.true_and, Bool.true_and]
    | _ => cases hhead
  | .update o p _, q, hp, hq, n, h, h' => by
    have hhead := head_eq_of_holds hp hq h h'
    cases q with
    | update o' q _ =>
      rw [holds, Bool.and_eq_true] at h h'
      -- Both kinds and both symbols are those of the node.
      have hkind := (isKindNamed_iff.mp h.1).1.symm.trans (isKindNamed_iff.mp h'.1).1
      obtain rfl := UpdateOperator.eq_of_symbol hkind (name_eq_of_isKindNamed h.1 h'.1)
      obtain ⟨m, hm, hm'⟩ := exists_part h.2 h'.2
      have hsame := same_of_holds p q ⟨hp.formed, hp.exact⟩ ⟨hq.formed, hq.exact⟩ m hm hm'
      rw [same, hsame, beq_self_eq_true, Bool.true_and]
    | _ => cases hhead
  | .element p p' _, q, hp, hq, n, h, h' => by
    have hhead := head_eq_of_holds hp hq h h'
    cases q with
    | element q q' _ =>
      obtain ⟨harray, hindex⟩ := Bool.and_eq_true_iff.mp hp.exact
      obtain ⟨harray', hindex'⟩ := Bool.and_eq_true_iff.mp hq.exact
      rw [holds, Bool.and_eq_true, Bool.and_eq_true] at h h'
      obtain ⟨l, hl, hl'⟩ := exists_part h.1.2 h'.1.2
      obtain ⟨r, hr, hr'⟩ := exists_part h.2 h'.2
      have hsame := same_of_holds p q ⟨hp.formed.1, harray⟩ ⟨hq.formed.1, harray'⟩ l hl hl'
      have hsame' := same_of_holds p' q' ⟨hp.formed.2, hindex⟩ ⟨hq.formed.2, hindex'⟩ r hr hr'
      rw [same, hsame, hsame', Bool.true_and]
    | _ => cases hhead

/-- Arguments are matched one by one, so the lists are as long as that of the nodes, both of
them. -/
lemma sameList_of_holds : (ps qs : List Pattern) → PlainArguments ps → PlainArguments qs →
    (ns : List Node) → holdsAll ps ns = true → holdsAll qs ns = true → sameList ps qs = true
  | [], [], _, _, _, _, _ => rfl
  | [], _ :: _, _, _, [], _, h' => nomatch h'
  | [], _ :: _, _, _, _ :: _, h, _ => nomatch h
  | _ :: _, [], _, _, [], h, _ => nomatch h
  | _ :: _, [], _, _, _ :: _, _, h' => nomatch h'
  | _ :: _, _ :: _, _, _, [], h, _ => nomatch h
  | p :: ps, q :: qs, hp, hq, n :: ns, h, h' => by
    rw [holdsAll, Bool.and_eq_true] at h h'
    have hsame := same_of_holds p q hp.first hq.first n h.1 h'.1
    rw [sameList, hsame, sameList_of_holds ps qs hp.rest hq.rest ns h.2 h'.2, Bool.true_and]

end

/-! ## Patterns that overlap are equal -/

/-- Two exact compiled patterns match a node in common, whatever it is, exactly if they are equal,
wherever they stand, and there is room to test them. For one direction the node is given; for the
other it is the sample of either pattern. -/
theorem overlap_iff {r r' : Room Grammar.Opening} {s t : String} {k l : Kind}
    (hk : compileIn r s = .ok k) (hl : compileIn r' t = .ok l)
    (hexact : isExact k.expression = true) (hexact' : isExact l.expression = true)
    (room room' : Room Descent) :
    (∃ n, k.expression.test room n = .ok true ∧ l.expression.test room' n = .ok true) ↔
      k.expression.same l.expression = true ∧ fitsIn room k.expression = true ∧
        fitsIn room' l.expression = true := by
  have hp : Plain k.expression := ⟨formed_of_compileIn hk, hexact⟩
  have hq : Plain l.expression := ⟨formed_of_compileIn hl, hexact'⟩
  constructor
  · rintro ⟨n, h, h'⟩
    obtain ⟨hholds, hfits⟩ := test_eq_true_iff.mp h
    obtain ⟨hholds', hfits'⟩ := test_eq_true_iff.mp h'
    exact ⟨same_of_holds _ _ hp hq n hholds hholds', hfits, hfits'⟩
  · rintro ⟨hsame, hfits, hfits'⟩
    -- The node is the sample of the first pattern, which the second one matches as its equal.
    have hholds := covers_self k.expression hp.formed 0
    refine ⟨sample 0 k.expression, test_eq_true_iff.mpr ⟨hholds, hfits⟩,
      test_eq_true_iff.mpr ⟨?_, hfits'⟩⟩
    rw [← holds_congr _ _ hsame, hholds]

/-- Two spellings of one exact pattern match a node in common. -/
theorem overlap_iff_respelled : ∃ k l, compile "a.f(0x10, \"s\")[--i] == null" = .ok k ∧
    compile "(a).f( 16 , \"\\u0073\" )[ -- i]==null" = .ok l ∧
    isExact k.expression = true ∧ isExact l.expression = true ∧
    ∃ n, k.expression.test testRoom n = .ok true ∧ l.expression.test testRoom n = .ok true := by
  obtain ⟨k, hk, hcheck⟩ := exists_of_any_toOption
    (show (compile "a.f(0x10, \"s\")[--i] == null").toOption.any (fun k =>
        isExact k.expression && fitsIn testRoom k.expression &&
          (compile "(a).f( 16 , \"\\u0073\" )[ -- i]==null").toOption.any (fun l =>
            isExact l.expression && fitsIn testRoom l.expression &&
              k.expression.same l.expression)) = true by decide +kernel)
  rw [Bool.and_eq_true, Bool.and_eq_true] at hcheck
  obtain ⟨⟨hexact, hfits⟩, hother⟩ := hcheck
  obtain ⟨l, hl, hcheck'⟩ := exists_of_any_toOption hother
  rw [Bool.and_eq_true, Bool.and_eq_true] at hcheck'
  obtain ⟨⟨hexact', hfits'⟩, hsame⟩ := hcheck'
  exact ⟨k, l, hk, hl, hexact, hexact',
    (overlap_iff hk hl hexact hexact' _ _).mpr ⟨hsame, hfits, hfits'⟩⟩

end ShapeLint.Pattern
