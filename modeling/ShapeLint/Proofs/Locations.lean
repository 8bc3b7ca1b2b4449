import Mathlib.Data.List.Forall2
import ShapeLint.Proofs.Placement

/-!
# The locations of a compiled pattern

A compiled pattern carries the span of each of its nodes, and the spans nest as the nodes do. That
the extents of a surface expression do so is `Grammar.laid_of_whole`; here it is carried over to
what the expression is resolved to. Resolving keeps the tree and turns each extent into the span of
its two offsets (`Resolves`), and positions are ordered as their offsets are
(`position_le_position`), so what is said of extents holds of spans.
-/

namespace ShapeLint

/-! ## Positions are ordered as offsets are -/

namespace Text

/-- A position comes before another one: on an earlier line, or on the same line and not behind it.
-/
instance : LE Position :=
  ⟨fun p q => p.line < q.line ∨ p.line = q.line ∧ p.column ≤ q.column⟩

instance (p q : Position) : Decidable (p ≤ q) :=
  inferInstanceAs (Decidable (p.line < q.line ∨ p.line = q.line ∧ p.column ≤ q.column))

/-- A position comes strictly before another one: on an earlier line, or on the same line and in
front of it. -/
instance : LT Position :=
  ⟨fun p q => p.line < q.line ∨ p.line = q.line ∧ p.column < q.column⟩

/-- The last line goes on until the next line feed. So a column grows by the number of characters as
long as the line does not change. -/
theorem lastLine_append {s t : List Char} (ht : '\n' ∉ t) :
    lastLine (s ++ t) = lastLine s ++ t := by
  have hall : ∀ c ∈ t.reverse, (c != '\n') = true := by
    intro c hc
    refine bne_iff_ne.mpr ?_
    rintro rfl
    exact ht (List.mem_reverse.mp hc)
  rw [lastLine, List.reverse_append, List.takeWhile_append_of_pos hall, List.reverse_append,
    List.reverse_reverse, lastLine]

/-- The position behind a first part of a text. -/
lemma position_append (s t : List Char) :
    position (s ++ t) s.length = ⟨s.count '\n' + 1, (lastLine s).length + 1⟩ := by
  simp [position]

/-- Of two offsets in a text, the first has the first position. That is on an earlier line if a line
feed stands in between, and on the same line further left if not. -/
theorem position_lt_position {s : List Char} {i j : Nat} (hij : i < j) (hj : j ≤ s.length) :
    position s i < position s j := by
  obtain ⟨u, v, w, rfl, rfl, rfl⟩ :
      ∃ u v w, s = u ++ (v ++ w) ∧ i = u.length ∧ j = (u ++ v).length := by
    refine ⟨s.take i, (s.drop i).take (j - i), s.drop j, ?_, ?_, ?_⟩
    · have hdrop : s.drop j = (s.drop i).drop (j - i) := by
        rw [List.drop_drop]
        congr 1
        omega
      rw [hdrop, List.take_append_drop, List.take_append_drop]
    · rw [List.length_take]
      omega
    · simp only [List.length_append, List.length_take, List.length_drop]
      omega
  rw [position_append, ← List.append_assoc, position_append]
  -- With a line feed between the two offsets the line is greater; without one, the column is.
  by_cases hv : '\n' ∈ v
  · left
    have hcount := List.count_pos_iff.mpr hv
    simp only [List.count_append]
    omega
  · right
    rw [lastLine_append hv, List.count_append, List.count_eq_zero_of_not_mem hv]
    rw [List.length_append] at hij
    simp only [List.length_append, Nat.add_zero, true_and]
    omega

lemma position_le_position {s : List Char} {i j : Nat} (hij : i ≤ j) (hj : j ≤ s.length) :
    position s i ≤ position s j := by
  rcases Nat.eq_or_lt_of_le hij with rfl | hlt
  · exact .inr ⟨rfl, Nat.le_refl _⟩
  · exact (position_lt_position hlt hj).imp id fun h => ⟨h.1, Nat.le_of_lt h.2⟩

end Text

/-! ## Spans -/

namespace Span

/-- The position that a span starts at. -/
def start (x : Span) : Text.Position :=
  ⟨x.line, x.column⟩

/-- The position that a span ends before. -/
def stop (x : Span) : Text.Position :=
  ⟨x.endLine, x.endColumn⟩

/-- The span lies in another one. The two may be the same. -/
def Inside (x y : Span) : Prop :=
  y.start ≤ x.start ∧ x.stop ≤ y.stop

/-- The span ends before another one starts, or where it does. -/
def Precedes (x y : Span) : Prop :=
  x.stop ≤ y.start

instance (x y : Span) : Decidable (x.Inside y) :=
  inferInstanceAs (Decidable (_ ∧ _))

instance (x y : Span) : Decidable (x.Precedes y) :=
  inferInstanceAs (Decidable (x.stop ≤ y.start))

@[simp] lemma start_ofOffsets (s : List Char) (i j : Nat) :
    (ofOffsets s i j).start = Text.position s i :=
  rfl

/-- A span between two offsets ends at the position of the second. -/
@[simp] lemma stop_ofOffsets (s : List Char) (i j : Nat) :
    (ofOffsets s i j).stop = Text.position s j := by
  simp [ofOffsets, between, of, stop, Text.position]

end Span

namespace Pattern

open Grammar

/-! ## Resolving keeps the tree -/

/-- The pattern is what the surface expression is resolved to, as far as one node and its parts
show: the span is that of the extent, and a token of the one is a token of the other. -/
structure Resolves (text : List Char) (e : Surface) (p : Pattern) : Prop where
  loc : p.loc = extentSpan text e.loc
  parts : List.Forall₂ (fun d q => resolve text d = .ok q) e.parts p.parts
  leaf : p.isLeaf = e.isLeaf
  token : ∀ w, e.Token Spelling.Spells w → p.Token LiteralText w

/-- Arguments are resolved one by one. -/
lemma forall₂_of_resolveList {text : List Char} {es : List Surface} {ps : List Pattern}
    (h : resolveList text es = .ok ps) :
    List.Forall₂ (fun d q => resolve text d = .ok q) es ps := by
  induction es generalizing ps with
  | nil =>
    obtain rfl := Except.ok.inj h
    exact .nil
  | cons e es ih =>
    rw [resolveList] at h
    obtain ⟨p, hp, h⟩ := exists_of_bind_eq_ok h
    obtain ⟨qs, hqs, h⟩ := exists_of_bind_eq_ok h
    obtain rfl := Except.ok.inj h
    exact .cons hp (ih hqs)

/-- What spells a literal denotes its value. The value is equal to itself because no literal is
written as something that is not a number. -/
lemma literalText_of_constant {text : List Char} {x : Extent} {lit : Spelling} {c : Constant}
    {w : List Char} (hw : lit.Spells w) (h : constant text x lit = .ok c) : LiteralText c w := by
  -- What is well formed is the same as itself, which is not so of every double.
  have hsame : ∀ c : Constant, c.Formed → c.same c = true := fun c hc => by
    rw [Constant.same, beq_self_eq_true, hc.same_self, Bool.true_and]
  cases lit with
  | double spelling =>
    obtain ⟨rfl, htext⟩ := hw
    have hlegible : Spelling.Legible (.double w) := htext
    have hc := constant_formed hlegible h
    obtain ⟨d, hd, -⟩ := Literal.floating_of_text htext
    rw [constant, hd] at h
    obtain rfl := Except.ok.inj h
    exact .double htext hd (hsame _ hc)
  | integer spelling =>
    obtain ⟨rfl, htext⟩ := hw
    have hlegible : Spelling.Legible (.integer w) := htext
    have hc := constant_formed hlegible h
    rw [constant] at h
    split at h
    case h_1 n hn =>
      obtain rfl := Except.ok.inj h
      exact .integer htext hn (hsame _ hc)
    case h_2 => cases h
  | string spelling =>
    obtain ⟨rfl, htext⟩ := hw
    have hlegible : Spelling.Legible (.string w) := trivial
    have hc := constant_formed hlegible h
    rw [constant] at h
    split at h
    case h_1 points hpoints =>
      obtain rfl := Except.ok.inj h
      exact .string htext hpoints (hsame _ hc)
    case h_2 => cases h
  | boolean b =>
    have hlegible : Spelling.Legible (.boolean b) := trivial
    have hc := constant_formed hlegible h
    obtain rfl := Except.ok.inj h
    obtain rfl := hw
    exact .boolean b (hsame _ hc)

/-- Resolving keeps the tree. The cases are taken together where they have the same kind of
parts. -/
lemma resolves_of_resolve {text : List Char} {e : Surface} {p : Pattern}
    (h : resolve text e = .ok p) :
    Resolves text e p := by
  cases e <;> rw [resolve] at h
  case wildcard | reference | anyLiteral | null | this | anyLambda | anyArguments | unknown =>
    obtain rfl := Except.ok.inj h
    exact ⟨rfl, .nil, rfl, fun _ h => h⟩
  -- Only a literal becomes something else than it was.
  case literal =>
    obtain ⟨c, hc, h⟩ := exists_of_bind_eq_ok h
    obtain rfl := Except.ok.inj h
    exact ⟨rfl, .nil, rfl, fun _ hw => literalText_of_constant hw hc⟩
  case field | typeTest | unary | update =>
    obtain ⟨_, hpart, h⟩ := exists_of_bind_eq_ok h
    obtain rfl := Except.ok.inj h
    exact ⟨rfl, .cons hpart .nil, rfl, fun _ h => h⟩
  case binary | element =>
    obtain ⟨_, hfirst, h⟩ := exists_of_bind_eq_ok h
    obtain ⟨_, hsecond, h⟩ := exists_of_bind_eq_ok h
    obtain rfl := Except.ok.inj h
    exact ⟨rfl, .cons hfirst (.cons hsecond .nil), rfl, fun _ h => h⟩
  case ownMethod | call | creation =>
    obtain ⟨_, hargs, h⟩ := exists_of_bind_eq_ok h
    obtain ⟨_, -, h⟩ := exists_of_bind_eq_ok h
    obtain rfl := Except.ok.inj h
    exact ⟨rfl, forall₂_of_resolveList hargs, rfl, fun _ h => h⟩
  case method =>
    obtain ⟨_, hpart, h⟩ := exists_of_bind_eq_ok h
    obtain ⟨_, hargs, h⟩ := exists_of_bind_eq_ok h
    obtain ⟨_, -, h⟩ := exists_of_bind_eq_ok h
    obtain rfl := Except.ok.inj h
    exact ⟨rfl, .cons hpart (forall₂_of_resolveList hargs), rfl, fun _ h => h⟩

/-- Each part of the pattern is what a part of the surface expression is resolved to. -/
lemma Resolves.exists_part {text : List Char} {e : Surface} {p q : Pattern} (h : Resolves text e p)
    (hq : q ∈ p.parts) :
    ∃ d ∈ e.parts, resolve text d = .ok q := by
  have hfind : ∀ {ds : List Surface} {qs : List Pattern},
      List.Forall₂ (fun d q => resolve text d = .ok q) ds qs → q ∈ qs →
        ∃ d ∈ ds, resolve text d = .ok q := by
    intro ds qs hparts hmem
    induction hparts with
    | nil => cases hmem
    | @cons d q' ds qs hd _ ih =>
      rcases List.mem_cons.mp hmem with rfl | hmem
      · exact ⟨d, List.mem_cons_self .., hd⟩
      · obtain ⟨d', hd', hresolve⟩ := ih hmem
        exact ⟨d', List.mem_cons_of_mem d hd', hresolve⟩
  exact hfind h.parts hq

/-- The spans of the parts are those of their extents. -/
lemma Resolves.locs {text : List Char} {e : Surface} {p : Pattern} (h : Resolves text e p) :
    p.parts.map Expr.loc = e.parts.map fun d => extentSpan text d.loc := by
  have hlocs :
      List.Forall₂ (fun d q => extentSpan text (Expr.loc d) = Expr.loc q) e.parts p.parts :=
    h.parts.imp fun _ _ hd => (resolves_of_resolve hd).loc.symm
  refine Eq.symm ?_
  rw [← List.forall₂_eq_eq_eq, List.forall₂_map_left_iff, List.forall₂_map_right_iff]
  exact hlocs

/-- What stands in a pattern is what something that stands in the surface expression is resolved to.
-/
lemma exists_of_within {text : List Char} {p whole : Pattern} (h : p.Within whole) {e : Surface}
    (he : resolve text e = .ok whole) : ∃ d : Surface, d.Within e ∧ resolve text d = .ok p := by
  induction h generalizing e with
  | self => exact ⟨e, .self, he⟩
  | operand hmem _ ih =>
    obtain ⟨d, hd, hresolve⟩ := (resolves_of_resolve he).exists_part (List.mem_append_left _ hmem)
    obtain ⟨d', hwithin, hd'⟩ := ih hresolve
    exact ⟨d', .of_part hd hwithin, hd'⟩
  | argument hmem _ ih =>
    obtain ⟨d, hd, hresolve⟩ := (resolves_of_resolve he).exists_part (List.mem_append_right _ hmem)
    obtain ⟨d', hwithin, hd'⟩ := ih hresolve
    exact ⟨d', .of_part hd hwithin, hd'⟩

/-! ## Spans nest -/

/-- Where a pattern lies in a text, and where its parts lie in it. This is `Sits` in terms of lines
and columns. -/
structure Placed (text : List Char) (p : Pattern) : Prop where
  /-- It lies between two offsets of the text, and if it is a leaf, then it is spelled by what
  stands between them. -/
  offsets : ∃ s e, s < e ∧ e ≤ text.length ∧ p.loc = Span.ofOffsets text s e ∧
    (p.isLeaf = true → p.Token LiteralText ((text.drop s).take (e - s)))
  inside : ∀ part ∈ p.parts, part.loc.Inside p.loc
  ordered : p.parts.Pairwise fun a b => a.loc.Precedes b.loc

/-- The span of an extent that lies in another one lies in the span of that. -/
lemma inside_extentSpan {text : List Char} {x y : Extent} (hx : x.before ≤ y.before)
    (hy : y.after ≤ x.after) :
    (extentSpan text x).Inside (extentSpan text y) := by
  constructor
  · rw [extentSpan, extentSpan, Span.start_ofOffsets, Span.start_ofOffsets]
    exact Text.position_le_position (by omega) (by omega)
  · rw [extentSpan, extentSpan, Span.stop_ofOffsets, Span.stop_ofOffsets]
    exact Text.position_le_position (by omega) (by omega)

/-- The span of an extent precedes that of an extent behind it. -/
lemma precedes_extentSpan {text : List Char} {x y : Extent} (h : y.before ≤ x.after) :
    (extentSpan text x).Precedes (extentSpan text y) := by
  rw [Span.Precedes, extentSpan, extentSpan, Span.start_ofOffsets, Span.stop_ofOffsets]
  exact Text.position_le_position (by omega) (by omega)

/-- What a node that sits in a text is resolved to is placed in it. -/
lemma placed_of_sits {text : List Char} {e : Surface} {p : Pattern} (hsits : Sits text e)
    (h : resolve text e = .ok p) :
    Placed text p := by
  have hres := resolves_of_resolve h
  have hproper := hsits.proper
  have hbounded := hsits.bounded
  refine ⟨⟨text.length - e.loc.before, text.length - e.loc.after,
    by omega, by omega, hres.loc, fun hleaf => ?_⟩, ?_, ?_⟩
  · obtain ⟨u, w, v, htext, hloc, htoken⟩ := hsits.spelled (hres.leaf ▸ hleaf)
    -- The extent counts from the end of the text, and the span from its start.
    have hslice : (text.drop (text.length - e.loc.before)).take
        (text.length - e.loc.after - (text.length - e.loc.before)) = w := by
      have hstart : text.length - e.loc.before = u.length := by
        rw [hloc, htext, List.length_append]
        dsimp only
        omega
      have hstop : text.length - e.loc.after = u.length + w.length := by
        rw [hloc, htext, List.length_append, List.length_append]
        dsimp only
        omega
      rw [hstart, hstop, htext, List.drop_left, Nat.add_sub_cancel_left, List.take_left]
    rw [hslice]
    exact hres.token w htoken
  · intro part hpart
    obtain ⟨d, hd, hresolve⟩ := hres.exists_part hpart
    obtain ⟨hbefore, hafter⟩ := hsits.inside d hd
    rw [hres.loc, (resolves_of_resolve hresolve).loc]
    exact inside_extentSpan hbefore hafter
  · have hordered : (p.parts.map Expr.loc).Pairwise Span.Precedes := by
      rw [hres.locs]
      exact List.pairwise_map.mpr (hsits.ordered.imp precedes_extentSpan)
    exact List.pairwise_map.mp hordered

/-- **Locations nest.** Every node of a compiled pattern lies between two offsets of the text, its
parts lie in it one after another, and a leaf lies exactly where its token stands. Every node is
meant, not just the outermost, and the pattern may be written on several lines. -/
theorem placed_of_compile {room : Room Opening} {t : String} {k : Kind}
    (h : compileIn room t = .ok k) {p : Pattern} (hp : p.Within k.expression) :
    Placed t.toList p := by
  obtain ⟨e, suffix, rest, mark, hread, hresolve, -⟩ := exists_of_compileIn h
  obtain ⟨d, hwithin, hd⟩ := exists_of_within hp hresolve
  exact placed_of_sits (laid_of_whole hread d hwithin) hd

/-- The receiver and the arguments of a call that goes over three lines. The parentheses around the
receiver are not in its span. -/
theorem placed_of_compile_lines : ∃ k, compile "(a).m(\n  b + 1.5 ,\n  :bool:)" = .ok k ∧
    k.expression.parts.map Expr.loc =
      [⟨"", 1, 2, 1, 3⟩, ⟨"", 2, 3, 2, 10⟩, ⟨"", 3, 3, 3, 9⟩] ∧
    Placed "(a).m(\n  b + 1.5 ,\n  :bool:)".toList k.expression ∧
    ∀ part ∈ k.expression.parts, Placed "(a).m(\n  b + 1.5 ,\n  :bool:)".toList part := by
  obtain ⟨k, hk, hlocs⟩ := exists_of_any_toOption
    (show (compile "(a).m(\n  b + 1.5 ,\n  :bool:)").toOption.any
      (fun k => k.expression.parts.map Expr.loc ==
        [⟨"", 1, 2, 1, 3⟩, ⟨"", 2, 3, 2, 10⟩, ⟨"", 3, 3, 3, 9⟩]) = true by decide +kernel)
  exact ⟨k, hk, beq_iff_eq.mp hlocs, placed_of_compile hk .self, fun part hpart =>
    placed_of_compile hk (.of_part hpart .self)⟩

end Pattern

end ShapeLint
