import ShapeLint.Proofs.Primary

/-!
# How the text of a pattern begins

Two readers look at the beginning of a text to find out what it is not. The reader of arguments
looks for the mark for any arguments before it looks for an expression, and the reader of operands
looks for a prefix operator before it looks for anything else. `Begins` is what keeps written
patterns from being mistaken there.

The reader of an index first makes sure that no context suffix stands in its place. A text that is
no such suffix by its form is not mistaken for one either, whatever follows (`Guarded`): a context
word in it is part of something longer.
-/

namespace ShapeLint

open Grammar Grammar.Reader
open Text (isBlank isDigit isNameStart isNameChar)

namespace Pattern

/-! ## The first characters -/

/-- The text begins as operands of the level do: with no blank, with a point only before a digit,
and with no prefix operator if the level takes none. -/
def Begins (l : Precedence) (t : List Char) : Prop :=
  ∃ c u, t = c :: u ∧ isBlank c = false ∧ (c = '.' → ∃ d v, u = d :: v ∧ isDigit d = true) ∧
    (6 ≤ l.rank → c ∉ ['+', '-', '!'])

namespace Begins

variable {l : Precedence} {t : List Char}

lemma of_head {c : Char} (u : List Char) (hb : isBlank c = false) (hp : c ≠ '.')
    (hs : 6 ≤ l.rank → c ∉ ['+', '-', '!']) :
    Begins l (c :: u) :=
  ⟨c, u, rfl, hb, fun h => absurd h hp, hs⟩

lemma of_word {w : String} (hw : IsWord w) (s : List Char) : Begins l (w.toList ++ s) := by
  obtain ⟨c, cs, hs, hc, -⟩ := hw
  rw [hs]
  refine of_head (cs ++ s) (inky_isNameChar.not_blank (isNameChar_of_isNameStart hc)) ?_ fun _ => ?_
  · rintro rfl
    exact absurd hc (by decide)
  · simp only [List.mem_cons, List.not_mem_nil, or_false]
    rintro (rfl | rfl | rfl) <;> exact absurd hc (by decide)

lemma of_digit {c : Char} (hc : isDigit c = true) (u : List Char) : Begins l (c :: u) := by
  refine of_head u (inky_isDigit.not_blank hc) ?_ fun _ => ?_
  · rintro rfl
    exact absurd hc (by decide)
  · simp only [List.mem_cons, List.not_mem_nil, or_false]
    rintro (rfl | rfl | rfl) <;> exact absurd hc (by decide)

lemma mono {l' : Precedence} (h : Begins l t) (hl : l'.rank ≤ l.rank) : Begins l' t := by
  obtain ⟨c, u, ht, hb, hp, hs⟩ := h
  exact ⟨c, u, ht, hb, hp, fun h6 => hs (Nat.le_trans h6 hl)⟩

lemma append (h : Begins l t) (s : List Char) : Begins l (t ++ s) := by
  obtain ⟨c, u, rfl, hb, hp, hs⟩ := h
  refine ⟨c, u ++ s, rfl, hb, fun hc => ?_, hs⟩
  obtain ⟨d, v, rfl, hd⟩ := hp hc
  exact ⟨d, v ++ s, rfl, hd⟩

lemma solid (h : Begins l t) : Solid t := by
  obtain ⟨c, u, ht, hb, -⟩ := h
  exact ⟨c, u, ht, hb⟩

/-- The text is not taken for the mark for any arguments. -/
theorem fails_mark (h : Begins l t) (s : List Char) : Fails (word "...") (t ++ s) := by
  obtain ⟨c, u, rfl, -, hp, -⟩ := h
  by_cases hc : c = '.'
  · obtain ⟨d, v, rfl, hd⟩ := hp hc
    have hne : '.' ≠ d := by
      rintro rfl
      exact absurd hd (by decide)
    refine fails_word ?_
    subst hc
    simp [afterWord?, hne]
  · exact fails_word_cons (by rfl) (Ne.symm hc)

/-- An operand without a prefix operator is not taken for one with it. -/
theorem fails_operators (h : Begins l t) (hl : 6 ≤ l.rank) (s : List Char) :
    Fails updateOperator (t ++ s) ∧ Fails unaryOperator (t ++ s) := by
  obtain ⟨c, u, rfl, -, -, hs⟩ := h
  have hc := hs hl
  simp only [List.mem_cons, List.not_mem_nil, or_false, not_or] at hc
  obtain ⟨hplus, hminus, hnot⟩ := hc
  exact ⟨fails_updateOperator_of_head hplus hminus _,
    fails_unaryOperator_of_head hplus hminus hnot _⟩

end Begins

/-- A literal begins with a digit, with a point and a digit, with a quote or with a word. -/
lemma LiteralText.begins {c : Constant} {t : List Char} (h : LiteralText c t) {l : Precedence} :
    Begins l t := by
  cases h with
  | double ht =>
    obtain ⟨d, u, heq, hd⟩ := ht.head []
    rw [List.append_nil] at heq
    rw [heq]
    -- A number may begin with its point, and then a digit follows.
    rcases hd with hd | ⟨rfl, hpoint⟩
    · exact .of_digit hd u
    · exact ⟨'.', u, rfl, by decide, fun _ => hpoint, fun _ => by decide⟩
  | integer ht =>
    obtain ⟨d, u, heq, hd⟩ := ht.head []
    rw [List.append_nil] at heq
    exact heq ▸ .of_digit hd u
  | string ht =>
    obtain ⟨body, rfl, -⟩ := ht
    exact .of_head _ (by decide) (by decide) fun _ => by decide
  | boolean b => cases b <;> exact .of_head _ (by decide) (by decide) fun _ => by decide

/-- A written pattern begins as its level asks. Where it begins with another pattern, that one is of
a level that takes fewer operators. -/
lemma Written.begins {l : Precedence} {p : Pattern} {t : List Char} (h : Written l p t) :
    Begins l t := by
  induction h with
  | @tighter l _ _ _ ih => exact ih.mono l.rank_le_tighter
  | grouped | wildcard | anyLiteral | anyLambda | null | this =>
    exact .of_head _ (by decide) (by decide) fun _ => by decide
  | reference hn =>
    have hword := Begins.of_word (l := .selected) hn.1 []
    rwa [List.append_nil] at hword
  | call hn => exact .of_word hn.1 _
  | literal ht => exact ht.begins
  | creation => exact .of_head _ (by decide) (by decide) fun _ => by decide
  | field _ _ _ _ ih => exact ih.append _
  | method _ _ _ _ _ _ ih => exact ih.append _
  | element _ _ _ _ _ _ ih => exact ih.append _
  | stepBehind _ _ ih => exact (ih.mono (by decide)).append _
  -- Only here does a sign stand in front, and the level takes prefix operators.
  | @stepInFront up =>
    cases up <;> exact .of_head _ (by decide) (by decide) fun h => absurd h (by decide)
  | @unary op =>
    cases op <;> exact .of_head _ (by decide) (by decide) fun h => absurd h (by decide)
  | binary _ _ _ _ ih => exact ih.append _
  | typeTest _ _ _ _ ih => exact ih.append _

/-! ## No index is a context suffix -/

/-- What stands behind the bracket of a context suffix that is not negated. -/
def plainAhead : Reader Unit := do
  let _ ← contextWord
  skip
  word "]"

/-- The text is taken for what stands in the brackets of a context suffix only if it is that. What
follows must not go on with a word at the end of the text. -/
structure Guarded (t : List Char) : Prop where
  /-- It is taken for a context word only if it is one. -/
  noWord : ∀ rest, Apart rest →
    (∃ c w, ContextWord c w ∧ t = w.toList) ∨ Fails plainAhead (t ++ rest)
  /-- It is taken for a context word that may be negated only if it is one. -/
  noPhrase : ∀ rest, Apart rest →
    (∃ c negated, ContextPhrase c negated t) ∨ Fails contextAhead (t ++ rest)

lemma fails_contextWord {c : Char} (h : c ∉ ['c', 'd']) (s : List Char) :
    Fails contextWord (c :: s) := by
  simp only [List.mem_cons, List.not_mem_nil, or_false, not_or] at h
  refine Fails.rule (fails_lexeme ?_)
  simp [wordToken?, Ne.symm h.1, Ne.symm h.2]

/-- A word is a context word or is not taken for one, since it is read to its end. -/
lemma contextWord_or_fails {w : String} (hw : IsWord w) {s : List Char} (hs : Apart s) :
    (∃ c, ContextWord c w) ∨ Fails contextWord (w.toList ++ s) := by
  by_cases hmem : w ∈ ["conditional", "discarded"]
  · simp only [List.mem_cons, List.not_mem_nil, or_false] at hmem
    rcases hmem with rfl | rfl
    · exact .inl ⟨_, .conditional⟩
    · exact .inl ⟨_, .discarded⟩
  · refine .inr (Fails.rule (fails_lexeme ?_))
    rw [wordToken?_append (by decide) hw.all (inky_isNameChar.halts hs), if_neg hmem]
    rfl

lemma fails_negation {c : Char} (hc : '!' ≠ c) (s : List Char) : Fails negation (c :: s) :=
  (fails_word_cons (by rfl) hc).bind.rule

namespace Guarded

lemma of_head {c : Char} (h : c ∉ ['c', 'd', '!']) (u : List Char) : Guarded (c :: u) := by
  have hword : c ∉ ['c', 'd'] := fun hmem => h (List.mem_append_left ['!'] hmem)
  have hnot : '!' ≠ c := by
    rintro rfl
    exact h (by decide)
  constructor
  · exact fun rest _ => .inr (fails_contextWord hword (u ++ rest)).bind
  · exact fun rest _ =>
      .inr ((fails_negation hnot _).optional.bind_fails (fails_contextWord hword (u ++ rest)).bind)

lemma of_word {w : String} (hw : IsWord w) : Guarded w.toList := by
  constructor
  · intro rest hrest
    rcases contextWord_or_fails hw hrest with ⟨c, hc⟩ | hfail
    · exact .inl ⟨c, w, hc, rfl⟩
    · exact .inr hfail.bind
  · intro rest hrest
    rcases contextWord_or_fails hw hrest with ⟨c, hc⟩ | hfail
    · exact .inl ⟨c, false, .plain hc⟩
    · have hnot : Fails negation (w.toList ++ rest) := by
        obtain ⟨c, cs, hs, hc, -⟩ := hw
        rw [hs]
        refine fails_negation ?_ _
        rintro rfl
        exact absurd hc (by decide)
      exact .inr (hnot.optional.bind_fails hfail.bind)

/-- A context word is no context suffix if something other than the closing bracket stands behind
it. -/
lemma extend {t : List Char} (h : Guarded t) {a : List Char} (ha : Gap a) {c : Char}
    (hb : isBlank c = false) (hc : c ≠ ']') (u : List Char) : Guarded (t ++ (a ++ c :: u)) := by
  -- Something other than the closing bracket follows the gap, so what reads the suffix fails there.
  have hend : ∀ rest, Fails (skip >>= fun _ => word "]") (a ++ c :: u ++ rest) := by
    intro rest
    rw [List.append_assoc]
    exact (ha.reads_skip ⟨c, u ++ rest, rfl, hb⟩).bind_fails (fails_word_cons (by rfl) (Ne.symm hc))
  have hapart : ∀ rest, Apart (a ++ c :: u ++ rest) := by
    intro rest
    rw [List.append_assoc]
    exact ha.apart _
  constructor
  · intro rest _
    rw [List.append_assoc]
    rcases h.noWord _ (hapart rest) with ⟨d, w, hw, rfl⟩ | hfail
    · exact .inr ((reads_contextWord hw (inky_isNameChar.halts (hapart rest))).bind_fails
        (hend rest))
    · exact .inr hfail
  · intro rest _
    rw [List.append_assoc]
    rcases h.noPhrase _ (hapart rest) with ⟨d, negated, hphrase⟩ | hfail
    · exact .inr ((hphrase.loose.becomes (inky_isNameChar.halts (hapart rest)) _).fails (hend rest))
    · exact .inr hfail

/-- The mark of negation in front of a text. A negated context word is a context suffix too, so only
the text behind it tells whether this is one. -/
lemma negated {t : List Char} (h : Guarded t) {a : List Char} (ha : Gap a) (ht : Solid t) :
    Guarded ('!' :: (a ++ t)) := by
  constructor
  · exact fun rest _ => .inr (fails_contextWord (by decide) _).bind
  · intro rest hrest
    rcases h.noWord rest hrest with ⟨c, w, hw, rfl⟩ | hfail
    · exact .inl ⟨c, true, .negated hw ha⟩
    · have hnot : Reads negation ('!' :: (a ++ t) ++ rest) () (t ++ rest) := by
        rw [List.cons_append, List.append_assoc]
        exact ((reads_word "!" _).bind (ha.reads_skip (ht.append rest))).rule
      exact .inr (hnot.optional.bind_fails hfail)

end Guarded

lemma LiteralText.guarded {c : Constant} {t : List Char} (h : LiteralText c t) : Guarded t := by
  have hdigit : ∀ {d : Char}, isDigit d = true → d ∉ ['c', 'd', '!'] := by
    intro d hd
    simp only [List.mem_cons, List.not_mem_nil, or_false]
    rintro (rfl | rfl | rfl) <;> exact absurd hd (by decide)
  cases h with
  | double ht =>
    obtain ⟨d, u, heq, hd⟩ := ht.head []
    rw [List.append_nil] at heq
    rw [heq]
    rcases hd with hd | ⟨rfl, -⟩
    · exact .of_head (hdigit hd) u
    · exact .of_head (by decide) u
  | integer ht =>
    obtain ⟨d, u, heq, hd⟩ := ht.head []
    rw [List.append_nil] at heq
    exact heq ▸ .of_head (hdigit hd) u
  | string ht =>
    obtain ⟨body, rfl, -⟩ := ht
    exact .of_head (by decide) _
  | boolean b => cases b <;> exact .of_head (by decide) _

/-- Arguments stand in parentheses behind a gap. -/
theorem ArgumentText.eq_cons {xs : List Piece} {args : List Pattern} {u : List Char}
    (h : ArgumentText xs args u) : ∃ a v, Gap a ∧ u = a ++ '(' :: v := by
  cases h with
  | none ha | any ha | some ha => exact ⟨_, _, ha, rfl⟩

/-- A written pattern is not mistaken for a context suffix, unless it is the name or the negated
name that has the form of one. -/
lemma Written.guarded {l : Precedence} {p : Pattern} {t : List Char} (h : Written l p t) :
    Guarded t := by
  induction h with
  | tighter _ ih => exact ih
  | grouped | wildcard | anyLiteral | anyLambda | null | this => exact .of_head (by decide) _
  | reference hn => exact .of_word hn.1
  | call hn _ hargs =>
    obtain ⟨a, v, ha, rfl⟩ := hargs.eq_cons
    exact (Guarded.of_word hn.1).extend ha (by decide) (by decide) v
  | literal ht => exact ht.guarded
  | creation => exact .of_head (by decide) _
  | field ha _ _ _ ih => exact ih.extend ha (by decide) (by decide) _
  | method ha _ _ _ _ _ ih => exact ih.extend ha (by decide) (by decide) _
  | element ha _ _ _ _ _ ih => exact ih.extend ha (by decide) (by decide) _
  | @stepBehind up _ _ _ _ ha _ ih =>
    cases up <;> exact ih.extend ha (by decide) (by decide) _
  | @stepInFront up => cases up <;> exact .of_head (by decide) _
  | @unary op _ _ _ _ ha ht ih =>
    cases op with
    | plus | minus => exact .of_head (by decide) _
    | not => exact ih.negated ha ht.begins.solid
  | @binary op _ _ _ _ _ _ _ ha _ _ _ ih =>
    cases op <;> exact ih.extend ha (by decide) (by decide) _
  | typeTest ha _ _ _ ih => exact ih.extend ha (by decide) (by decide) _

end Pattern

end ShapeLint
