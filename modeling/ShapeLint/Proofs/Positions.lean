import ShapeLint.Proofs.SourceLines

/-!
# Offsets and positions

A position says where an offset lies among the pieces of a text between its line feeds: as many
pieces are in front of it as the line says, and as much of its own piece as the column says. So the
piece from the column on is what the text still has from the offset on up to the next line feed
(`getElem?_splitFeeds_append`). This holds at every offset, also in front of a line feed and behind
it, between two of them, and at the end of the text.

Offsets are never confused: a later offset has a later position (`position_lt_position`).
-/

namespace ShapeLint

namespace Text

/-! ## Pieces of a text -/

/-- The first piece goes up to the first line feed. -/
lemma getElem?_splitFeeds_zero {line : List Char} (h : '\n' ∉ line) (t : List Char) :
    (splitFeeds (line ++ t))[0]? = some (line ++ t.takeWhile (· != '\n')) := by
  by_cases ht : '\n' ∈ t
  · obtain ⟨first, rest, rfl, hfirst⟩ := List.eq_append_cons_of_mem ht
    have hline : '\n' ∉ line ++ first := by simp [h, hfirst]
    have htake : (first ++ '\n' :: rest).takeWhile (· != '\n') = first := by
      rw [List.takeWhile_append_of_pos fun c hc => bne_iff_ne.mpr (ne_of_mem_of_not_mem hc hfirst)]
      simp
    rw [← List.append_assoc, Literal.splitFeeds_append hline, htake]
    rfl
  · have hline : '\n' ∉ line ++ t := by simp [h, ht]
    have htake : t.takeWhile (· != '\n') = t :=
      List.takeWhile_eq_self_iff.mpr fun c hc => bne_iff_ne.mpr (ne_of_mem_of_not_mem hc ht)
    rw [Literal.splitFeeds_of_not_mem hline, htake]
    rfl

/-- The piece around a place in a text: what is in front of the place since the last line feed, and
what is behind it up to the next one. The induction is on the lines in front of the place. -/
lemma getElem?_splitFeeds_append (s t : List Char) :
    (splitFeeds (s ++ t))[s.count '\n']? = some (lastLine s ++ t.takeWhile (· != '\n')) := by
  induction s using induction_on_lines '\n' with
  | last line h =>
    rw [List.count_eq_zero_of_not_mem h, lastLine_of_not_mem h, getElem?_splitFeeds_zero h]
  | line line rest h ih =>
    rw [List.append_assoc, List.cons_append, Literal.splitFeeds_append h, List.count_append,
      List.count_eq_zero_of_not_mem h, List.count_cons_self, Nat.zero_add, List.getElem?_cons_succ,
      ih, lastLine_feed]

/-- Every place in a piece is a place in the text, also the one at the end of the piece. -/
lemma exists_append_of_getElem?_splitFeeds {s piece : List Char} {n k : Nat}
    (hpiece : (splitFeeds s)[n]? = some piece) (hk : k ≤ piece.length) :
    ∃ before behind, s = before ++ behind ∧ before.count '\n' = n ∧
      (lastLine before).length = k := by
  -- In the first piece, the place is reached without passing a line feed.
  have hfirst {line : List Char} (h : '\n' ∉ line) (hk : k ≤ line.length) :
      (line.take k).count '\n' = 0 ∧ (lastLine (line.take k)).length = k := by
    have hfront : '\n' ∉ line.take k := mt List.mem_of_mem_take h
    rw [lastLine_of_not_mem hfront, List.length_take_of_le hk]
    exact ⟨List.count_eq_zero_of_not_mem hfront, rfl⟩
  induction s using induction_on_lines '\n' generalizing n with
  | last line h =>
    rw [Literal.splitFeeds_of_not_mem h] at hpiece
    obtain ⟨hn, rfl⟩ := List.getElem?_eq_some_iff.mp hpiece
    obtain rfl : n = 0 := by simpa using hn
    obtain ⟨hcount, hlast⟩ := hfirst h hk
    exact ⟨line.take k, line.drop k, (List.take_append_drop k line).symm, hcount, hlast⟩
  | line line rest h ih =>
    rw [Literal.splitFeeds_append h] at hpiece
    cases n with
    | zero =>
      obtain rfl := Option.some.inj hpiece
      obtain ⟨hcount, hlast⟩ := hfirst h hk
      refine ⟨line.take k, line.drop k ++ '\n' :: rest, ?_, hcount, hlast⟩
      rw [← List.append_assoc, List.take_append_drop]
    | succ n =>
      obtain ⟨before, behind, rfl, rfl, rfl⟩ := ih hpiece
      refine ⟨line ++ '\n' :: before, behind, by rw [List.append_assoc, List.cons_append], ?_, ?_⟩
      · rw [List.count_append, List.count_eq_zero_of_not_mem h, List.count_cons_self, Nat.zero_add]
      · rw [lastLine_feed]

end Text

/-! ## Positions of offsets -/

/-- The position of the offset behind a first part of a text. -/
lemma Span.start_atOffset_append (before behind : List Char) (file : String) :
    (atOffset (before ++ behind) before.length file).start =
      ⟨before.count '\n' + 1, (Text.lastLine before).length + 1⟩ :=
  Text.position_append before behind

/-- Offsets and positions correspond. A later offset of a text has a later position. The line and
the column of an offset count from one; the line is that of a piece between line feeds, the column
does not lead beyond the end of the piece, and from the column on the piece is what the text has
from the offset on up to the next line feed or the end. Every such line and column are those of an
offset. -/
theorem Span.atOffset_points_into_piece (s : List Char) (file : String) :
    (∀ o o', o < o' → o' ≤ s.length → (atOffset s o file).start < (atOffset s o' file).start) ∧
      (∀ o ≤ s.length, 1 ≤ (atOffset s o file).line ∧ 1 ≤ (atOffset s o file).column ∧
        ∃ piece, (Text.splitFeeds s)[(atOffset s o file).line - 1]? = some piece ∧
          (atOffset s o file).column - 1 ≤ piece.length ∧
          piece.drop ((atOffset s o file).column - 1) = (s.drop o).takeWhile (· != '\n')) ∧
      ∀ n piece k, (Text.splitFeeds s)[n]? = some piece → k ≤ piece.length →
        ∃ o ≤ s.length, (atOffset s o file).start = ⟨n + 1, k + 1⟩ := by
  refine ⟨fun o o' hlt hle => Text.position_lt_position hlt hle, fun o ho => ?_,
    fun n piece k hpiece hk => ?_⟩
  · -- An offset within the text cuts it in two.
    obtain ⟨before, behind, rfl, rfl⟩ : ∃ before behind, s = before ++ behind ∧ o = before.length :=
      ⟨s.take o, s.drop o, (List.take_append_drop o s).symm, (List.length_take_of_le ho).symm⟩
    have hline := congrArg Text.Position.line (start_atOffset_append before behind file)
    have hcolumn := congrArg Text.Position.column (start_atOffset_append before behind file)
    simp only [start] at hline hcolumn
    rw [hline, hcolumn, Nat.add_sub_cancel, Nat.add_sub_cancel, List.drop_left]
    refine ⟨Nat.le_add_left 1 _, Nat.le_add_left 1 _, _,
      Text.getElem?_splitFeeds_append before behind, ?_, ?_⟩
    · rw [List.length_append]
      exact Nat.le_add_right _ _
    · exact List.drop_left
  · obtain ⟨before, behind, rfl, rfl, rfl⟩ := Text.exists_append_of_getElem?_splitFeeds hpiece hk
    refine ⟨before.length, ?_, start_atOffset_append before behind file⟩
    rw [List.length_append]
    exact Nat.le_add_right _ _

/-- In a text with two line feeds in a row, the offsets in front of them, between them and behind
them. -/
theorem Span.atOffset_points_into_piece_empty_line :
    (1 < 2 ∧ 2 ≤ "a\n\nb".toList.length) ∧
      (atOffset "a\n\nb".toList 1 "").start < (atOffset "a\n\nb".toList 2 "").start ∧
      ∃ piece, (Text.splitFeeds "a\n\nb".toList)[(atOffset "a\n\nb".toList 3 "").line - 1]? =
        some piece ∧
        (atOffset "a\n\nb".toList 3 "").column - 1 ≤ piece.length ∧
        piece.drop ((atOffset "a\n\nb".toList 3 "").column - 1) =
          ("a\n\nb".toList.drop 3).takeWhile (· != '\n') :=
  ⟨by decide, (atOffset_points_into_piece _ "").1 1 2 (by decide) (by decide),
    ((atOffset_points_into_piece _ "").2.1 3 (by decide)).2.2⟩

end ShapeLint
