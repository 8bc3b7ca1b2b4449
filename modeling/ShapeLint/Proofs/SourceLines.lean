import ShapeLint.Proofs.Decoding
import ShapeLint.Proofs.Indentation
import ShapeLint.Proofs.NodeSpans
import ShapeLint.Proofs.Pointing
import ShapeLint.Report.Basic

/-!
# The line that a report shows

A node has a line number that counts line feeds among the bytes of its source, and a report shows
the line of the decoded text with that number. The text has more ends of lines than that:
`EvenBreaks` says that it does not use them, but for carriage returns in front of line feeds.

Both sides are compared with the text between line feeds. A line feed is a character of its own
whatever bytes stand around it, so the pieces of the text between line feeds are the pieces of the
bytes, decoded (`getElem?_splitFeeds`). The lines of the text are these pieces if breaks are even
(`lineAt_of_evenBreaks`). If they are not, some piece has a break in it and no line has, so that a
wrong line is shown for some offset.
-/

namespace ShapeLint

/-- What holds of a list without a separator, and of one with a line more than another that it holds
of, holds of every list. -/
lemma induction_on_lines {α : Type} [BEq α] [LawfulBEq α] (separator : α) {P : List α → Prop}
    (last : ∀ line, separator ∉ line → P line)
    (line : ∀ line rest, separator ∉ line → P rest → P (line ++ separator :: rest))
    (l : List α) : P l := by
  by_cases h : separator ∈ l
  · obtain ⟨first, rest, rfl, hfirst⟩ := List.eq_append_cons_of_mem h
    exact line first rest hfirst (induction_on_lines separator last line rest)
  · exact last l h
termination_by l.length

/-! ## Where lines of text end -/

namespace Text

/-- A line without the carriage return at its end. -/
def withoutReturn (line : List Char) : List Char :=
  if line.getLast? = some '\r' then line.dropLast else line

/-- Between line feeds, a line breaks nowhere but at a carriage return at its end. Then the text has
as many lines as it has pieces between line feeds. -/
def EvenBreaks (s : List Char) : Prop :=
  ∀ line ∈ splitFeeds s, ∀ c ∈ withoutReturn line, isLineBreak c = false

instance (s : List Char) : Decidable (EvenBreaks s) :=
  inferInstanceAs
    (Decidable (∀ line ∈ splitFeeds s, ∀ c ∈ withoutReturn line, isLineBreak c = false))

example : EvenBreaks "a\r\n\tb".toList ∧ ¬ EvenBreaks "a\x0cb".toList := by
  decide

lemma exists_withoutReturn (line : List Char) :
    ∃ w, withoutReturn line = w ∧ (line = w ∨ line = w ++ ['\r']) := by
  refine ⟨_, rfl, ?_⟩
  rw [withoutReturn]
  split
  case isTrue h => exact .inr (List.dropLast_append_getLast? _ h).symm
  case isFalse => exact .inl rfl

/-- A piece without further breaks, and the line feed behind it, make one line. -/
lemma lines_append_feed {line : List Char} (h : ∀ c ∈ withoutReturn line, isLineBreak c = false)
    (rest : List Char) :
    lines (line ++ '\n' :: rest) = withoutReturn line :: lines rest := by
  obtain ⟨w, hw, rfl | rfl⟩ := exists_withoutReturn line <;> rw [hw] at h ⊢ <;> rw [lines]
  · rw [lines_go_append h, lines_go_feed, List.append_nil, List.reverse_reverse, lines]
  · rw [List.append_assoc, lines_go_append h, List.singleton_append, lines.go, List.append_nil,
      List.reverse_reverse, lines]

/-- The last piece without further breaks makes one line, or none at all if it is empty. -/
lemma getD_lines_zero {line : List Char} (h : ∀ c ∈ withoutReturn line, isLineBreak c = false) :
    (lines line).getD 0 [] = withoutReturn line := by
  obtain ⟨w, hw, rfl | rfl⟩ := exists_withoutReturn line <;> rw [hw] at h ⊢ <;> rw [lines]
  · have hend : ∀ current, (lines.go [] current).getD 0 [] = current.reverse := by
      intro current
      cases current <;> rfl
    have hgo := lines_go_append h [] []
    rw [List.append_nil, List.append_nil] at hgo
    rw [hgo, hend, List.reverse_reverse]
  · rw [lines_go_append h, List.append_nil]
    simp [lines.go, isLineBreak]

/-- If lines break nowhere else, the line with a number is the one that is counted in line feeds. -/
lemma lineAt_of_evenBreaks {s : List Char} (h : EvenBreaks s) {n : Nat} {line : List Char}
    (hline : (splitFeeds s)[n]? = some line) : lineAt s (n + 1) = withoutReturn line := by
  rw [lineAt, if_neg (Nat.succ_ne_zero n), Nat.add_sub_cancel]
  -- The induction is on the lines: a last one, or a line with its feed in front of others.
  induction s using induction_on_lines '\n' generalizing n with
  | last s hs =>
    rw [EvenBreaks, Literal.splitFeeds_of_not_mem hs] at h
    rw [Literal.splitFeeds_of_not_mem hs, List.getElem?_singleton] at hline
    split at hline
    case isTrue hn =>
      subst hn
      obtain rfl := Option.some.inj hline
      exact getD_lines_zero (h s (List.mem_singleton_self s))
    case isFalse => cases hline
  | line first rest hfirst ih =>
    rw [EvenBreaks, Literal.splitFeeds_append hfirst, List.forall_mem_cons] at h
    rw [Literal.splitFeeds_append hfirst] at hline
    rw [lines_append_feed h.1]
    cases n with
    | zero =>
      obtain rfl := Option.some.inj hline
      rfl
    | succ n => exact ih h.2 hline

/-- What is taken for a line has no line break in it, whatever the text. The induction follows the
search for breaks, which has read a part of the line. -/
lemma isLineBreak_of_mem_lines_go (s current : List Char)
    (h : ∀ c ∈ current, isLineBreak c = false) :
    ∀ line ∈ lines.go s current, ∀ c ∈ line, isLineBreak c = false := by
  have hread : ∀ {w : List Char}, (∀ c ∈ w, isLineBreak c = false) →
      ∀ c ∈ w.reverse, isLineBreak c = false :=
    fun hw c hc => hw c (List.mem_reverse.1 hc)
  fun_induction lines.go s current with
  | case1 => exact List.forall_mem_nil _
  | case2 => exact List.forall_mem_singleton.2 (hread h)
  | case3 rest current ih => exact List.forall_mem_cons.2 ⟨hread h, ih (List.forall_mem_nil _)⟩
  | case4 c rest current hreturn hc ih =>
    exact List.forall_mem_cons.2 ⟨hread h, ih (List.forall_mem_nil _)⟩
  | case5 c rest current hreturn hc ih =>
    exact ih (List.forall_mem_cons.2 ⟨Bool.not_eq_true _ ▸ hc, h⟩)

lemma isLineBreak_of_mem_lineAt {s : List Char} {number : Nat} {c : Char}
    (h : c ∈ lineAt s number) :
    isLineBreak c = false := by
  rw [lineAt] at h
  split at h
  case isTrue => cases h
  case isFalse =>
    rw [List.getD_eq_getElem?_getD] at h
    cases hline : (lines s)[number - 1]? with
    | none =>
      rw [hline] at h
      cases h
    | some line =>
      rw [hline] at h
      exact isLineBreak_of_mem_lines_go s [] (List.forall_mem_nil _) line
        (List.mem_of_getElem? hline) c h

end Text

/-! ## Lines of bytes and lines of text -/

namespace Java

open Text

/-- A line feed is a character of its own, whatever has begun in front of it. -/
lemma go_append_feed (line rest : List UInt8) :
    utf8Pieces.go none (line ++ Source.feed :: rest) =
        utf8Pieces.go none line ++ ⟨some '\n', 1⟩ :: utf8Pieces.go none rest ∧
      ∀ p : Utf8Pending, 0x80 ≤ p.low → utf8Pieces.go (some p) (line ++ Source.feed :: rest) =
        utf8Pieces.go (some p) line ++ ⟨some '\n', 1⟩ :: utf8Pieces.go none rest := by
  -- As a byte that does not go on with a character is looked at afresh, both halves are proved
  -- together.
  induction line with
  | nil =>
    have hfeed :
        utf8Pieces.go none (Source.feed :: rest) = ⟨some '\n', 1⟩ :: utf8Pieces.go none rest :=
      rfl
    refine ⟨hfeed, fun p hlow => ?_⟩
    -- A character that has begun goes on with bytes from 80 on, so a line feed breaks it off.
    have hends : ¬ (p.low ≤ Source.feed.toNat ∧ Source.feed.toNat ≤ p.high) := by
      have : Source.feed.toNat = 10 := rfl
      omega
    rw [List.nil_append, go_some_cons, if_neg hends, hfeed]
    rfl
  | cons b line ih =>
    obtain ⟨hnone, hsome⟩ := ih
    have hfresh : utf8Pieces.go none (b :: line ++ Source.feed :: rest) =
        utf8Pieces.go none (b :: line) ++ ⟨some '\n', 1⟩ :: utf8Pieces.go none rest := by
      rw [List.cons_append, go_none_cons, go_none_cons]
      split
      case isTrue => rw [hnone, List.cons_append]
      case isFalse =>
        split
        case h_1 lead hlead => exact hsome _ (completes_lead hlead).1
        case h_2 => rw [hnone, List.cons_append]
    refine ⟨hfresh, fun p hlow => ?_⟩
    rw [List.cons_append, go_some_cons, go_some_cons]
    split
    case isTrue =>
      split
      case isTrue => rw [hnone, List.cons_append]
      case isFalse => exact hsome _ (Nat.le_refl _)
    case isFalse => rw [← List.cons_append, hfresh, List.cons_append]

/-- Decoding goes piece by piece, since a line feed is never a part of another character. -/
lemma decodeLossy_append_feed (line rest : List UInt8) :
    decodeLossy (line ++ Source.feed :: rest) = decodeLossy line ++ '\n' :: decodeLossy rest := by
  rw [decodeLossy, utf8Pieces, (go_append_feed line rest).1, List.map_append]
  rfl

/-- A line feed among the characters is one among the bytes. -/
lemma Spells.feed_mem {bytes : List UInt8} {cs : List Char} (h : Spells bytes cs)
    (hfeed : '\n' ∈ cs) :
    Source.feed ∈ bytes := by
  induction h with
  | nil => cases hfeed
  | @cons chunk bytes c cs _ hsimple _ ih =>
    rcases List.mem_cons.1 hfeed with rfl | hfeed
    · obtain ⟨b, rfl, hb⟩ := List.map_eq_singleton_iff.1 (hsimple (by decide))
      obtain rfl : b = Source.feed := UInt8.toNat_inj.1 hb
      exact List.mem_cons_self ..
    · exact List.mem_append_right _ (ih hfeed)

lemma feed_not_mem_decodeLossy {line : List UInt8} (h : Source.feed ∉ line) :
    '\n' ∉ decodeLossy line := by
  intro hfeed
  obtain ⟨piece, hpiece, hchar⟩ := List.mem_map.1 hfeed
  refine h ((spells_go line).1.feed_mem (List.mem_flatMap.2 ⟨piece, hpiece, ?_⟩))
  unfold pieceChars
  cases hc : piece.char? with
  | none =>
    rw [hc] at hchar
    exact absurd hchar (by decide)
  | some c =>
    rw [hc] at hchar
    exact List.mem_singleton.2 hchar.symm

namespace Source

/-- Going on from a row, a position has one row more for each line feed. -/
lemma advance_fst (bytes : List UInt8) (n row column : Nat) :
    (advance bytes n row column).1 = row + (bytes.take n).count feed := by
  fun_induction advance bytes n row column with
  | case1 => rfl
  | case2 => rfl
  | case3 bytes n row column ih =>
    rw [ih, List.take_succ_cons, List.count_cons_self, Nat.add_assoc, Nat.add_comm 1]
  | case4 b bytes n row column hb ih => rw [ih, List.take_succ_cons, List.count_cons_of_ne hb]

/-- The line of an offset is one more than the line feeds in front of it. -/
lemma line_point (s : Source) (offset : Nat) :
    (s.point offset).line = (s.bytes.take offset).count feed + 1 := by
  rw [point, ← Nat.zero_add (List.count ..), ← advance_fst]

/-- The bytes behind the last line feed. -/
def sinceFeed (bytes : List UInt8) : List UInt8 :=
  (bytes.reverse.takeWhile (· != feed)).reverse

/-- The bytes in front of the first line feed. -/
def untilFeed (bytes : List UInt8) : List UInt8 :=
  bytes.takeWhile (· != feed)

/-- The text between the line feeds around an offset: that since the last one in front of it, and up
to the next one behind it. -/
def lineAround (s : Source) (offset : Nat) : List Char :=
  decodeLossy (sinceFeed (s.bytes.take offset) ++ untilFeed (s.bytes.drop offset))

lemma ne_feed_of_not_mem {line : List UInt8} (h : feed ∉ line) :
    ∀ b ∈ line, (b != feed) = true := by
  intro b hb
  simp only [bne_iff_ne]
  rintro rfl
  exact h hb

lemma sinceFeed_of_not_mem {line : List UInt8} (h : feed ∉ line) : sinceFeed line = line := by
  rw [sinceFeed, List.takeWhile_eq_self_iff.2, List.reverse_reverse]
  exact ne_feed_of_not_mem (mt List.mem_reverse.1 h)

lemma sinceFeed_append_feed (line rest : List UInt8) :
    sinceFeed (line ++ feed :: rest) = sinceFeed rest := by
  rw [sinceFeed, takeWhile_reverse_append, sinceFeed]

lemma untilFeed_of_not_mem {line : List UInt8} (h : feed ∉ line) : untilFeed line = line :=
  List.takeWhile_eq_self_iff.2 (ne_feed_of_not_mem h)

lemma untilFeed_append_feed {line : List UInt8} (h : feed ∉ line) (rest : List UInt8) :
    untilFeed (line ++ feed :: rest) = line := by
  rw [untilFeed, List.takeWhile_append_of_pos (ne_feed_of_not_mem h),
    List.takeWhile_cons_of_neg (by simp), List.append_nil]

/-- The line around an offset has the number that is counted in line feeds. The induction is on the
lines of the source; the offset lies in the first one, or in what follows. -/
lemma getElem?_splitFeeds (s : Source) (offset : Nat) :
    (splitFeeds s.text)[(s.bytes.take offset).count feed]? = some (s.lineAround offset) := by
  obtain ⟨bytes⟩ := s
  rw [text, lineAround]
  dsimp only
  induction bytes using induction_on_lines feed generalizing offset with
  | last line h =>
    have hfront : feed ∉ line.take offset := mt List.mem_of_mem_take h
    have hback : feed ∉ line.drop offset := mt List.mem_of_mem_drop h
    rw [List.count_eq_zero_of_not_mem hfront,
      Literal.splitFeeds_of_not_mem (feed_not_mem_decodeLossy h), sinceFeed_of_not_mem hfront,
      untilFeed_of_not_mem hback, List.take_append_drop]
    rfl
  | line line rest h ih =>
    rw [decodeLossy_append_feed, Literal.splitFeeds_append (feed_not_mem_decodeLossy h)]
    rcases Nat.lt_or_ge line.length offset with hlt | hle
    · -- The offset lies behind the line feed: all is as in the rest, one line further.
      obtain ⟨k, rfl⟩ := Nat.exists_eq_add_of_lt hlt
      have htake :
          (line ++ feed :: rest).take (line.length + k + 1) = line ++ feed :: rest.take k := by
        rw [Nat.add_assoc, List.take_length_add_append, List.take_succ_cons]
      have hdrop : (line ++ feed :: rest).drop (line.length + k + 1) = rest.drop k := by
        rw [Nat.add_assoc, List.drop_length_add_append, List.drop_succ_cons]
      rw [htake, hdrop, sinceFeed_append_feed, List.count_append, List.count_eq_zero_of_not_mem h,
        List.count_cons_self, Nat.zero_add, List.getElem?_cons_succ]
      exact ih k
    · have hfront : feed ∉ line.take offset := mt List.mem_of_mem_take h
      have hback : feed ∉ line.drop offset := mt List.mem_of_mem_drop h
      rw [List.take_append_of_le_length hle, List.drop_append_of_le_length hle,
        List.count_eq_zero_of_not_mem hfront, sinceFeed_of_not_mem hfront,
        untilFeed_append_feed hback, List.take_append_drop]
      rfl

/-- Every line of the text is the one around some offset. -/
lemma exists_offset (s : Source) {n : Nat} (hn : n < (splitFeeds s.text).length) :
    ∃ offset ≤ s.bytes.length, (s.bytes.take offset).count feed = n := by
  obtain ⟨bytes⟩ := s
  rw [text] at hn
  dsimp only at hn ⊢
  induction bytes using induction_on_lines feed generalizing n with
  | last line h =>
    rw [Literal.splitFeeds_of_not_mem (feed_not_mem_decodeLossy h), List.length_singleton] at hn
    exact ⟨0, Nat.zero_le _, (Nat.lt_one_iff.1 hn).symm⟩
  | line line rest h ih =>
    rw [decodeLossy_append_feed, Literal.splitFeeds_append (feed_not_mem_decodeLossy h),
      List.length_cons] at hn
    cases n with
    | zero => exact ⟨0, Nat.zero_le _, rfl⟩
    | succ n =>
      obtain ⟨k, hk, hcount⟩ := ih (Nat.lt_of_succ_lt_succ hn)
      -- The first line and its feed are passed, and the rest is counted from there.
      refine ⟨line.length + (k + 1), by simpa using hk, ?_⟩
      rw [List.take_length_add_append, List.take_succ_cons, List.count_append,
        List.count_eq_zero_of_not_mem h, List.count_cons_self, hcount, Nat.zero_add]

/-- If lines break nowhere else, the line with the number of an offset is the one around it. -/
lemma lineAt_point {s : Source} (h : EvenBreaks s.text) (offset : Nat) :
    lineAt s.text (s.point offset).line = withoutReturn (s.lineAround offset) := by
  rw [line_point]
  exact lineAt_of_evenBreaks h (s.getElem?_splitFeeds offset)

/-- Where lines break elsewhere too, some line is not the one around its offset: no line that is
shown has a break in it, and the one around has. -/
lemma evenBreaks_of_lineAt {s : Source}
    (h : ∀ offset ≤ s.bytes.length,
      lineAt s.text (s.point offset).line = withoutReturn (s.lineAround offset)) :
    EvenBreaks s.text := by
  intro line hline c hc
  obtain ⟨n, hn⟩ := List.getElem?_of_mem hline
  obtain ⟨offset, hle, hcount⟩ := s.exists_offset (List.getElem?_eq_some_iff.1 hn).1
  have haround : s.lineAround offset = line :=
    Option.some.inj ((s.getElem?_splitFeeds offset).symm.trans (hcount ▸ hn))
  rw [← haround, ← h offset hle] at hc
  exact isLineBreak_of_mem_lineAt hc

end Source

end Java

/-! ## Reports -/

open Java (Source Tree ofTree spanOf)

/-- **The line that is shown.** A span has the line that is counted in line feeds in front of it.
The line of the text with that number is, for every offset of a source, the one that the offset lies
in, exactly if the lines of the source break nowhere but at line feeds, with or without a carriage
return in front. Every node of a script starts where a part of its tree starts, so under this
condition the line that a report shows for a node is the line that the node starts in. -/
theorem shown_line_iff (source : Source) :
    (∀ offset stop,
      (source.span offset stop).line = (source.bytes.take offset).count Source.feed + 1) ∧
      ((∀ script : Script, script.text = source.text → ∀ offset ≤ source.bytes.length, ∀ stop,
        script.line (source.span offset stop).line =
          Text.withoutReturn (source.lineAround offset)) ↔
        Text.EvenBreaks source.text) ∧
      ∀ (path : String) (t : Tree) (root : Node), ofTree source path t = .ok root →
        ∀ v ∈ root.visits, ∃ sub ∈ t.subtrees, v.node.span = spanOf source sub ∧
          (Text.EvenBreaks source.text → ∀ rule : Rule,
            Report.issueLine { path, root? := some root, text := source.text } rule v =
              path ++ ":" ++ toString v.node.span.line ++ ":" ++ toString v.node.span.column ++ "\t"
                ++ String.ofList
                  (Text.trim (Text.withoutReturn (source.lineAround sub.start))) ++ "\t"
                ++ rule.summary ++ " (" ++ rule.id ++ ")\n") := by
  refine ⟨fun offset _ => source.line_point offset,
    ⟨fun h => ?_, fun h script htext offset _ stop => ?_⟩, ?_⟩
  · exact Source.evenBreaks_of_lineAt fun offset hle =>
      h { path := "", root? := none, text := source.text } rfl offset hle offset
  · rw [Script.line, htext]
    exact Source.lineAt_point h offset
  · intro path t root htree v hv
    obtain ⟨sub, hsub, hspan⟩ := Java.exists_span_of_convert (Java.convert_of_ofTree htree) v hv
    refine ⟨sub, hsub, hspan, fun h rule => ?_⟩
    have hline : Text.lineAt source.text v.node.span.line =
        Text.withoutReturn (source.lineAround sub.start) := by
      rw [hspan]
      exact Source.lineAt_point h sub.start
    rw [Report.issueLine, Script.line, hline]

/-- A source whose first line ends in a carriage return and a line feed, and whose others end in a
line feed. -/
def evenSource : Source :=
  .ofString "class A \x7b\r\n  int x = 1;\n\x7d\n"

/-- A report shows the line of the declaration. -/
theorem shown_line_iff_evenSource :
    Text.EvenBreaks evenSource.text ∧ ∃ root, Java.parse "A.java" evenSource = .ok root ∧
      ∃ v ∈ root.visits, v.node.span = evenSource.span 13 23 ∧ ∀ rule : Rule,
        Report.issueLine { path := "A.java", root? := some root, text := evenSource.text } rule v =
          "A.java:2:3\tint x = 1;\t" ++ rule.summary ++ " (" ++ rule.id ++ ")\n" := by
  have heven : Text.EvenBreaks evenSource.text := by decide +kernel
  have hparses : (Java.parse "A.java" evenSource).toOption.any (fun root =>
      root.visits.any fun v => decide (v.node.span = evenSource.span 13 23)) = true := by
    decide +kernel
  have hline : ∀ sub ∈ evenSource.tree.subtrees, spanOf evenSource sub = evenSource.span 13 23 →
      Text.trim (Text.withoutReturn (evenSource.lineAround sub.start)) = "int x = 1;".toList := by
    decide +kernel
  have hfront :
      "A.java" ++ ":" ++ toString (evenSource.span 13 23).line ++ ":" ++
          toString (evenSource.span 13 23).column ++ "\t" ++
          String.ofList "int x = 1;".toList ++ "\t" =
        "A.java:2:3\tint x = 1;\t" := by
    decide +kernel
  -- What is computed is that some node stands at the place; which line is shown for it follows.
  obtain ⟨root, hroot, hvisits⟩ := exists_of_any_toOption hparses
  obtain ⟨v, hv, hfound⟩ := List.any_eq_true.1 hvisits
  have hspan : v.node.span = evenSource.span 13 23 := of_decide_eq_true hfound
  obtain ⟨sub, hsub, hstarts, hshown⟩ :=
    (shown_line_iff evenSource).2.2 "A.java" evenSource.tree root hroot v hv
  refine ⟨heven, root, hroot, v, hv, hspan, fun rule => ?_⟩
  rw [hshown heven rule, hline sub hsub (hstarts.symm.trans hspan), hspan, hfront]

/-- A source with a form feed at the end of its first line. -/
def pagedSource : Source :=
  .ofString "class A \x7b\x0c\n  int x = 1;\n\x7d\n"

/-- A form feed in front of a declaration makes a report show another line than that of the
declaration: an empty one. -/
theorem form_feed_hides_line :
    ∃ root, Java.parse "A.java" pagedSource = .ok root ∧
      ∃ v ∈ root.visits, v.node.span = pagedSource.span 13 23 ∧
        Script.line { path := "A.java", root? := some root, text := pagedSource.text }
          v.node.span.line = [] ∧
        Text.withoutReturn (pagedSource.lineAround 13) = "  int x = 1;".toList := by
  have hparses : (Java.parse "A.java" pagedSource).toOption.any (fun root =>
      root.visits.any fun v => decide (v.node.span = pagedSource.span 13 23)) = true := by
    decide +kernel
  have hshown : Text.lineAt pagedSource.text (pagedSource.span 13 23).line = [] := by decide +kernel
  have hline : Text.withoutReturn (pagedSource.lineAround 13) = "  int x = 1;".toList := by
    decide +kernel
  obtain ⟨root, hroot, hvisits⟩ := exists_of_any_toOption hparses
  obtain ⟨v, hv, hspan⟩ := List.any_eq_true.1 hvisits
  refine ⟨root, hroot, v, hv, of_decide_eq_true hspan, ?_, hline⟩
  rw [of_decide_eq_true hspan]
  exact hshown

end ShapeLint
