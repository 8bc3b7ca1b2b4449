import ShapeLint.Proofs.Escapes

/-!
# Line ends in text blocks

The lines of a text block end in line feeds. If they end in carriage returns and line feeds instead,
the carriage returns are taken for characters of the lines: they keep blanks at the ends of lines
from being trimmed, they come between a backslash and the end of its line, and they stay in the
value.

A carriage return changes neither which lines are significant nor how far they are indented
(`sharedIndent_returned`). So line by line the two blocks differ only in what stands in front of a
line feed, and decoding them goes in step (`Grows`): where the first fails the second fails too, and
else the second fails or comes to more code points, by at least one for each line that reaches as
far as the indentation. Lines that do not are cut off with their carriage return.
-/

namespace ShapeLint.Literal

open Text (CodePoint isIndent isSpace joinFeeds splitFeeds trimEnd)

/-! ## Carriage returns -/

/-- A text with a carriage return in front of each line feed. -/
def withReturns (s : List Char) : List Char :=
  s.flatMap fun c => if c = '\n' then ['\r', '\n'] else [c]

/-- Lines with a carriage return at the end of each but the last. -/
def returned : List (List Char) → List (List Char)
  | [] => []
  | [line] => [line]
  | line :: lines => (line ++ ['\r']) :: returned lines

lemma withReturns_append (s t : List Char) :
    withReturns (s ++ t) = withReturns s ++ withReturns t :=
  List.flatMap_append ..

/-- A text on one line stays as it is. -/
lemma withReturns_of_not_mem {s : List Char} (h : '\n' ∉ s) : withReturns s = s := by
  induction s with
  | nil => rfl
  | cons c s ih =>
    obtain ⟨hc, hs⟩ := not_or.1 (List.mem_cons.not.1 h)
    rw [withReturns, List.flatMap_cons, if_neg (Ne.symm hc), ← withReturns, ih hs]
    rfl

/-- Every text has a line, if only an empty one. -/
lemma splitFeeds_ne_nil (s : List Char) : splitFeeds s ≠ [] := by
  cases s with
  | nil => simp [splitFeeds]
  | cons c s =>
    rw [splitFeeds]
    split
    · simp
    · split <;> simp

lemma returned_cons (line : List Char) {lines : List (List Char)} (h : lines ≠ []) :
    returned (line :: lines) = (line ++ ['\r']) :: returned lines := by
  cases lines with
  | nil => exact absurd rfl h
  | cons _ _ => rfl

/-- The lines of a text with carriage returns are its lines with a carriage return at the end of
each but the last. -/
lemma splitFeeds_withReturns (s : List Char) :
    splitFeeds (withReturns s) = returned (splitFeeds s) := by
  induction s with
  | nil => rfl
  | cons c s ih =>
    by_cases hc : c = '\n'
    · subst hc
      have hfeed : withReturns ('\n' :: s) = '\r' :: '\n' :: withReturns s := rfl
      rw [hfeed]
      simp [splitFeeds, ih, returned_cons [] (splitFeeds_ne_nil s)]
    · have hcons : withReturns (c :: s) = c :: withReturns s := by simp [withReturns, hc]
      obtain ⟨line, lines, hlines⟩ := List.exists_cons_of_ne_nil (splitFeeds_ne_nil s)
      rw [hcons, splitFeeds, if_neg hc, splitFeeds, if_neg hc, ih, hlines]
      cases lines <;> simp [returned]

lemma ne_feed_of_not_mem {s : List Char} (h : '\n' ∉ s) : ∀ c ∈ s, (c != '\n') = true := by
  intro c hc
  rw [bne_iff_ne]
  rintro rfl
  exact h hc

lemma afterFirstFeed_append {s : List Char} (h : '\n' ∉ s) (t : List Char) :
    afterFirstFeed (s ++ '\n' :: t) = t := by
  rw [afterFirstFeed,
    Grammar.dropWhile_append_of_halts (ne_feed_of_not_mem h) (Grammar.halts_cons (by decide) t)]

lemma afterFirstFeed_of_not_mem {s : List Char} (h : '\n' ∉ s) : afterFirstFeed s = s := by
  have hnil : s.dropWhile (· != '\n') = [] := by
    simpa using Grammar.dropWhile_append_of_halts (s := []) (ne_feed_of_not_mem h)
      (by simp [Grammar.Halts])
  rw [afterFirstFeed, hnil]

/-- The line that the opening quotes stand on is dropped with its carriage return. -/
lemma afterFirstFeed_withReturns (s : List Char) :
    afterFirstFeed (withReturns s) = withReturns (afterFirstFeed s) := by
  by_cases h : '\n' ∈ s
  · obtain ⟨front, rest, rfl, hfront⟩ := List.eq_append_cons_of_mem h
    have hreturn :
        withReturns (front ++ '\n' :: rest) = (front ++ ['\r']) ++ '\n' :: withReturns rest := by
      rw [withReturns_append, withReturns_of_not_mem hfront, List.append_assoc]
      rfl
    rw [hreturn, afterFirstFeed_append hfront, afterFirstFeed_append (by simpa using hfront)]
  · rw [withReturns_of_not_mem h, afterFirstFeed_of_not_mem h, withReturns_of_not_mem h]

/-! ## Indentation -/

/-- A carriage return is white space, so it leaves a blank line blank. -/
lemma isBlankLine_return (line : List Char) : isBlankLine (line ++ ['\r']) = isBlankLine line := by
  have hreturn : isSpace '\r' = true := by decide
  simp [isBlankLine, hreturn]

/-- A carriage return is no indentation, so a line of nothing but blanks is not indented further by
it. -/
lemma indentOf_return (line : List Char) : indentOf (line ++ ['\r']) = indentOf line := by
  have hreturn : isIndent '\r' = false := by decide
  rw [indentOf, indentOf, List.takeWhile_append]
  split
  case isTrue h => simp [hreturn, h]
  case isFalse => rfl

lemma getLast?_returned (lines : List (List Char)) :
    (returned lines).getLast? = lines.getLast? := by
  fun_induction returned lines with
  | case1 => rfl
  | case2 line => rfl
  | case3 line lines h ih =>
    obtain ⟨next, rest, rfl⟩ := List.exists_cons_of_ne_nil h
    simp [List.getLast?_cons, ih]

lemma indents_returned (lines : List (List Char)) :
    ((returned lines).filter fun line => !isBlankLine line).map indentOf =
      (lines.filter fun line => !isBlankLine line).map indentOf := by
  fun_induction returned lines with
  | case1 => rfl
  | case2 line => rfl
  | case3 line lines h ih =>
    rw [List.filter_cons, List.filter_cons, isBlankLine_return]
    split <;> simp [ih, indentOf_return]

/-- The lines share the same indentation with carriage returns. The last line has none, and it is
the one with a say of its own. -/
lemma sharedIndent_returned (lines : List (List Char)) :
    sharedIndent (returned lines) = sharedIndent lines := by
  rw [sharedIndent, sharedIndent, significantLines, significantLines, List.map_append,
    List.map_append, indents_returned, getLast?_returned]

/-! ## Lines -/

/-- A line as it stands in the value of a text block. -/
def stripLine (indent : Nat) (line : List Char) : List Char :=
  trimEnd isIndent (line.drop indent)

lemma stripLine_of_le {indent : Nat} {line : List Char} (h : line.length ≤ indent) :
    stripLine indent line = [] := by
  rw [stripLine, List.drop_eq_nil_of_le h]
  rfl

/-- A line that does not reach as far as the indentation is cut off, and so is its carriage return.
-/
lemma stripLine_return {indent : Nat} {line : List Char} (h : line.length < indent) :
    stripLine indent (line ++ ['\r']) = stripLine indent line := by
  rw [stripLine_of_le (by simpa using Nat.succ_le_of_lt h), stripLine_of_le (Nat.le_of_lt h)]

/-- What is trimmed from the end of a text are characters of the class, and nothing else. -/
lemma exists_trimEnd_append (p : Char → Bool) (s : List Char) :
    ∃ w, (∀ c ∈ w, p c = true) ∧ s = trimEnd p s ++ w := by
  refine ⟨(s.reverse.takeWhile p).reverse, fun c hc => ?_, ?_⟩
  · exact List.all_eq_true.1 List.all_takeWhile c (List.mem_reverse.1 hc)
  · rw [trimEnd, ← List.reverse_append, List.takeWhile_append_dropWhile, List.reverse_reverse]

lemma trimEnd_append_of_not {p : Char → Bool} {c : Char} (h : p c = false) (s : List Char) :
    trimEnd p (s ++ [c]) = s ++ [c] := by
  simp [trimEnd, h]

/-- A carriage return keeps the blanks in front of it: it is what stands at the end of the line. -/
lemma exists_stripLine_return {indent : Nat} {line : List Char} (h : indent ≤ line.length) :
    ∃ w, (∀ c ∈ w, isIndent c = true) ∧
      stripLine indent (line ++ ['\r']) = stripLine indent line ++ (w ++ ['\r']) := by
  obtain ⟨w, hw, hline⟩ := exists_trimEnd_append isIndent (line.drop indent)
  refine ⟨w, hw, ?_⟩
  rw [stripLine, List.drop_append_of_le_length h, trimEnd_append_of_not (by decide), stripLine,
    ← List.append_assoc, ← hline]

/-! ## Escapes in front of what starts none -/

/-- The text starts with a character that belongs to no escape but as its first character. An escape
in front of it is read as it would be at the end of the text. -/
def Breaks (s : List Char) : Prop :=
  ∃ c rest, s = c :: rest ∧ hexDigit? c = none ∧ octalDigit? c = none ∧ c ≠ 'u'

/-- Octal digits end in front of a break. -/
lemma takeOctal_append_of_breaks {t : List Char} (ht : Breaks t) (acc n : Nat) (s : List Char) :
    takeOctal acc n (s ++ t) = ((takeOctal acc n s).1, (takeOctal acc n s).2 ++ t) := by
  fun_induction takeOctal acc n s with
  | case1 => simp [takeOctal]
  | case2 acc n =>
    obtain ⟨c, rest, rfl, -, hc, -⟩ := ht
    simp [takeOctal, hc]
  | case3 acc n c rest d hd ih => simp [takeOctal, hd, ih]
  | case4 acc n c rest hd => simp [takeOctal, hd]

lemma octalEscape?_append_of_breaks {t : List Char} (ht : Breaks t) (s : List Char) :
    octalEscape? (s ++ t) = (octalEscape? s).map fun r => (r.1, r.2 ++ t) := by
  cases s with
  | nil =>
    obtain ⟨c, rest, rfl, -, hc, -⟩ := ht
    simp [octalEscape?, hc]
  | cons c s => cases hc : octalDigit? c <;> simp [octalEscape?, hc, takeOctal_append_of_breaks ht]

lemma unicodeEscape?_append_of_breaks {t : List Char} (ht : Breaks t) (s : List Char) :
    unicodeEscape? (s ++ t) = (unicodeEscape? s).map fun r => (r.1, r.2 ++ t) := by
  obtain ⟨d, rest, rfl, hhex, -, hd⟩ := ht
  cases s with
  | nil => simpa [unicodeEscape?] using unicodeEscape?_of_ne hd rest
  | cons c s =>
    by_cases hc : c = 'u'
    · subst hc
      have hdrop : (s ++ d :: rest).dropWhile (· == 'u') = s.dropWhile (· == 'u') ++ d :: rest := by
        rw [List.dropWhile_append]
        split
        case isTrue hnil => simp [List.isEmpty_iff.1 hnil, hd]
        case isFalse => rfl
      rw [List.cons_append, unicodeEscape?, unicodeEscape?, hdrop]
      generalize s.dropWhile (· == 'u') = w
      -- With fewer than four characters in front of it, the break stands where a digit should.
      rcases w with _ | ⟨w, _ | ⟨x, _ | ⟨y, _ | ⟨z, w'⟩⟩⟩⟩
      case cons.cons.cons.cons =>
        simp only [List.cons_append]
        cases hexDigit? w <;> cases hexDigit? x <;> cases hexDigit? y <;> cases hexDigit? z <;> rfl
      all_goals
        simp only [List.cons_append, List.nil_append, Option.map_none]
        split
        · simp_all
        · rfl
    · rw [List.cons_append, unicodeEscape?_of_ne hc, unicodeEscape?_of_ne hc]
      rfl

/-- An escape is read in front of a break as it is read at the end, and the break is left with the
rest. -/
lemma escape_append_of_breaks {t : List Char} (ht : Breaks t) (c : Char) (s : List Char) :
    escape c (s ++ t) = (escape c s).map fun r => (r.1, r.2 ++ t) := by
  rw [escape, escape, ← List.cons_append, unicodeEscape?_append_of_breaks ht,
    octalEscape?_append_of_breaks ht]
  cases unicodeEscape? (c :: s) with
  | some r => rfl
  | none =>
    cases octalEscape? (c :: s) with
    | some r => rfl
    | none =>
      by_cases hc : c = '\n'
      · simp [hc, Except.map]
      · cases simpleEscape? c <;> simp [hc, Except.map]

/-! ## Decoding in step -/

/-- Where the first result is a failure so is the second, and where both are values the second is
longer by so much at least. -/
structure Grows (n : Nat) (r r' : Except BadEscape (List CodePoint)) : Prop where
  fails : ∀ e, r = .error e → ∃ e', r' = .error e'
  longer : ∀ points points', r = .ok points → r' = .ok points' → points.length + n ≤ points'.length

lemma grows_refl (r : Except BadEscape (List CodePoint)) : Grows 0 r r where
  fails e h := ⟨e, h⟩
  longer points points' h h' := by
    rw [h] at h'
    cases h'
    exact Nat.le_refl _

/-- Nothing is asked of a second result that is a failure. -/
lemma grows_of_error {n : Nat} {r r' : Except BadEscape (List CodePoint)} {e : BadEscape}
    (h : r' = .error e) :
    Grows n r r' where
  fails _ _ := ⟨e, h⟩
  longer _ _ _ h' := by
    rw [h] at h'
    cases h'

/-- What is decoded in front of both is put in front of both, and may itself be longer in the
second. -/
lemma Grows.prepend {n k : Nat} {r r' : Except BadEscape (List CodePoint)} (h : Grows n r r')
    {front front' : List CodePoint} (hk : front.length + k ≤ front'.length) :
    Grows (n + k) (r.map (front ++ ·)) (r'.map (front' ++ ·)) := by
  cases r with
  | error e =>
    obtain ⟨e', rfl⟩ := h.fails e rfl
    exact grows_of_error rfl
  | ok points =>
    cases r' with
    | error e => exact grows_of_error rfl
    | ok points' =>
      have hlonger := h.longer points points' rfl rfl
      constructor
      · rintro e ⟨⟩
      · rintro _ _ ⟨⟩ ⟨⟩
        simp only [List.length_append]
        omega

/-- Without a backslash every character stands for itself. -/
lemma scans_of_no_backslash {w : List Char} (h : '\\' ∉ w) (s : List Char) :
    Scans (w ++ s) (w.map CodePoint.ofChar) s := by
  induction w with
  | nil => exact .here
  | cons c w ih =>
    obtain ⟨hc, hw⟩ := not_or.1 (List.mem_cons.not.1 h)
    exact .char (Ne.symm hc) (ih hw)

/-- What a backslash at the end of a line has behind it, if the line ends in blanks and a carriage
return. -/
lemma head_of_indents {w : List Char} (hw : ∀ c ∈ w, isIndent c = true) (s : List Char) :
    ∃ c ∈ [' ', '\t', '\r'], ∃ rest, w ++ '\r' :: s = c :: rest := by
  cases w with
  | nil => exact ⟨'\r', by decide, s, rfl⟩
  | cons c w =>
    have hc : c = ' ' ∨ c = '\t' := by simpa [isIndent] using hw c (List.mem_cons_self ..)
    exact ⟨c, by rcases hc with rfl | rfl <;> decide, _, rfl⟩

lemma breaks_of_indents {w : List Char} (hw : ∀ c ∈ w, isIndent c = true) (s : List Char) :
    Breaks (w ++ '\r' :: s) := by
  have hnone : ∀ c ∈ [' ', '\t', '\r'], hexDigit? c = none ∧ octalDigit? c = none ∧ c ≠ 'u' := by
    decide
  obtain ⟨c, hc, rest, heq⟩ := head_of_indents hw s
  exact ⟨c, rest, heq, hnone c hc⟩

/-- A backslash in front of a blank or a carriage return is no escape. -/
lemma unescape_backslash_indents {w : List Char} (hw : ∀ c ∈ w, isIndent c = true) (s : List Char) :
    ∃ e, unescape ('\\' :: (w ++ '\r' :: s)) = .error e := by
  obtain ⟨c, hc, rest, heq⟩ := head_of_indents hw s
  rw [heq]
  simp only [List.mem_cons, List.not_mem_nil, or_false] at hc
  rcases hc with rfl | rfl | rfl <;> exact ⟨_, unescape_bad rfl⟩

/-- A line and what follows it, without and with blanks and a carriage return at the end of the
line. The second is longer by the carriage return at least, or it fails because a backslash does not
stand at the end of its line any more. -/
lemma Grows.line {n : Nat} {s s' w : List Char} (hw : ∀ c ∈ w, isIndent c = true)
    (h : Grows n (unescape s) (unescape s')) (line : List Char) :
    Grows (n + 1) (unescape (line ++ '\n' :: s))
      (unescape (line ++ (w ++ '\r' :: '\n' :: s'))) := by
  have hfeed : Breaks ('\n' :: s) := ⟨'\n', s, rfl, by decide, by decide, by decide⟩
  have hreturn : Breaks (w ++ '\r' :: '\n' :: s') := breaks_of_indents hw _
  fun_induction unescape line with
  | case1 =>
    have hplain : '\\' ∉ w ++ ['\r', '\n'] := by
      intro hmem
      rcases List.mem_append.1 hmem with hmem | hmem
      · exact absurd (hw _ hmem) (by decide)
      · exact absurd hmem (by decide)
    have hlong := (scans_of_no_backslash hplain s').unescape_eq
    have hshort := (scans_of_no_backslash (w := ['\n']) (by decide) s).unescape_eq
    rw [List.append_assoc] at hlong
    exact hshort ▸ hlong ▸ h.prepend (by simp)
  | case2 c rest e he =>
    have hbad : escape c (rest ++ (w ++ '\r' :: '\n' :: s')) = .error e := by
      rw [escape_append_of_breaks hreturn, he]
      rfl
    exact grows_of_error (unescape_bad hbad)
  | case3 c rest p rest' he ih =>
    have hshort : escape c (rest ++ '\n' :: s) = .ok (p, rest' ++ '\n' :: s) := by
      rw [escape_append_of_breaks hfeed, he]
      rfl
    have hlong : escape c (rest ++ (w ++ '\r' :: '\n' :: s')) =
        .ok (p, rest' ++ (w ++ '\r' :: '\n' :: s')) := by
      rw [escape_append_of_breaks hreturn, he]
      rfl
    rw [List.cons_append, List.cons_append, unescape_escape hshort, List.cons_append,
      List.cons_append, unescape_escape hlong]
    exact ih.prepend (k := 0) (Nat.le_refl _)
  -- a backslash here is the last character of the line, and escapes its end in the first text only
  | case4 c rest hnot ih =>
    by_cases hc : c = '\\'
    · subst hc
      have hrest : rest = [] := by
        cases rest with
        | nil => rfl
        | cons d rest => exact (hnot d rest rfl rfl).elim
      subst hrest
      obtain ⟨e, he⟩ := unescape_backslash_indents hw ('\n' :: s')
      exact grows_of_error he
    · rw [List.cons_append, List.cons_append, unescape_char hc, unescape_char hc]
      have hone : [CodePoint.ofChar c].length + 0 ≤ [CodePoint.ofChar c].length := Nat.le_refl _
      exact ih.prepend hone

lemma joinFeeds_cons (line : List Char) {lines : List (List Char)} (h : lines ≠ []) :
    joinFeeds (line :: lines) = line ++ '\n' :: joinFeeds lines := by
  cases lines with
  | nil => exact absurd rfl h
  | cons _ _ => rfl

lemma returned_ne_nil {lines : List (List Char)} (h : lines ≠ []) : returned lines ≠ [] := by
  fun_cases returned lines with
  | case1 => exact absurd rfl h
  | case2 => simp
  | case3 => simp

/-- All lines of a block together. The last line has no carriage return, and each of the others
counts if it reaches as far as the indentation. The induction is on the lines. -/
lemma grows_lines (indent : Nat) (lines : List (List Char)) :
    Grows (lines.dropLast.countP fun line => indent ≤ line.length)
      (unescape (joinFeeds (lines.map (stripLine indent))))
      (unescape (joinFeeds ((returned lines).map (stripLine indent)))) := by
  fun_induction returned lines with
  | case1 => exact grows_refl _
  | case2 line => exact grows_refl _
  | case3 line lines h ih =>
    have hshort : lines.map (stripLine indent) ≠ [] := by simpa using h
    have hlong : (returned lines).map (stripLine indent) ≠ [] := by simpa using returned_ne_nil h
    rw [List.map_cons, List.map_cons, joinFeeds_cons _ hshort, joinFeeds_cons _ hlong,
      List.dropLast_cons_of_ne_nil h, List.countP_cons]
    -- A line that is shorter than the indentation is cut to nothing, its carriage return included.
    by_cases hline : indent ≤ line.length
    · obtain ⟨w, hw, hreturn⟩ := exists_stripLine_return hline
      rw [hreturn, List.append_assoc, List.append_assoc]
      simpa [hline] using ih.line hw (stripLine indent line)
    · have hlt : line.length < indent := Nat.lt_of_not_le hline
      have hfeed : [CodePoint.ofChar '\n'].length + 0 ≤ [CodePoint.ofChar '\n'].length :=
        Nat.le_refl _
      rw [stripLine_return hlt, stripLine_of_le (Nat.le_of_lt hlt), List.nil_append,
        List.nil_append, unescape_char (by decide), unescape_char (by decide)]
      simpa [hline] using ih.prepend hfeed

/-- If no line but the last reaches as far as the indentation, no carriage return is left. -/
lemma map_stripLine_returned {indent : Nat} {lines : List (List Char)}
    (h : ∀ line ∈ lines.dropLast, line.length < indent) :
    (returned lines).map (stripLine indent) = lines.map (stripLine indent) := by
  fun_induction returned lines with
  | case1 => rfl
  | case2 line => rfl
  | case3 line lines hne ih =>
    rw [List.dropLast_cons_of_ne_nil hne, List.forall_mem_cons] at h
    rw [List.map_cons, List.map_cons, stripLine_return h.1, ih h.2]

/-! ## Blocks -/

/-- A text block with its quotes. -/
def textBlock (body : List Char) : List Char :=
  ['"', '"', '"'] ++ body ++ ['"', '"', '"']

/-- The lines of a text block, without the one that its opening quotes stand on. -/
def blockLines (body : List Char) : List (List Char) :=
  splitFeeds (afterFirstFeed body)

/-- A text block is decoded by stripping its lines, putting them together and reading the
escapes. -/
lemma string_textBlock (body : List Char) : string (textBlock body) =
    unescape (joinFeeds ((blockLines body).map (stripLine (sharedIndent (blockLines body))))) := by
  have hbody : dropEnds 3 (textBlock body) = body := by simp [dropEnds, textBlock]
  have hblock : isTextBlock (textBlock body) = true := rfl
  rw [string, if_pos hblock, hbody]
  rfl

lemma withReturns_textBlock (body : List Char) :
    withReturns (textBlock body) = textBlock (withReturns body) := by
  rw [textBlock, withReturns_append, withReturns_append]
  rfl

/-- A block with carriage returns has the lines of the block with carriage returns. -/
lemma blockLines_withReturns (body : List Char) :
    blockLines (withReturns body) = returned (blockLines body) := by
  rw [blockLines, afterFirstFeed_withReturns, splitFeeds_withReturns, blockLines]

/-- A text block is decoded to the same value with either kind of line ends, or to none with both,
exactly if it holds an escape that means nothing, or if none of its lines but the last reaches as
far as the indentation. So it is the exception that the line ends do not matter. -/
theorem decode_withReturns_iff (body : List Char) :
    (string (withReturns (textBlock body))).toOption = (string (textBlock body)).toOption ↔
      (∃ e, string (textBlock body) = .error e) ∨
        ∀ line ∈ (blockLines body).dropLast, line.length < sharedIndent (blockLines body) := by
  rw [withReturns_textBlock, string_textBlock, string_textBlock, blockLines_withReturns,
    sharedIndent_returned]
  generalize blockLines body = lines
  generalize sharedIndent lines = indent
  have hgrows := grows_lines indent lines
  constructor
  · intro hsame
    cases hfeeds : unescape (joinFeeds (lines.map (stripLine indent))) with
    | error e => exact .inl ⟨e, rfl⟩
    | ok points =>
      cases hreturns : unescape (joinFeeds ((returned lines).map (stripLine indent))) with
      | error e =>
        rw [hfeeds, hreturns] at hsame
        cases hsame
      | ok points' =>
        rw [hfeeds, hreturns] at hsame
        cases hsame
        have hlonger := hgrows.longer points points hfeeds hreturns
        -- Equal values are equally long, so no line has grown by a carriage return.
        have hnone : (lines.dropLast.countP fun line => indent ≤ line.length) = 0 := by omega
        refine .inr fun line hline => Nat.lt_of_not_le ?_
        simpa using List.countP_eq_zero.1 hnone line hline
  · rintro (⟨e, he⟩ | hshort)
    · obtain ⟨e', he'⟩ := hgrows.fails e he
      rw [he, he']
      rfl
    · rw [map_stripLine_returned hshort]

/-- With carriage returns a block has another value, and a backslash at the end of a line is no
escape. The first block comes out longer, the second one fails. -/
theorem decode_withReturns_differs :
    string (textBlock ['\n', ' ', 'a', '\n', ' ']) = .ok [0x61, 0x0A] ∧
      string (withReturns (textBlock ['\n', ' ', 'a', '\n', ' '])) = .ok [0x61, 0x0D, 0x0A] ∧
      string (textBlock ['\n', 'a', '\\', '\n', 'b']) = .ok [0x61, 0x62] ∧
      string (withReturns (textBlock ['\n', 'a', '\\', '\n', 'b'])) = .error ⟨'\r'⟩ := by
  -- The value of a block is that of its lines without their indentation.
  have hvalue : ∀ body text points,
      joinFeeds ((blockLines body).map (stripLine (sharedIndent (blockLines body)))) = text →
      Scans text points [] → string (textBlock body) = .ok points := by
    intro body text points htext hscans
    rw [string_textBlock, htext, hscans.unescape_eq, unescape]
    simp [Except.map]
  refine ⟨hvalue _ ['a', '\n'] _ (by decide) (.char (by decide) (.char (by decide) .here)), ?_, ?_,
    ?_⟩
  · rw [withReturns_textBlock]
    exact hvalue _ ['a', '\r', '\n'] _ (by decide)
      (.char (by decide) (.char (by decide) (.char (by decide) .here)))
  · exact hvalue _ ['a', '\\', '\n', 'b'] _ (by decide)
      (.char (by decide) (.feed (.char (by decide) .here)))
  · have htext : joinFeeds ((blockLines (withReturns ['\n', 'a', '\\', '\n', 'b'])).map
        (stripLine (sharedIndent (blockLines (withReturns ['\n', 'a', '\\', '\n', 'b']))))) =
          ['a', '\\', '\r', '\n', 'b'] := by
      decide
    rw [withReturns_textBlock, string_textBlock, htext, unescape_char (by decide), unescape_bad rfl]
    rfl

end ShapeLint.Literal
