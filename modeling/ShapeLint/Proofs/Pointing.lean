import ShapeLint.Proofs.Locations

/-!
# Errors point at their tokens

An error of a pattern text names a token and a place, and the token stands at that place (`Points`).
For a text that cannot be read this is how the token is found. An error of a literal or of a
misplaced mark is one of a leaf that was read, and a leaf is spelled by what its extent covers.

A report shows the line of the place, with carets below it. Lines and positions do not agree on
where a line ends: positions know only the line feed. In a text whose lines end in line feeds, or in
a carriage return and a line feed, they do agree, and so the carets stand below the token
(`lineAt_of_plainBreaks`).
-/

namespace ShapeLint

/-! ## Lines and positions -/

/-- What stands behind the last separator is not changed by what is put in front of a separator. -/
theorem takeWhile_reverse_append {α : Type} [BEq α] [LawfulBEq α] (separator : α)
    (line rest : List α) :
    (line ++ separator :: rest).reverse.takeWhile (· != separator) =
      rest.reverse.takeWhile (· != separator) := by
  rw [List.reverse_append, List.reverse_cons, List.append_assoc, List.takeWhile_append]
  split
  case isTrue hall =>
    rw [(List.takeWhile_prefix _).eq_of_length hall]
    simp
  case isFalse => rfl

namespace Text

/-- Each line break of the text is a line feed, or a carriage return before one. A text with other
line breaks has more lines than positions count. -/
def PlainBreaks : List Char → Prop
  | [] => True
  | c :: s => (isLineBreak c = true → c = '\n' ∨ c = '\r' ∧ s.head? = some '\n') ∧ PlainBreaks s

instance decidablePlainBreaks : (s : List Char) → Decidable (PlainBreaks s)
  | [] => isTrue trivial
  | c :: s =>
    have := decidablePlainBreaks s
    inferInstanceAs (Decidable
      ((isLineBreak c = true → c = '\n' ∨ c = '\r' ∧ s.head? = some '\n') ∧ PlainBreaks s))

lemma lastLine_feed (s t : List Char) : lastLine (s ++ '\n' :: t) = lastLine t := by
  rw [lastLine, takeWhile_reverse_append, lastLine]

/-- Without a line feed the whole text is its last line. -/
lemma lastLine_of_not_mem {s : List Char} (hs : '\n' ∉ s) : lastLine s = s :=
  lastLine_append (s := []) hs

/-! The steps of taking a text apart into lines. -/

lemma lines_go_feed (s current : List Char) :
    lines.go ('\n' :: s) current = current.reverse :: lines.go s [] := by
  rw [lines.go, if_pos (by decide)]
  exact fun _ h => absurd h (by decide)

lemma lines_go_plain {c : Char} (hc : isLineBreak c = false) (s current : List Char) :
    lines.go (c :: s) current = lines.go s (c :: current) := by
  rw [lines.go, if_neg (by simp [hc])]
  rintro _ rfl
  exact absurd hc (by decide)

/-- Characters that end no line are put on the current one. -/
lemma lines_go_append {w : List Char} (hw : ∀ c ∈ w, isLineBreak c = false)
    (s current : List Char) :
    lines.go (w ++ s) current = lines.go s (w.reverse ++ current) := by
  induction w generalizing current with
  | nil => rfl
  | cons c w ih =>
    obtain ⟨hc, hw⟩ := List.forall_mem_cons.mp hw
    rw [List.cons_append, lines_go_plain hc, ih hw, List.reverse_cons, List.append_assoc,
      List.singleton_append]

/-- What has been read of a line starts it, however the text goes on. -/
lemma prefix_getD_lines_go (s : List Char) {current : List Char} (h : current ≠ []) :
    current.reverse <+: (lines.go s current).getD 0 [] := by
  fun_induction lines.go s current with
  | case1 => exact absurd rfl h
  | case2 => exact List.prefix_refl _
  | case3 => exact List.prefix_refl _
  | case4 => exact List.prefix_refl _
  | case5 c s current hno hc ih =>
    have hlonger := ih (List.cons_ne_nil _ _)
    rw [List.reverse_cons] at hlonger
    exact (List.prefix_append _ _).trans hlonger

/-- In a text with plain line breaks, the line of a place is the text since the last line feed, and
goes on from there. The induction is on what stands in front of the place, with the current line
beside it. -/
lemma prefix_getD_lines {w v : List Char} (hw : ∀ c ∈ w, isLineBreak c = false) (hne : w ≠ [])
    (u : List Char) {current : List Char} (hu : PlainBreaks (u ++ (w ++ v)))
    (hcurrent : '\n' ∉ current) :
    lastLine (current.reverse ++ u) ++ w <+:
      (lines.go (u ++ (w ++ v)) current).getD (u.count '\n') [] := by
  induction u generalizing current with
  | nil =>
    have hline : lastLine (current.reverse ++ []) = current.reverse := by
      rw [List.append_nil]
      exact lastLine_of_not_mem (by simpa using hcurrent)
    have hread := prefix_getD_lines_go v
      (List.append_ne_nil_of_left_ne_nil (List.reverse_ne_nil_iff.mpr hne) current)
    rw [List.reverse_append, List.reverse_reverse] at hread
    rwa [hline, List.nil_append, lines_go_append hw]
  | cons c u ih =>
    obtain ⟨hbreak, hu⟩ := hu
    rw [List.cons_append]
    cases hc : isLineBreak c with
    | false =>
      have hfeed : c ≠ '\n' := by
        rintro rfl
        exact absurd hc (by decide)
      have hlonger : '\n' ∉ c :: current := by simp [hfeed.symm, hcurrent]
      have hline := ih hu hlonger
      rwa [List.reverse_cons, List.append_assoc, List.singleton_append, ← lines_go_plain hc,
        ← List.count_cons_of_ne hfeed] at hline
    | true =>
      rcases hbreak hc with rfl | ⟨rfl, hhead⟩
      · have hline := ih hu List.not_mem_nil
        rw [lines_go_feed, List.count_cons_self, List.getD_cons_succ, lastLine_feed]
        exact hline
      · -- the line feed behind the carriage return stands in front of the token, which has no line
        -- break
        cases u with
        | nil =>
          obtain ⟨d, w, rfl⟩ := List.exists_cons_of_ne_nil hne
          obtain rfl : d = '\n' := Option.some.inj hhead
          exact absurd (hw _ (List.mem_cons_self ..)) (by decide)
        | cons d u =>
          obtain rfl : d = '\n' := Option.some.inj hhead
          have hline := ih hu hcurrent
          rw [lastLine_feed] at hline
          rw [List.count_cons_of_ne (by decide), List.append_cons, lastLine_feed]
          rw [List.cons_append, lines_go_feed] at hline
          exact hline

/-- A text with plain line breaks, taken apart in front of and behind a part without line breaks,
has that part on the line of its position, at its column. -/
lemma lineAt_of_plainBreaks {u w v : List Char} (h : PlainBreaks (u ++ (w ++ v))) (hne : w ≠ [])
    (hw : ∀ c ∈ w, isLineBreak c = false) :
    lastLine u ++ w <+: lineAt (u ++ (w ++ v)) (position (u ++ (w ++ v)) u.length).line := by
  have hline := prefix_getD_lines hw hne u h List.not_mem_nil
  rw [position_append, lineAt, if_neg (Nat.succ_ne_zero _), Nat.add_sub_cancel, lines]
  exact hline

end Text

namespace Pattern

open Grammar

/-! ## Tokens of errors -/

/-- Every failure but one is reported as one of the pattern. -/
lemma CompileError.fault_of_ne {e : CompileError} (h : e.cause ≠ .badDouble) (text : List Char) :
    e.fault text = e.patternFault text := by
  unfold fault
  split
  · contradiction
  · rfl

/-- The token of the error stands in the text where the error starts, and the error ends there or
behind the token. The error is one of the pattern. -/
structure Points (text : List Char) (e : CompileError) (before after : List Char) : Prop where
  cause_ne : e.cause ≠ .badDouble
  text_eq : text = before ++ (e.token ++ after)
  start_eq : e.start = before.length
  stop_eq : e.stop = before.length ∨ e.stop = (before ++ e.token).length

/-- The error is one of a leaf of the expression, and has its token and its place. A leaf is spelled
by what its extent covers, so such an error points at its token. -/
def Blames (text : List Char) (e : Surface) (err : CompileError) : Prop :=
  ∃ part : Surface, part.Within e ∧ part.isLeaf = true ∧
    (∀ w, part.Token Spelling.Spells w → w = err.token) ∧
    err.start = text.length - part.loc.before ∧ err.stop = text.length - part.loc.after

/-- What is to blame in a part is to blame in the whole. -/
lemma Blames.of_part {text : List Char} {part e : Surface} {err : CompileError}
    (h : Blames text part err) (hpart : part ∈ e.parts) : Blames text e err := by
  obtain ⟨leaf, hwithin, hleaf⟩ := h
  exact ⟨leaf, .of_part hpart hwithin, hleaf⟩

/-- Expressions in a list are not resolved because one of them is not. -/
lemma exists_of_resolveList_error {text : List Char} {es : List Surface} {err : CompileError}
    (h : resolveList text es = .error err) : ∃ e ∈ es, resolve text e = .error err := by
  induction es with
  | nil => cases h
  | cons e es ih =>
    rw [resolveList] at h
    rcases error_of_bind_eq_error h with he | ⟨p, -, h⟩
    · exact ⟨e, List.mem_cons_self .., he⟩
    rcases error_of_bind_eq_error h with hes | ⟨ps, -, h⟩
    · obtain ⟨e', hmem, he'⟩ := ih hes
      exact ⟨e', List.mem_cons_of_mem e hmem, he'⟩
    · cases h

/-- A surface expression is not resolved because one of its parts is not, because it is a literal
without a value, or because of its arguments. -/
lemma resolve_error_cases {text : List Char} {e : Surface} {err : CompileError}
    (h : resolve text e = .error err) :
    (∃ part ∈ e.parts, resolve text part = .error err) ∨
      (∃ lit x, e = .literal lit x ∧ constant text x lit = .error err) ∨
      checkArguments text e.arguments = .error err := by
  cases e <;> rw [resolve] at h
  case wildcard | reference | anyLiteral | null | this | anyLambda | anyArguments | unknown =>
    cases h
  case literal lit x =>
    rcases error_of_bind_eq_error h with h | ⟨c, -, h⟩
    · exact .inr (.inl ⟨lit, x, rfl, h⟩)
    · cases h
  case field part _ _ | typeTest part _ _ | unary part _ | update part _ =>
    rcases error_of_bind_eq_error h with h | ⟨p, -, h⟩
    · exact .inl ⟨part, List.mem_cons_self .., h⟩
    · cases h
  case binary first second _ | element first second _ =>
    rcases error_of_bind_eq_error h with h | ⟨p, -, h⟩
    · exact .inl ⟨first, List.mem_cons_self .., h⟩
    rcases error_of_bind_eq_error h with h | ⟨q, -, h⟩
    · exact .inl ⟨second, List.mem_cons_of_mem _ (List.mem_cons_self ..), h⟩
    · cases h
  -- Arguments are resolved before they are checked, so theirs comes first.
  case ownMethod | call | creation =>
    rcases error_of_bind_eq_error h with h | ⟨ps, -, h⟩
    · exact .inl (exists_of_resolveList_error h)
    rcases error_of_bind_eq_error h with h | ⟨_, -, h⟩
    · exact .inr (.inr h)
    · cases h
  case method receiver _ _ _ =>
    rcases error_of_bind_eq_error h with h | ⟨p, -, h⟩
    · exact .inl ⟨receiver, List.mem_cons_self .., h⟩
    rcases error_of_bind_eq_error h with h | ⟨ps, -, h⟩
    · obtain ⟨part, hpart, h⟩ := exists_of_resolveList_error h
      exact .inl ⟨part, List.mem_cons_of_mem _ hpart, h⟩
    rcases error_of_bind_eq_error h with h | ⟨_, -, h⟩
    · exact .inr (.inr h)
    · cases h

/-- The parts of an expression are smaller than it, which is what the two inductions below go by. -/
lemma sizeOf_lt_of_mem_parts {part e : Surface} (h : part ∈ e.parts) : sizeOf part < sizeOf e := by
  cases e <;> simp only [Expr.parts, Expr.operands, Expr.arguments, List.nil_append,
    List.append_nil, List.not_mem_nil, List.cons_append, List.mem_cons, or_false] at h
  case field | typeTest | unary | update =>
    subst h
    simp only [Expr.field.sizeOf_spec, Expr.typeTest.sizeOf_spec, Expr.unary.sizeOf_spec,
      Expr.update.sizeOf_spec]
    omega
  case binary | element =>
    rcases h with rfl | rfl <;>
      simp only [Expr.binary.sizeOf_spec, Expr.element.sizeOf_spec] <;> omega
  case ownMethod | call | creation =>
    have hlt := List.sizeOf_lt_of_mem h
    simp only [Expr.ownMethod.sizeOf_spec, Expr.call.sizeOf_spec, Expr.creation.sizeOf_spec]
    omega
  case method =>
    rcases h with rfl | h
    · simp only [Expr.method.sizeOf_spec]
      omega
    · have hlt := List.sizeOf_lt_of_mem h
      simp only [Expr.method.sizeOf_spec]
      omega

/-- A literal without a value is to blame itself, and the token is its spelling. -/
lemma blames_of_constant {text : List Char} {x : Extent} {lit : Spelling} {err : CompileError}
    (h : constant text x lit = .error err) : Blames text (.literal lit x) err := by
  refine ⟨_, .self, rfl, ?_⟩
  cases lit with
  | boolean => cases h
  | double spelling | integer spelling | string spelling =>
    rw [constant] at h
    split at h
    · cases h
    · obtain rfl := Except.error.inj h
      exact ⟨fun w hw => hw.1, rfl, rfl⟩

/-- Arguments fail at the mark for any arguments, which is a leaf. -/
lemma blames_of_checkArguments {text : List Char} {e : Surface} {err : CompileError}
    (h : checkArguments text e.arguments = .error err) : Blames text e err := by
  unfold checkArguments at h
  split at h
  · cases h
  split at h
  case h_1 mark hfind =>
    obtain rfl := Except.error.inj h
    have hmem : mark ∈ e.parts := List.mem_append_right _ (List.mem_of_find?_eq_some hfind)
    have hmark : mark.isAnyArguments = true := List.find?_some hfind
    refine ⟨mark, .of_part hmem .self, ?_⟩
    cases mark
    case anyArguments => exact ⟨rfl, fun w hw => hw, rfl, rfl⟩
    all_goals cases hmark
  case h_2 => cases h

/-- What is wrong with a surface expression is wrong with one of its leaves. -/
lemma blames_of_resolve (text : List Char) (e : Surface) {err : CompileError}
    (h : resolve text e = .error err) :
    Blames text e err := by
  rcases resolve_error_cases h with ⟨part, hpart, herror⟩ | ⟨lit, x, rfl, herror⟩ | herror
  · have hsmaller := sizeOf_lt_of_mem_parts hpart
    exact (blames_of_resolve text part herror).of_part hpart
  · exact blames_of_constant herror
  · exact blames_of_checkArguments herror
termination_by sizeOf e

/-- Arguments fail only if there is more than one of them and one is a mark. -/
lemma exists_of_checkArguments_error {text : List Char} {args : List Surface} {err : CompileError}
    (h : checkArguments text args = .error err) :
    1 < args.length ∧ err.cause = .misplacedArguments ∧
      ∃ any ∈ args, any.isAnyArguments = true := by
  unfold checkArguments at h
  split at h
  case isTrue => cases h
  case isFalse hlength =>
    split at h
    case h_1 any hfind =>
      obtain rfl := Except.error.inj h
      exact ⟨Nat.not_le.1 hlength, rfl, any, List.mem_of_find?_eq_some hfind, List.find?_some hfind⟩
    case h_2 => cases h

/-- What is wrong with a surface expression is wrong with a literal or with the arguments of
something in it. -/
lemma exists_of_resolve_error (text : List Char) (e : Surface) {err : CompileError}
    (h : resolve text e = .error err) :
    (∃ lit x, Expr.Within (.literal lit x) e ∧ constant text x lit = .error err) ∨
      ∃ part : Surface, part.Within e ∧ checkArguments text part.arguments = .error err := by
  rcases resolve_error_cases h with ⟨part, hpart, herror⟩ | ⟨lit, x, rfl, herror⟩ | herror
  · have hsmaller := sizeOf_lt_of_mem_parts hpart
    rcases exists_of_resolve_error text part herror with
      ⟨lit, x, hwithin, hlit⟩ | ⟨below, hwithin, hargs⟩
    · exact .inl ⟨lit, x, .of_part hpart hwithin, hlit⟩
    · exact .inr ⟨below, .of_part hpart hwithin, hargs⟩
  · exact .inl ⟨lit, x, .self, herror⟩
  · exact .inr ⟨e, .self, herror⟩
termination_by sizeOf e

/-- A floating point literal that is spelled as the grammar asks has a value, and so no literal
fails for want of one. -/
lemma cause_of_constant {text : List Char} {x : Extent} {lit : Spelling} {err : CompileError}
    {w : List Char} (hw : lit.Spells w) (h : constant text x lit = .error err) :
    err.cause ≠ .badDouble := by
  cases lit with
  | double spelling =>
    obtain ⟨rfl, htext⟩ := hw
    obtain ⟨d, hd, -⟩ := Literal.floating_of_text htext
    rw [constant, hd] at h
    cases h
  | integer spelling | string spelling =>
    rw [constant] at h
    split at h
    · cases h
    · obtain rfl := Except.error.inj h
      intro hcause
      cases hcause
  | boolean => cases h

/-- What has been read from a text does not fail for want of the value of a floating point literal,
because its literals are spelled as the grammar asks. -/
lemma cause_of_resolve {text : List Char} {e : Surface} {err : CompileError}
    (h : resolve text e = .error err) (hlaid : Laid text e) : err.cause ≠ .badDouble := by
  rcases exists_of_resolve_error text e h with ⟨lit, x, hwithin, hlit⟩ | ⟨part, -, hargs⟩
  · obtain ⟨_, w, _, -, -, hspells⟩ := (hlaid _ hwithin).spelled rfl
    exact cause_of_constant hspells hlit
  · rw [(exists_of_checkArguments_error hargs).2.1]
    exact nofun

/-- An error of a leaf that sits in a text points at its token. -/
lemma Blames.points {text : List Char} {e : Surface} {err : CompileError} (h : Blames text e err)
    (hcause : err.cause ≠ .badDouble) (hlaid : Laid text e) :
    ∃ before after, Points text err before after := by
  obtain ⟨part, hwithin, hleaf, htoken, hstart, hstop⟩ := h
  obtain ⟨u, w, v, htext, hloc, hspelled⟩ := (hlaid part hwithin).spelled hleaf
  obtain rfl := htoken w hspelled
  refine ⟨u, v, hcause, htext, ?_, .inr ?_⟩
  · rw [hstart, hloc, htext, List.length_append]
    exact Nat.add_sub_cancel ..
  · rw [hstop, hloc, htext, ← List.append_assoc, List.length_append]
    exact Nat.add_sub_cancel ..

/-- Every error of a text points at its token. A text that is nested too deeply is reported at its
start, one that cannot be read at the marked place, and any other error is one of a leaf. -/
theorem exists_points {room : Room Opening} {text : List Char} {err : CompileError}
    (h : compileChars room text = .error err) :
    ∃ before after, Points text err before after := by
  unfold compileChars at h
  cases hread : whole room text.length text with
  -- A text that is nested too deeply is reported at its start, with the front of it for a token.
  | deep =>
    rw [hread] at h
    obtain rfl := Except.error.inj h
    exact ⟨[], text.drop tokenWidth, nofun, (List.take_append_drop ..).symm, rfl, .inl rfl⟩
  | fail mark =>
    rw [hread] at h
    obtain rfl := Except.error.inj h
    obtain ⟨after, hafter⟩ := starts_tokenAt (text.drop (text.length - mark))
    have hlength : text.length - mark = (text.take (text.length - mark)).length := by
      rw [List.length_take]
      omega
    -- What is unexpected starts where the furthest rule failed.
    refine ⟨text.take (text.length - mark), after, nofun, ?_, hlength, .inl hlength⟩
    rw [unexpectedAt, hafter, List.take_append_drop]
  | ok read rest mark =>
    obtain ⟨surface, suffix⟩ := read
    rw [hread, ofReply] at h
    rcases error_of_bind_eq_error h with herror | ⟨p, -, hnone⟩
    · have hlaid := laid_of_whole hread
      exact (blames_of_resolve text surface herror).points (cause_of_resolve herror hlaid) hlaid
    · split at hnone <;> cases hnone

/-! ## Reports of errors -/

/-- A report with a line and without notes and hint has three lines. -/
lemma text_of_excerpt {d : Diagnostic} (hline : d.sourceLine ≠ "") (hcolumn : d.span.column ≠ 0)
    (hnotes : d.notes = []) (hhint : d.hint = "") :
    d.text = "\n".intercalate [d.headline, "    " ++ d.sourceLine, d.caret] := by
  simp [Diagnostic.text, Diagnostic.excerpt, hline, hcolumn, hnotes, hhint]

section
variable {text before after : List Char} {e : CompileError} (h : Points text e before after)
include h

/-- The report starts at the position of the token. -/
lemma Points.start_span :
    (e.fault text).diagnostic.span.start = Text.position text before.length := by
  rw [← h.start_eq, CompileError.fault_of_ne h.cause_ne]
  rfl

/-- The line that is reported goes on with the token behind what stands in front of it. -/
lemma Points.sourceLine (hbreaks : Text.PlainBreaks text) (hne : e.token ≠ [])
    (htoken : ∀ c ∈ e.token, Text.isLineBreak c = false) :
    ∃ more, (e.fault text).diagnostic.sourceLine =
      String.ofList (Text.lastLine before ++ (e.token ++ more)) := by
  have hline : (e.fault text).diagnostic.sourceLine =
      String.ofList (Text.lineAt text (Text.position text before.length).line) := by
    rw [← h.start_span, CompileError.fault_of_ne h.cause_ne, CompileError.patternFault,
      Fault.withExcerpt]
    dsimp only
    rw [String.toList_ofList]
    rfl
  obtain ⟨more, hmore⟩ : Text.lastLine before ++ e.token <+:
      Text.lineAt text (Text.position text before.length).line := by
    rw [h.text_eq] at hbreaks ⊢
    exact Text.lineAt_of_plainBreaks hbreaks hne htoken
  exact ⟨more, by rw [hline, ← hmore, List.append_assoc]⟩

/-- The position of the token counts the line feeds in front of it. -/
lemma Points.position_eq :
    Text.position text before.length =
      ⟨before.count '\n' + 1, (Text.lastLine before).length + 1⟩ := by
  rw [h.text_eq, Text.position_append]

/-- The line of the report is that of the token. -/
lemma Points.line_eq : (e.fault text).diagnostic.span.line = before.count '\n' + 1 :=
  congrArg Text.Position.line (h.start_span.trans h.position_eq)

/-- The column is that of what stands in front of the token on its line. -/
lemma Points.column_eq :
    (e.fault text).diagnostic.span.column = (Text.lastLine before).length + 1 :=
  congrArg Text.Position.column (h.start_span.trans h.position_eq)

/-- The report of a token that lies on one line ends where the token starts or where it ends. -/
lemma Points.stop_span (hfeed : '\n' ∉ e.token) :
    ∃ n ≤ e.token.length, (e.fault text).diagnostic.span.stop =
      ⟨before.count '\n' + 1, (Text.lastLine before).length + n + 1⟩ := by
  have hstop : (e.fault text).diagnostic.span.stop = Text.position text e.stop := by
    rw [CompileError.fault_of_ne h.cause_ne]
    exact Span.stop_ofOffsets text e.start e.stop
  rcases h.stop_eq with hend | hend
  · refine ⟨0, Nat.zero_le _, ?_⟩
    rw [hstop, hend, h.position_eq, Nat.add_zero]
  · refine ⟨e.token.length, Nat.le_refl _, ?_⟩
    rw [hstop, hend, h.text_eq, ← List.append_assoc, Text.position_append,
      Text.lastLine_append hfeed, List.count_append, List.count_eq_zero_of_not_mem hfeed,
      List.length_append, Nat.add_zero]

/-- There is a caret, and there are no more of them than the token has characters. -/
lemma Points.width_eq (hne : e.token ≠ []) (htoken : ∀ c ∈ e.token, Text.isLineBreak c = false) :
    ∃ n < e.token.length, (e.fault text).diagnostic.width = n + 1 := by
  have hpos := List.length_pos_iff.mpr hne
  obtain ⟨n, hn, hstop⟩ := h.stop_span fun hmem => absurd (htoken _ hmem) (by decide)
  have hline : (e.fault text).diagnostic.span.endLine = before.count '\n' + 1 :=
    congrArg Text.Position.line hstop
  have hcolumn : (e.fault text).diagnostic.span.endColumn = (Text.lastLine before).length + n + 1 :=
    congrArg Text.Position.column hstop
  -- an error that ends where it starts still has one caret
  refine ⟨n - 1, by omega, ?_⟩
  rw [Diagnostic.width, hline, hcolumn, h.line_eq, h.column_eq, if_pos rfl]
  omega

/-- The report has the token on its line, and the carets below it. -/
lemma Points.report (hbreaks : Text.PlainBreaks text) (hne : e.token ≠ [])
    (htoken : ∀ c ∈ e.token, Text.isLineBreak c = false) :
    ∃ more, ∃ n < e.token.length,
      (e.fault text).diagnostic.sourceLine =
        String.ofList (Text.lastLine before ++ (e.token ++ more)) ∧
      (e.fault text).text = "\n".intercalate [(e.fault text).diagnostic.headline,
        "    " ++ String.ofList (Text.lastLine before ++ (e.token ++ more)),
        "    " ++ String.ofList
          (List.replicate (Text.lastLine before).length ' ' ++ List.replicate (n + 1) '^')] := by
  obtain ⟨more, hline⟩ := h.sourceLine hbreaks hne htoken
  obtain ⟨n, hn, hwidth⟩ := h.width_eq hne htoken
  have hcolumn := h.column_eq
  -- The line holds the token, so it is not empty and is shown.
  have hsome : (e.fault text).diagnostic.sourceLine ≠ "" := by
    rw [hline]
    intro hempty
    have hnil := congrArg String.toList hempty
    simp [hne] at hnil
  have hplain : (e.fault text).diagnostic.notes = [] ∧ (e.fault text).diagnostic.hint = "" := by
    rw [CompileError.fault_of_ne h.cause_ne]
    exact ⟨rfl, rfl⟩
  refine ⟨more, n, hn, hline, ?_⟩
  rw [Fault.text, text_of_excerpt hsome (by omega) hplain.1 hplain.2, Diagnostic.caret, hline,
    hwidth, hcolumn, Nat.add_sub_cancel]

end

/-- The fault of a text is that of its failure. -/
lemma exists_of_compileIn_error {room : Room Opening} {t : String} {f : Fault}
    (h : compileIn room t = .error f) :
    ∃ e, compileChars room t.toList = .error e ∧ e.fault t.toList = f := by
  unfold compileIn at h
  cases hchars : compileChars room t.toList with
  | ok k =>
    rw [hchars] at h
    cases h
  | error e =>
    rw [hchars] at h
    exact ⟨e, rfl, Except.error.inj h⟩

/-- **Errors point at their tokens.** The place of an error is that of an offset at which its token
stands in the text. If all line breaks of the text are plain and the token has none, the line of the
report has the token at the column of the place, and below it stand one or more carets, all of them
under the token. -/
theorem compile_error_points {room : Room Opening} {t : String} {f : Fault}
    (h : compileIn room t = .error f) :
    ∃ offset token, offset ≤ t.toList.length ∧ token <+: t.toList.drop offset ∧
      f.kind = .pattern t (String.ofList token) none ∧
      f.diagnostic.span.line = (Span.atOffset t.toList offset).line ∧
      f.diagnostic.span.column = (Span.atOffset t.toList offset).column ∧
      (Text.PlainBreaks t.toList → token ≠ [] → (∀ c ∈ token, Text.isLineBreak c = false) →
        ∃ front more n, f.diagnostic.sourceLine = String.ofList (front ++ (token ++ more)) ∧
          f.diagnostic.span.column = front.length + 1 ∧ n < token.length ∧
          f.text = "\n".intercalate
            [f.diagnostic.headline, "    " ++ String.ofList (front ++ (token ++ more)),
            "    " ++ String.ofList
              (List.replicate front.length ' ' ++ List.replicate (n + 1) '^')]) := by
  obtain ⟨e, he, rfl⟩ := exists_of_compileIn_error h
  obtain ⟨before, after, hpoints⟩ := exists_points he
  refine ⟨before.length, e.token, ?_, ?_, ?_, ?_, ?_, fun hbreaks hne htoken => ?_⟩
  · rw [hpoints.text_eq, List.length_append]
    exact Nat.le_add_right ..
  · rw [hpoints.text_eq, List.drop_left]
    exact List.prefix_append ..
  · rw [CompileError.fault_of_ne hpoints.cause_ne, CompileError.patternFault, String.ofList_toList]
    rfl
  · exact congrArg Text.Position.line hpoints.start_span
  · exact congrArg Text.Position.column hpoints.start_span
  · obtain ⟨more, n, hn, hline, htext⟩ := hpoints.report hbreaks hne htoken
    exact ⟨Text.lastLine before, more, n, hline, hpoints.column_eq, hn, htext⟩

/-- The mark for any arguments stands beside another argument, on the second of two lines. -/
theorem compile_error_points_misplaced : ∃ f front more n, compile "f(\r\n  x, ...)" = .error f ∧
    Text.PlainBreaks "f(\r\n  x, ...)".toList ∧ f.diagnostic.span.line = 2 ∧
      f.diagnostic.span.column = 6 ∧
      f.diagnostic.sourceLine = String.ofList (front ++ ("...".toList ++ more)) ∧
        front.length = 5 ∧ n < 3 ∧
        f.text = "\n".intercalate
          [f.diagnostic.headline, "    " ++ String.ofList (front ++ ("...".toList ++ more)),
          "    " ++ String.ofList
            (List.replicate front.length ' ' ++ List.replicate (n + 1) '^')] := by
  -- the failure is computed, since kinds cannot be compared
  have hchars : compileChars stackRoom "f(\r\n  x, ...)".toList =
      .error ⟨.misplacedArguments, "...".toList, 9, 12⟩ := by
    have hstep : (compileChars stackRoom "f(\r\n  x, ...)".toList >>= fun _ => .ok ()) =
        .error ⟨.misplacedArguments, "...".toList, 9, 12⟩ := by decide +kernel
    rcases error_of_bind_eq_error hstep with h | ⟨_, -, h⟩
    · exact h
    · cases h
  have hcompile : compile "f(\r\n  x, ...)" =
      .error (CompileError.fault ⟨.misplacedArguments, "...".toList, 9, 12⟩
        "f(\r\n  x, ...)".toList) := by
    rw [compile, compileIn, hchars]
    rfl
  have hbreaks : Text.PlainBreaks "f(\r\n  x, ...)".toList := by decide
  obtain ⟨offset, token, -, -, hkind, -, -, hreport⟩ := compile_error_points hcompile
  obtain ⟨-, hsame, -⟩ := FaultKind.pattern.inj hkind
  obtain rfl : "...".toList = token := by simpa using congrArg String.toList hsame
  obtain ⟨front, more, n, hsource, hcolumn, hn, htext⟩ := hreport hbreaks (by decide) (by decide)
  have hplace : front.length + 1 = 6 := hcolumn.symm
  exact ⟨_, front, more, n, hcompile, hbreaks, by decide, by decide, hsource, by omega, hn, htext⟩

end Pattern

end ShapeLint
