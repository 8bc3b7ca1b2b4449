import Mathlib.Data.Nat.Basic
import Mathlib.Order.Basic
import ShapeLint.Proofs.TextBlocks

/-!
# The indentation that lines share

The lines of a text block are moved to the left by the indentation that they share, and what blanks
stand at their ends is cut off. Lines with nothing on them have no say in how far, except for the
last, on which the closing quotes stand.

White space in general decides whether there is something on a line, but only spaces and tabs are
indentation. So a blank line can be shorter than the indentation, or start with something that is
none. It is cut all the same, and stays blank.

The shared indentation is known by what is below it: `n ≤ sharedIndent ls` says that each line with
a say starts with `n` spaces and tabs (`sharedBy_iff`). How it changes with the lines is read off
this, whether they are all moved to the right (`sharedIndent_map_append`) or are stripped already
(`sharedIndent_map_stripLine`).
-/

namespace ShapeLint.Literal

open Text (isIndent isSpace joinFeeds splitFeeds trimEnd)

/-! ## Lines of a text -/

lemma splitFeeds_of_not_mem {line : List Char} (h : '\n' ∉ line) : splitFeeds line = [line] := by
  induction line with
  | nil => rfl
  | cons c line ih =>
    obtain ⟨hc, hline⟩ := not_or.1 (List.mem_cons.not.1 h)
    rw [splitFeeds, if_neg (Ne.symm hc), ih hline]

/-- The first line ends at the first line feed. -/
lemma splitFeeds_append {line : List Char} (h : '\n' ∉ line) (s : List Char) :
    splitFeeds (line ++ '\n' :: s) = line :: splitFeeds s := by
  induction line with
  | nil => simp [splitFeeds]
  | cons c line ih =>
    obtain ⟨hc, hline⟩ := not_or.1 (List.mem_cons.not.1 h)
    rw [List.cons_append, splitFeeds, if_neg (Ne.symm hc), ih hline]

/-- Lines that are put together are found again, if there is one and none has a line feed in it. -/
lemma splitFeeds_joinFeeds {ls : List (List Char)} (hne : ls ≠ [])
    (hls : ∀ line ∈ ls, '\n' ∉ line) :
    splitFeeds (joinFeeds ls) = ls := by
  induction ls with
  | nil => exact absurd rfl hne
  | cons line ls ih =>
    obtain ⟨hline, hothers⟩ := List.forall_mem_cons.1 hls
    cases ls with
    | nil => exact splitFeeds_of_not_mem hline
    | cons next rest =>
      rw [joinFeeds_cons line (List.cons_ne_nil next rest), splitFeeds_append hline,
        ih (List.cons_ne_nil _ _) hothers]

/-- No line has a line feed in it. -/
lemma not_mem_of_mem_splitFeeds {s line : List Char} (h : line ∈ splitFeeds s) : '\n' ∉ line := by
  induction s generalizing line with
  | nil =>
    obtain rfl := List.mem_singleton.1 h
    exact List.not_mem_nil
  | cons c s ih =>
    rw [splitFeeds] at h
    split at h
    case isTrue =>
      obtain rfl | h := List.mem_cons.1 h
      · exact List.not_mem_nil
      · exact ih h
    case isFalse hc =>
      -- The character joins the first line of what follows; the other lines stay as they are.
      obtain ⟨first, others, hs⟩ := List.exists_cons_of_ne_nil (splitFeeds_ne_nil s)
      rw [hs] at h ih
      obtain rfl | h := List.mem_cons.1 h
      · have hfirst := ih (List.mem_cons_self ..)
        exact fun hmem => (List.mem_cons.1 hmem).elim (fun heq => hc heq.symm) hfirst
      · exact ih (List.mem_cons_of_mem _ h)

/-! ## One line -/

/-- There is something on the line that is not white space. -/
def HasInk (line : List Char) : Prop :=
  ∃ c ∈ line, isSpace c = false

/-- The line starts with so many spaces and tabs, or more. Each counts as one, whatever its
width. -/
def StartsIndented (n : Nat) (line : List Char) : Prop :=
  ∃ lead rest, line = lead ++ rest ∧ lead.length = n ∧ ∀ c ∈ lead, isIndent c = true

lemma isSpace_of_isIndent {c : Char} (h : isIndent c = true) : isSpace c = true := by
  obtain rfl | rfl : c = ' ' ∨ c = '\t' := by simpa [isIndent] using h
  · rfl
  · rfl

lemma hasInk_iff {line : List Char} : HasInk line ↔ isBlankLine line = false := by
  rw [HasInk, isBlankLine, List.all_eq_false]
  exact exists_congr fun c => and_congr_right fun _ => Bool.not_eq_true _ ▸ Iff.rfl

lemma not_hasInk_iff {line : List Char} : ¬ HasInk line ↔ isBlankLine line = true := by
  rw [hasInk_iff, Bool.not_eq_false]

lemma indentOf_append {lead : List Char} (h : ∀ c ∈ lead, isIndent c = true) (rest : List Char) :
    indentOf (lead ++ rest) = lead.length + indentOf rest := by
  rw [indentOf, indentOf, List.takeWhile_append_of_pos h, List.length_append]

lemma indentOf_le_append (line rest : List Char) : indentOf line ≤ indentOf (line ++ rest) := by
  rw [indentOf, indentOf, List.takeWhile_append]
  split
  case isTrue h =>
    rw [h, List.length_append]
    exact Nat.le_add_right _ _
  case isFalse => exact Nat.le_refl _

/-- How far a line is indented is the largest number it starts with so many spaces and tabs. -/
lemma startsIndented_iff {n : Nat} {line : List Char} :
    StartsIndented n line ↔ n ≤ indentOf line := by
  constructor
  · rintro ⟨lead, rest, rfl, rfl, hlead⟩
    rw [indentOf_append hlead]
    exact Nat.le_add_right _ _
  · intro hn
    have hfront : line = line.takeWhile isIndent ++ line.dropWhile isIndent :=
      List.takeWhile_append_dropWhile.symm
    refine ⟨(line.takeWhile isIndent).take n,
      (line.takeWhile isIndent).drop n ++ line.dropWhile isIndent, ?_, ?_, ?_⟩
    · rw [← List.append_assoc, List.take_append_drop, ← hfront]
    · exact List.length_take_of_le hn
    · exact fun c hc => List.all_eq_true.1 List.all_takeWhile c (List.mem_of_mem_take hc)

/-! ## The shared indentation -/

/-- So much indentation is shared: each line with something on it starts with it, and so does the
last. This is the definition without the program; `sharedBy_iff` says that the two agree. -/
def SharedBy (n : Nat) (ls : List (List Char)) : Prop :=
  (∀ line ∈ ls, HasInk line → StartsIndented n line) ∧ ∀ last ∈ ls.getLast?, StartsIndented n last

/-- The lines with a say are those with something on them and the last, if it is blank. -/
lemma mem_significantLines {ls : List (List Char)} {line : List Char} :
    line ∈ significantLines ls ↔
      line ∈ ls ∧ HasInk line ∨ ls.getLast? = some line ∧ isBlankLine line = true := by
  rw [significantLines, List.mem_append, List.mem_filter, hasInk_iff, Bool.not_eq_true']
  refine or_congr_right ?_
  cases ls.getLast? with
  | none => simp
  | some last =>
    dsimp only
    split
    case isTrue hblank =>
      rw [List.mem_singleton, Option.some.injEq]
      exact ⟨fun h => ⟨h.symm, h ▸ hblank⟩, fun h => h.1.symm⟩
    case isFalse hink =>
      refine iff_of_false List.not_mem_nil ?_
      rintro ⟨heq, hblank⟩
      exact hink (Option.some.inj heq ▸ hblank)

lemma significantLines_ne_nil {ls : List (List Char)} (hne : ls ≠ []) :
    significantLines ls ≠ [] := by
  have hlast := List.getLast?_eq_some_getLast hne
  by_cases hink : HasInk (ls.getLast hne)
  · exact List.ne_nil_of_mem (mem_significantLines.2 (.inl ⟨List.getLast_mem hne, hink⟩))
  · exact List.ne_nil_of_mem (mem_significantLines.2 (.inr ⟨hlast, not_hasInk_iff.1 hink⟩))

/-- The shared indentation is the least of the lines with a say. -/
lemma le_sharedIndent_iff {ls : List (List Char)} (hne : ls ≠ []) {n : Nat} :
    n ≤ sharedIndent ls ↔ ∀ line ∈ significantLines ls, n ≤ indentOf line := by
  obtain ⟨least, hleast⟩ : ∃ least, ((significantLines ls).map indentOf).min? = some least :=
    Option.isSome_iff_exists.1 (List.isSome_min?_iff.2 (by simpa using significantLines_ne_nil hne))
  rw [sharedIndent, hleast, Option.getD_some, List.le_min?_iff hleast]
  exact List.forall_mem_map

/-- What is shared is what is at most the shared indentation. -/
lemma sharedBy_iff {ls : List (List Char)} (hne : ls ≠ []) {n : Nat} :
    SharedBy n ls ↔ n ≤ sharedIndent ls := by
  rw [le_sharedIndent_iff hne, SharedBy]
  simp only [startsIndented_iff, mem_significantLines]
  constructor
  · rintro ⟨hink, hlast⟩ line (⟨hmem, h⟩ | ⟨h, -⟩)
    · exact hink line hmem h
    · exact hlast line h
  · intro hall
    refine ⟨fun line hmem h => hall line (.inl ⟨hmem, h⟩), fun last hlast => ?_⟩
    -- the last line has a say whether it is blank or not
    by_cases hink : HasInk last
    · exact hall last (.inl ⟨List.mem_of_getLast? hlast, hink⟩)
    · exact hall last (.inr ⟨hlast, not_hasInk_iff.1 hink⟩)

/-! ## Moving all lines to the right -/

/-- A text with something put in front of each of its lines. -/
def indentLines (lead body : List Char) : List Char :=
  joinFeeds ((splitFeeds body).map (lead ++ ·))

section

variable {lead : List Char}

lemma hasInk_append (h : ∀ c ∈ lead, isIndent c = true) (line : List Char) :
    HasInk (lead ++ line) ↔ HasInk line := by
  have hspace : isBlankLine lead = true := List.all_eq_true.2 fun c hc =>
    isSpace_of_isIndent (h c hc)
  rw [hasInk_iff, hasInk_iff, isBlankLine, List.all_append, ← isBlankLine, hspace, Bool.true_and,
    ← isBlankLine]

/-- Moved to the right, the lines share more by what they were moved. Two numbers are compared here
by what is below them. -/
lemma sharedIndent_map_append (h : ∀ c ∈ lead, isIndent c = true) {ls : List (List Char)}
    (hne : ls ≠ []) :
    sharedIndent (ls.map (lead ++ ·)) = lead.length + sharedIndent ls := by
  have hne' : ls.map (lead ++ ·) ≠ [] := by simpa using hne
  refine eq_of_forall_le_iff fun n => ?_
  have hmoved : SharedBy n (ls.map (lead ++ ·)) ↔ SharedBy (n - lead.length) ls := by
    simp only [SharedBy, List.forall_mem_map, List.getLast?_map, Option.mem_def,
      Option.map_eq_some_iff, forall_exists_index, and_imp, forall_apply_eq_imp_iff₂,
      hasInk_append h, startsIndented_iff, indentOf_append h, Nat.sub_le_iff_le_add']
  rw [← sharedBy_iff hne', hmoved, sharedBy_iff hne, Nat.sub_le_iff_le_add']

/-- The lines of the moved text are the moved lines. -/
lemma splitFeeds_indentLines (h : ∀ c ∈ lead, isIndent c = true) (body : List Char) :
    splitFeeds (indentLines lead body) = (splitFeeds body).map (lead ++ ·) := by
  refine splitFeeds_joinFeeds (by simpa using splitFeeds_ne_nil body)
    (List.forall_mem_map.2 fun line hline hfeed => ?_)
  obtain hfeed | hfeed := List.mem_append.1 hfeed
  · exact absurd (h _ hfeed) (by decide)
  · exact not_mem_of_mem_splitFeeds hline hfeed

end

/-! ## What is left of the lines -/

lemma stripIndent_eq (body : List Char) :
    stripIndent body =
      joinFeeds ((splitFeeds body).map (stripLine (sharedIndent (splitFeeds body)))) :=
  rfl

/-- Trimming is done after one time. -/
lemma trimEnd_trimEnd (p : Char → Bool) (s : List Char) :
    trimEnd p (trimEnd p s) = trimEnd p s := by
  rw [trimEnd, trimEnd, List.reverse_reverse,
    Grammar.dropWhile_of_halts (Grammar.halts_dropWhile p s.reverse)]

/-- Stripping puts nothing on a line. -/
lemma subset_of_stripLine (n : Nat) (line : List Char) : stripLine n line ⊆ line := by
  intro c hc
  obtain ⟨trail, -, hdrop⟩ := exists_trimEnd_append isIndent (line.drop n)
  refine List.mem_of_mem_drop (i := n) ?_
  rw [hdrop]
  exact List.mem_append_left trail hc

/-- What is left of a line: so many spaces and tabs at its front are gone, and all spaces and tabs
at its end. -/
def IsLeftOf (n : Nat) (line line' : List Char) : Prop :=
  ∃ lead trail, line = lead ++ line' ++ trail ∧ lead.length = n ∧
    (∀ c ∈ lead ++ trail, isIndent c = true) ∧
    ∀ c ∈ line'.getLast?, isIndent c = false

/-- Of a line that is indented far enough, only indentation and blanks at the end are cut off. -/
lemma isLeftOf_stripLine {n : Nat} {line : List Char} (h : n ≤ indentOf line) :
    IsLeftOf n line (stripLine n line) := by
  obtain ⟨lead, rest, rfl, rfl, hlead⟩ := startsIndented_iff.2 h
  obtain ⟨trail, htrail, hrest⟩ := exists_trimEnd_append isIndent rest
  have hstrip : stripLine lead.length (lead ++ rest) = trimEnd isIndent rest := by
    rw [stripLine, List.drop_left]
  rw [hstrip]
  refine ⟨lead, trail, ?_, rfl, List.forall_mem_append.2 ⟨hlead, htrail⟩, fun c hc => ?_⟩
  · rw [List.append_assoc, ← hrest]
  · rw [trimEnd, List.getLast?_reverse] at hc
    exact Grammar.halts_dropWhile isIndent rest.reverse c hc

/-- A blank line stays blank, and a line with something on it keeps what is on it. -/
lemma hasInk_stripLine {n : Nat} {line : List Char} (h : HasInk line → n ≤ indentOf line) :
    HasInk (stripLine n line) ↔ HasInk line := by
  constructor
  · rintro ⟨c, hc, hink⟩
    exact ⟨c, subset_of_stripLine n line hc, hink⟩
  · intro hline
    obtain ⟨lead, trail, heq, -, hindent, -⟩ := isLeftOf_stripLine (h hline)
    obtain ⟨c, hc, hink⟩ := hline
    refine ⟨c, ?_, hink⟩
    have hcut : c ∉ lead ++ trail := by
      intro hmem
      rw [isSpace_of_isIndent (hindent c hmem)] at hink
      cases hink
    rw [heq, List.append_assoc, List.mem_append, List.mem_append] at hc
    rw [List.mem_append] at hcut
    tauto

/-- What is left of a line is indented less by what was cut off, or is nothing. It can be less than
that, as blanks at its end may have been its indentation. -/
lemma add_indentOf_stripLine {n : Nat} {line : List Char} (h : n ≤ indentOf line) :
    n + indentOf (stripLine n line) ≤ indentOf line := by
  obtain ⟨lead, rest, rfl, rfl, hlead⟩ := startsIndented_iff.2 h
  obtain ⟨trail, -, hrest⟩ := exists_trimEnd_append isIndent rest
  have hle := indentOf_le_append (trimEnd isIndent rest) trail
  rw [← hrest] at hle
  rw [stripLine, List.drop_left, indentOf_append hlead]
  exact Nat.add_le_add_left hle _

/-- Stripped lines share no indentation: what they shared, the lines would have shared in addition.
-/
lemma sharedIndent_map_stripLine {ls : List (List Char)} (hne : ls ≠ []) :
    sharedIndent (ls.map (stripLine (sharedIndent ls))) = 0 := by
  have hne' : ls.map (stripLine (sharedIndent ls)) ≠ [] := by simpa using hne
  obtain ⟨hink, hlast⟩ := (sharedBy_iff hne).2 (Nat.le_refl (sharedIndent ls))
  obtain ⟨hink', hlast'⟩ := (sharedBy_iff hne').2 (Nat.le_refl _)
  generalize hm : sharedIndent (ls.map (stripLine (sharedIndent ls))) = m at hink' hlast'
  -- if the stripped lines shared more, the lines would share that in addition
  have hmore : SharedBy (sharedIndent ls + m) ls := by
    have hadd {line : List Char} (h : StartsIndented (sharedIndent ls) line)
        (h' : StartsIndented m (stripLine (sharedIndent ls) line)) :
        StartsIndented (sharedIndent ls + m) line := by
      rw [startsIndented_iff] at h h' ⊢
      exact Nat.le_trans (Nat.add_le_add_left h' _) (add_indentOf_stripLine h)
    constructor
    · intro line hmem hline
      have hink'' := (hasInk_stripLine fun h => startsIndented_iff.1 (hink line hmem h)).2 hline
      exact hadd (hink line hmem hline) (hink' _ (List.mem_map_of_mem hmem) hink'')
    · intro last hmem
      have hmem' :
          stripLine (sharedIndent ls) last ∈ (ls.map (stripLine (sharedIndent ls))).getLast? := by
        rw [List.getLast?_map]
        exact Option.mem_map_of_mem _ hmem
      exact hadd (hlast last hmem) (hlast' _ hmem')
  have hle := (sharedBy_iff hne).1 hmore
  omega

/-- The lines of the stripped text are the stripped lines. -/
lemma splitFeeds_stripIndent (body : List Char) :
    splitFeeds (stripIndent body) =
      (splitFeeds body).map (stripLine (sharedIndent (splitFeeds body))) := by
  rw [stripIndent_eq]
  refine splitFeeds_joinFeeds (by simpa using splitFeeds_ne_nil body)
    (List.forall_mem_map.2 fun line hline hfeed => ?_)
  exact not_mem_of_mem_splitFeeds hline (subset_of_stripLine _ line hfeed)

/-- Moving all lines to the right makes no difference to what is left of them. -/
lemma stripIndent_indentLines {lead : List Char} (h : ∀ c ∈ lead, isIndent c = true)
    (body : List Char) :
    stripIndent (indentLines lead body) = stripIndent body := by
  rw [stripIndent_eq, stripIndent_eq, splitFeeds_indentLines h,
    sharedIndent_map_append h (splitFeeds_ne_nil body), List.map_map]
  refine congrArg joinFeeds (List.map_congr_left fun line _ => ?_)
  rw [Function.comp_apply, stripLine, List.drop_length_add_append, stripLine]

/-- There is nothing to strip from stripped lines. -/
lemma stripIndent_stripIndent (body : List Char) :
    stripIndent (stripIndent body) = stripIndent body := by
  rw [stripIndent_eq (stripIndent body), splitFeeds_stripIndent,
    sharedIndent_map_stripLine (splitFeeds_ne_nil body), List.map_map, stripIndent_eq]
  refine congrArg joinFeeds (List.map_congr_left fun line _ => ?_)
  rw [Function.comp_apply, stripLine, List.drop_zero, stripLine, trimEnd_trimEnd]

/-- Stripping does not see by how much all lines are moved to the right, and is done after one time.
It keeps the number of lines, and of each line with something on it takes away the same number of
spaces and tabs, besides those at its end. This is the largest number that the lines with something
on them and the last line have in common. -/
theorem stripIndent_strips_shared (body : List Char) :
    (∀ lead, (∀ c ∈ lead, isIndent c = true) →
      stripIndent (indentLines lead body) = stripIndent body) ∧
      stripIndent (stripIndent body) = stripIndent body ∧
      ∃ n, (∀ m, SharedBy m (splitFeeds body) ↔ m ≤ n) ∧
        List.Forall₂ (fun line line' => HasInk line → IsLeftOf n line line') (splitFeeds body)
          (splitFeeds (stripIndent body)) := by
  have hne := splitFeeds_ne_nil body
  refine ⟨fun lead hlead => stripIndent_indentLines hlead body, stripIndent_stripIndent body,
    sharedIndent (splitFeeds body), fun m => sharedBy_iff hne, ?_⟩
  rw [splitFeeds_stripIndent, List.forall₂_map_right_iff, List.forall₂_same]
  intro line hmem hink
  exact isLeftOf_stripLine
    (startsIndented_iff.1 (((sharedBy_iff hne).2 (Nat.le_refl _)).1 line hmem hink))

/-- Two lines with something on them and two blank ones with a form feed, of which one is shorter
than the indentation and the other is the last. -/
def unevenBody : List Char :=
  [' ', ' ', 'a', ' ', '\n', '\x0c', '\n', '\t', ' ', ' ', 'b', '\n', ' ', ' ', '\x0c']

/-- The body with a tab and a space in front of each line comes to the same. A blank line that is
shorter than the indentation comes out empty. -/
theorem stripIndent_strips_shared_unevenBody :
    (∀ c ∈ ['\t', ' '], isIndent c = true) ∧
      stripIndent (indentLines ['\t', ' '] unevenBody) = stripIndent unevenBody ∧
      stripIndent unevenBody = ['a', '\n', '\n', ' ', 'b', '\n', '\x0c'] :=
  have hlead : ∀ c ∈ ['\t', ' '], isIndent c = true := by decide
  ⟨hlead, (stripIndent_strips_shared unevenBody).1 _ hlead, by decide⟩

end ShapeLint.Literal
