import ShapeLint.Proofs.Layout
import ShapeLint.Proofs.Values

/-!
# The simple name of a type

A type is written as names with dots between them, and each of the names can have generic arguments
in angle brackets, which are nested to any depth. Its simple name is the last of the names. What the
linter takes for it is found in the flat text, up to the first opening bracket and behind the last
dot that is left, and so it is the first name that has arguments (`TypeText.simpleTypeName_eq`).
That is the last name exactly if the names before the last have no arguments, or happen to be the
same name.
-/

namespace ShapeLint.Java

open Text (codePoints isIdentifierPart isIdentifierStart isSpace)

/-! ## Types as they are written -/

/-- A name of the source language, which may hold letters of any script. -/
def IsIdentifier (w : List Char) : Prop :=
  ∃ c cs, w = c :: cs ∧ isIdentifierStart c = true ∧ ∀ d ∈ cs, isIdentifierPart d = true

/-- Each opening angle bracket of the text is closed. -/
inductive Balanced : List Char → Prop where
  | nil : Balanced []
  | char {c : Char} {s : List Char} : c ≠ '<' → c ≠ '>' → Balanced s → Balanced (c :: s)
  | nested {s t : List Char} : Balanced s → Balanced t → Balanced ('<' :: (s ++ '>' :: t))

/-- A part of a type: a name, with generic arguments or without. -/
structure TypePart where
  name : List Char
  isGeneric : Bool
deriving DecidableEq

/-- The text of a part: a name, and perhaps generic arguments behind it, with white space in
between. -/
inductive PartText : TypePart → List Char → Prop where
  | plain {name : List Char} : IsIdentifier name → PartText ⟨name, false⟩ name
  | generic {name gap arguments : List Char} : IsIdentifier name → (∀ c ∈ gap, isSpace c = true) →
      Balanced arguments →
      PartText ⟨name, true⟩ (name ++ (gap ++ '<' :: (arguments ++ ['>'])))

/-- The text of a type: its parts with dots between them, and white space around the dots. -/
inductive TypeText : List TypePart → List Char → Prop where
  | single {part : TypePart} {s : List Char} : PartText part s → TypeText [part] s
  | dotted {part : TypePart} {parts : List TypePart} {s a b t : List Char} :
      PartText part s → (∀ c ∈ a, isSpace c = true) → (∀ c ∈ b, isSpace c = true) →
      TypeText parts t → TypeText (part :: parts) (s ++ (a ++ '.' :: (b ++ t)))

/-- The part that is taken for the last: the first with generic arguments if there is one. The text
is cut off where these begin. -/
def takenPart? (parts : List TypePart) : Option TypePart :=
  (parts.find? (·.isGeneric)).or parts.getLast?

/-! ## What is taken for the simple name -/

lemma isIdentifierPart_of_isIdentifierStart {c : Char} (h : isIdentifierStart c = true) :
    isIdentifierPart c = true := by
  rw [isIdentifierStart] at h
  rw [isIdentifierPart]
  split
  case isTrue hsmall => exact Grammar.isNameChar_of_isNameStart (by rwa [if_pos hsmall] at h)
  case isFalse hlarge =>
    rw [if_neg hlarge] at h
    rw [h, Bool.or_true, Bool.true_or]

lemma inRanges_eq_any (ranges : Array (Nat × Nat)) (n : Nat) :
    Text.inRanges ranges n = ranges.toList.any fun r => r.1 ≤ n && n ≤ r.2 := by
  rw [Text.inRanges, ← Array.any_toList]

/-- No character of a name is white space. There are few kinds of white space, so they are gone
through. -/
lemma isSpace_of_isIdentifierPart {c : Char} (h : isIdentifierPart c = true) :
    isSpace c = false := by
  have hnone : ∀ d ∈ Grammar.blanks ++ separators, isIdentifierPart d = false := by
    simp only [isIdentifierPart, inRanges_eq_any]
    decide +kernel
  exact Bool.eq_false_iff.2 fun hspace => ne_of_class h (hnone c (mem_spaces hspace)) rfl

/-- A name has nothing in it that the text of a type is cut at. -/
lemma IsIdentifier.unbroken {w : List Char} (h : IsIdentifier w) : Unbroken w := by
  obtain ⟨c, cs, rfl, hc, hcs⟩ := h
  have hall : ∀ d ∈ c :: cs, isIdentifierPart d = true :=
    List.forall_mem_cons.2 ⟨isIdentifierPart_of_isIdentifierStart hc, hcs⟩
  have hnone : ∀ d ∈ ['.', '<', '('], isIdentifierPart d = false := by decide
  exact ⟨List.cons_ne_nil c cs, fun d hd => ⟨isSpace_of_isIdentifierPart (hall d hd),
    fun hmem => ne_of_class (hall d hd) (hnone d hmem) rfl⟩⟩

lemma PartText.unbroken {part : TypePart} {s : List Char} (h : PartText part s) :
    Unbroken part.name := by
  cases h with
  | plain hname => exact hname.unbroken
  | generic hname _ _ => exact hname.unbroken

/-- Without generic arguments a part is its name. -/
lemma PartText.eq_name {part : TypePart} {s : List Char} (h : PartText part s)
    (hplain : part.isGeneric = false) :
    s = part.name := by
  cases h with
  | plain => rfl
  | generic => cases hplain

/-- Behind any qualifier, a part with generic arguments is all that counts of a text, whatever
stands behind it. -/
lemma PartText.simpleTypeName_eq {part : TypePart} {s : List Char} (h : PartText part s)
    (hgeneric : part.isGeneric = true) {qualifier before : List Char} (hq : IsQualifier qualifier)
    (hbefore : ∀ c ∈ before, isSpace c = true) (rest : List Char) :
    Literal.simpleTypeName (qualifier ++ (before ++ (s ++ rest))) = part.name := by
  cases h with
  | plain => cases hgeneric
  | @generic name gap arguments hname hgap _ =>
    have hread := simpleTypeName_of_unbroken hname.unbroken hq hbefore hgap
      (.inr ⟨arguments ++ ('>' :: rest), rfl⟩)
    simpa only [List.append_assoc, List.cons_append, List.nil_append] using hread

lemma TypeText.ne_nil {parts : List TypePart} {s : List Char} (h : TypeText parts s) :
    parts ≠ [] := by
  cases h <;> exact List.cons_ne_nil _ _

lemma takenPart?_generic {part : TypePart} (hpart : part.isGeneric = true) (parts : List TypePart) :
    takenPart? (part :: parts) = some part := by
  rw [takenPart?, List.find?_cons_of_pos hpart, Option.some_or]

lemma takenPart?_plain {part : TypePart} (hpart : part.isGeneric = false) {parts : List TypePart}
    (hne : parts ≠ []) :
    takenPart? (part :: parts) = takenPart? parts := by
  obtain ⟨next, others, rfl⟩ := List.exists_cons_of_ne_nil hne
  rw [takenPart?, takenPart?, List.find?_cons_of_neg (by simp [hpart]), List.getLast?_cons_cons]

lemma takenPart?_single (part : TypePart) : takenPart? [part] = some part := by
  cases hpart : part.isGeneric <;> simp [takenPart?, hpart]

/-- Behind any qualifier, what is taken for the simple name is the name of the part that is taken
for the last. The induction is on the parts, and each part without arguments becomes part of the
qualifier of those behind it. -/
lemma TypeText.simpleTypeName_eq {parts : List TypePart} {s : List Char} (h : TypeText parts s)
    {qualifier before after : List Char} (hq : IsQualifier qualifier)
    (hbefore : ∀ c ∈ before, isSpace c = true) (hafter : ∀ c ∈ after, isSpace c = true) :
    some (Literal.simpleTypeName (qualifier ++ (before ++ (s ++ after)))) =
      (takenPart? parts).map (·.name) := by
  induction h generalizing qualifier before with
  | @single part s hpart =>
    rw [takenPart?_single, Option.map_some]
    cases hgeneric : part.isGeneric with
    | true => rw [hpart.simpleTypeName_eq hgeneric hq hbefore]
    | false =>
      have hread := simpleTypeName_of_unbroken hpart.unbroken hq hbefore hafter (.inl rfl)
      rw [List.append_nil] at hread
      rw [hpart.eq_name hgeneric, hread]
  | @dotted part parts s a b t hpart ha hb hparts ih =>
    cases hgeneric : part.isGeneric with
    | true =>
      rw [List.append_assoc, hpart.simpleTypeName_eq hgeneric hq hbefore,
        takenPart?_generic hgeneric, Option.map_some]
    | false =>
      obtain rfl := hpart.eq_name hgeneric
      -- The part and the dot behind it belong to the qualifier of the parts behind.
      have hlonger : IsQualifier (qualifier ++ (before ++ (part.name ++ a)) ++ ['.']) :=
        .inr ⟨_, rfl, unopened_of_unbroken hpart.unbroken hq hbefore ha⟩
      have hread := ih hlonger hb
      simp only [List.append_assoc, List.cons_append, List.nil_append] at hread ⊢
      rw [hread, takenPart?_plain hgeneric hparts.ne_nil]

/-- The part that is taken has the last name if no part has generic arguments, or the first that has
some is of that name. -/
lemma takenPart?_eq_some_iff {parts : List TypePart} {last : TypePart}
    (hlast : parts.getLast? = some last) :
    (takenPart? parts).map (·.name) = some last.name ↔
      ∀ part ∈ parts.find? (·.isGeneric), part.name = last.name := by
  rw [takenPart?, hlast]
  cases parts.find? (·.isGeneric) with
  | none => simp
  | some part => simp

/-! ## Types that are created or tested -/

/-- What can stand behind a type: nothing, or what is taken apart where the type is tested, in
parentheses. -/
def IsComponents (s : List Char) : Prop :=
  s = [] ∨ ∃ gap components, s = gap ++ '(' :: components ∧ ∀ c ∈ gap, isSpace c = true

/-- What stands in parentheses, and behind them, does not count. -/
lemma simpleTypeName_parenthesis (s rest : List Char) :
    Literal.simpleTypeName (s ++ '(' :: rest) = Literal.simpleTypeName s := by
  rw [Literal.simpleTypeName, Literal.simpleTypeName, List.takeWhile_takeWhile,
    List.takeWhile_takeWhile, List.takeWhile_append]
  split
  case isTrue hall =>
    rw [List.takeWhile_cons_of_neg (by decide), List.append_nil,
      (List.takeWhile_sublist _).eq_of_length hall]
  case isFalse => rfl

/-- The components of a record behind a type do not matter. -/
lemma TypeText.simpleTypeName_components {parts : List TypePart} {s components : List Char}
    (h : TypeText parts s) (hcomponents : IsComponents components) :
    some (Literal.simpleTypeName (s ++ components)) = (takenPart? parts).map (·.name) := by
  obtain rfl | ⟨gap, rest, rfl, hgap⟩ := hcomponents
  · exact h.simpleTypeName_eq (.inl rfl) (List.forall_mem_nil _) (List.forall_mem_nil _)
  · rw [← List.append_assoc, simpleTypeName_parenthesis]
    exact h.simpleTypeName_eq (.inl rfl) (List.forall_mem_nil _) hgap

/-- The child is where the node has the type that it creates or tests. -/
def NamesType (t child : Tree) : Prop :=
  t.type = "object_creation_expression" ∧ t.child? "type" = some child ∨
    t.type = "instanceof_expression" ∧ (t.child? "right").or (t.child? "pattern") = some child

/-- A node that creates or tests has what is taken for the simple name as its value. -/
lemma NamesType.value_eq {source : Source} {t child : Tree} (h : NamesType t child)
    (ns : List Node) :
    ∃ n, normalNode source t ns = .ok (some n) ∧
      n.value = .text (codePoints (Literal.simpleTypeName (textOf source child))) := by
  obtain ⟨htype, hchild⟩ | ⟨htype, hchild⟩ := h
  · refine ⟨creation source t ns, by simp only [normalNode, htype], ?_⟩
    rw [creation, hchild]
    rfl
  · refine ⟨typeTest source t ns, by simp only [normalNode, htype], ?_⟩
    rw [typeTest, hchild]
    rfl

/-- What is taken for the simple name of a type is the name of its first part with generic
arguments, or of its last part if there is none. So it is the simple name exactly if no part but the
last has generic arguments, or if the first that has some is of the same name. A node that creates
an instance of the type, or tests for it, has what is taken as its value. -/
theorem simpleTypeName_eq_last_iff {parts : List TypePart} {s : List Char} {last : TypePart}
    (h : TypeText parts s) (hlast : parts.getLast? = some last) :
    some (Literal.simpleTypeName s) = (takenPart? parts).map (·.name) ∧
      (Literal.simpleTypeName s = last.name ↔
        ∀ part ∈ parts.find? (·.isGeneric), part.name = last.name) ∧
      ∀ (source : Source) (t child : Tree) (ns : List Node) (components : List Char),
        NamesType t child → textOf source child = s ++ components → IsComponents components →
        ∃ n, normalNode source t ns = .ok (some n) ∧ (n.value = .text (codePoints last.name) ↔
          ∀ part ∈ parts.find? (·.isGeneric), part.name = last.name) := by
  -- Whichever way a name was read off the text, it is that of the taken part.
  have hiff {name : List Char} (hname : some name = (takenPart? parts).map (·.name)) :
      name = last.name ↔ ∀ part ∈ parts.find? (·.isGeneric), part.name = last.name := by
    rw [← takenPart?_eq_some_iff hlast, ← hname, Option.some.injEq]
  have htaken := h.simpleTypeName_components (.inl rfl)
  rw [List.append_nil] at htaken
  refine ⟨htaken, hiff htaken, fun source t child ns components hchild htext hcomponents => ?_⟩
  obtain ⟨n, hn, hvalue⟩ : ∃ n, normalNode source t ns = .ok (some n) ∧ _ := hchild.value_eq ns
  refine ⟨n, hn, ?_⟩
  rw [hvalue, htext, ← hiff (h.simpleTypeName_components hcomponents), Value.text.injEq]
  exact ⟨Value.codePoints_injective, congrArg codePoints⟩

lemma isIdentifier_of_all {c : Char} {cs : List Char}
    (h : (isIdentifierStart c && cs.all isIdentifierPart) = true) :
    IsIdentifier (c :: cs) := by
  rw [Bool.and_eq_true, List.all_eq_true] at h
  exact ⟨c, cs, rfl, h.1, h.2⟩

lemma Balanced.append {s t : List Char} (hs : Balanced s) (ht : Balanced t) :
    Balanced (s ++ t) := by
  induction hs with
  | nil => exact ht
  | char hopen hclose _ ih => exact .char hopen hclose ih
  | @nested s u hs _ _ ih =>
    rw [List.cons_append, List.append_assoc, List.cons_append]
    exact .nested hs ih

lemma balanced_of_all {s : List Char} (h : (s.all fun c => c != '<' && c != '>') = true) :
    Balanced s := by
  induction s with
  | nil => exact .nil
  | cons c s ih =>
    rw [List.all_cons, Bool.and_eq_true, Bool.and_eq_true, bne_iff_ne, bne_iff_ne] at h
    exact .char h.1.1 h.1.2 (ih h.2)

/-- The parts of `m .Entry <A, ? extends B.C<D>>`. -/
def entryParts : List TypePart :=
  [⟨"m".toList, false⟩, ⟨"Entry".toList, true⟩]

lemma typeText_entry : TypeText entryParts "m .Entry <A, ? extends B.C<D>>".toList := by
  have harguments : Balanced "A, ? extends B.C<D>".toList :=
    (balanced_of_all (s := "A, ? extends B.C".toList) rfl).append
      (.nested (s := ['D']) (balanced_of_all rfl) .nil)
  have hentry : PartText ⟨"Entry".toList, true⟩ "Entry <A, ? extends B.C<D>>".toList :=
    .generic (isIdentifier_of_all rfl)
      (List.forall_mem_singleton.2 (by decide : isSpace ' ' = true)) harguments
  exact .dotted (a := [' ']) (b := []) (.plain (isIdentifier_of_all rfl)) (by decide) (by decide)
    (.single hentry)

/-- The source of a test for the type that also takes an instance apart. -/
def entrySource : Source :=
  .ofString "x instanceof m .Entry <A, ? extends B.C<D>> (E<F> e)"

/-- What is tested for. -/
def entryPattern : Tree :=
  nodeAt "record_pattern" (some "pattern") 13 52 []

/-- The test. -/
def entryTest : Tree :=
  nodeAt "instanceof_expression" none 0 52
    [nodeAt "identifier" (some "left") 0 1 [], tokenAt "instanceof" 2, entryPattern]

/-- Generic arguments on the last part, with a dot and a bracket in them, and components behind the
type. -/
theorem simpleTypeName_eq_last_iff_entry :
    TypeText entryParts "m .Entry <A, ? extends B.C<D>>".toList ∧
      Literal.simpleTypeName "m .Entry <A, ? extends B.C<D>>".toList = "Entry".toList ∧
      ∃ n, normalNode entrySource entryTest [] = .ok (some n) ∧ n.value = .ofString "Entry" := by
  have hfirst : ∀ part ∈ entryParts.find? (·.isGeneric), part.name = "Entry".toList := by
    rintro part ⟨⟩
    rfl
  have htext : textOf entrySource entryPattern =
      "m .Entry <A, ? extends B.C<D>>".toList ++ " (E<F> e)".toList := by
    decide +kernel
  have hcomponents : IsComponents " (E<F> e)".toList := .inr ⟨[' '], _, rfl, by decide⟩
  obtain ⟨-, hname, hnode⟩ := simpleTypeName_eq_last_iff typeText_entry rfl
  obtain ⟨n, hn, hvalue⟩ :=
    hnode entrySource entryTest entryPattern [] _ (.inr ⟨rfl, rfl⟩) htext hcomponents
  exact ⟨typeText_entry, hname.2 hfirst, n, hn, hvalue.2 hfirst⟩

/-- A type inside of one with generic arguments is taken for the one around it. So the last name is
not what is taken for every type that can be written. -/
theorem not_simpleTypeName_eq_last :
    ¬ ∀ (parts : List TypePart) (s : List Char) (last : TypePart), TypeText parts s →
      parts.getLast? = some last → Literal.simpleTypeName s = last.name := by
  intro hall
  have houter : PartText ⟨"Outer".toList, true⟩ "Outer<String>".toList :=
    .generic (isIdentifier_of_all rfl) (List.forall_mem_nil _)
      (balanced_of_all (s := "String".toList) rfl)
  have hinner : PartText ⟨"Inner".toList, false⟩ "Inner".toList :=
    .plain (isIdentifier_of_all rfl)
  have htype :
      TypeText [⟨"Outer".toList, true⟩, ⟨"Inner".toList, false⟩] "Outer<String>.Inner".toList :=
    .dotted (a := []) (b := []) houter (by decide) (by decide) (.single hinner)
  have hname : Literal.simpleTypeName "Outer<String>.Inner".toList = "Outer".toList := by decide
  rw [hall _ _ _ htype rfl] at hname
  exact absurd hname (by decide)

end ShapeLint.Java
