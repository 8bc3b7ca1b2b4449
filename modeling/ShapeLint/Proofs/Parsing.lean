import ShapeLint.Proofs.Leaves
import ShapeLint.Proofs.Numerals

/-!
# What becomes of a source

A source that the grammar accepts becomes a tree, unless one of its literals has no value. The first
such literal decides: with a bad escape in quotes the source is rejected, as one that the grammar
does not accept is; a numeral without a value is not reported as a fault of the source, and breaks
off whatever asked for its tree.

`Token.Lacks` says of a token, by its text, that it is a literal without a value, and
`Source.Breaks` of a source that the first of them is a numeral.
-/

namespace ShapeLint.Java

/-! ## Literals without a value -/

/-- The types of quoted literals. -/
def quotedTypes : List String :=
  ["string_literal", "character_literal"]

/-- A token is a literal without a value, and why: a numeral that lacks one, by its text alone, or a
quoted literal with an escape that means nothing. The span of the latter is that of the whole
literal. -/
def Token.Lacks (s : Source) (t : Token) (e : NormalFailure) : Prop :=
  ∃ type, t.kind = .literal type ∧
    ((∃ reason, Numeral.Lacks type t.text.toList reason ∧ e = .badNumeral reason) ∨
      type ∈ quotedTypes ∧ ∃ escape, Literal.string (s.textBetween t.start t.stop) = .error escape ∧
        e = .badEscape escape (s.span t.start t.stop))

/-- The first literal without a value has none for this reason. The tokens in front of it all have
one, whatever comes behind. -/
def Source.FirstLacks (s : Source) (e : NormalFailure) : Prop :=
  ∃ before t after, s.tokens.tokens = before ++ t :: after ∧
    (∀ u ∈ before, ∀ e, ¬u.Lacks s e) ∧ t.Lacks s e

/-- A source is accepted, but its first literal without a value is a numeral. Asking for its tree
then fails with something that is no fault of the source. -/
def Source.Breaks (s : Source) (reason : Literal.NumeralError) : Prop :=
  s.tree.hasError = false ∧ s.FirstLacks (.badNumeral reason)

/-- What starts with a quote is a string or a character, a text block included. -/
lemma quotedLength_type {cs : List Char} {type : String} {n : Nat}
    (h : quotedLength cs = some (type, n)) :
    type ∈ quotedTypes := by
  unfold quotedLength at h
  split at h
  case h_4 => cases h
  all_goals
    obtain ⟨k, -, heq⟩ := Option.map_eq_some_iff.1 h
    cases heq
    decide

/-- A literal among the tokens of a source is quoted, or a numeral with the text of its token. This
is read off the way the token was found, since a token does not say how its type came about. -/
lemma Source.literal_cases {s : Source} {t : Token} (ht : t ∈ s.tokens.tokens) {type : String}
    (hkind : t.kind = .literal type) :
    type ∈ quotedTypes ∨ Numeral.NumeralText type t.text.toList := by
  obtain ⟨before, first, rest, n, hfound⟩ := Source.exists_found ht
  have hlength := hfound.length
  rw [hkind] at hlength
  unfold tokenLength at hlength
  dsimp only at hlength
  -- A word, joined to what stands before it or not, is no literal, and neither is a symbol.
  split at hlength
  · cases hlength
  split at hlength
  · cases hlength
  split at hlength
  case h_1 hread =>
    cases hlength
    -- Numerals are tried before quoted literals, so what is no numeral is quoted.
    obtain hnumeral | ⟨-, hquoted⟩ := Option.or_eq_some_iff.1 hread
    · obtain ⟨w, others, hsplit, rfl, htext⟩ := Numeral.numeralText_of_read? hnumeral
      obtain ⟨c, w', rfl⟩ := List.exists_cons_of_ne_nil htext.ne_nil
      obtain ⟨rfl, rfl⟩ := List.cons.inj hsplit
      refine .inr ?_
      simpa [hfound.text] using htext
    · exact .inl (quotedLength_type hquoted)
  case h_2 =>
    obtain ⟨_, -, heq⟩ := Option.map_eq_some_iff.1 hlength
    cases heq

/-- All literals of a source have types that are turned into leaves. -/
lemma Source.typed_tokens (s : Source) : Typed s.tokens.tokens := by
  have hquoted : quotedTypes ⊆ opaqueTypes := by decide
  have hinteger : Numeral.integerTypes ⊆ opaqueTypes := by decide
  have hfloat : Numeral.floatTypes ⊆ opaqueTypes := by decide
  intro t ht m hm
  unfold Token.mark? at hm
  split at hm
  case h_1 type hkind =>
    cases hm
    obtain htype | htext := Source.literal_cases ht hkind
    · exact hquoted htype
    · exact htext.type_mem.elim (fun htype => hinteger htype) fun htype => hfloat htype
  case h_2 => cases hm

/-! ## The first literal without a value -/

section

variable {s : Source} {type : String} (start stop : Nat)

lemma normalNode_integer (h : type ∈ Numeral.integerTypes) :
    normalNode s { type, start, stop } [] = (integer s { type, start, stop }).map some := by
  simp only [Numeral.integerTypes, List.mem_cons, List.not_mem_nil, or_false] at h
  rcases h with rfl | rfl | rfl | rfl <;> rfl

lemma normalNode_floating (h : type ∈ Numeral.floatTypes) :
    normalNode s { type, start, stop } [] = (floating s { type, start, stop }).map some := by
  simp only [Numeral.floatTypes, List.mem_cons, List.not_mem_nil, or_false] at h
  rcases h with rfl | rfl <;> rfl

lemma normalNode_quoted (h : type ∈ quotedTypes) :
    normalNode s { type, start, stop } [] = (quoted s { type, start, stop }).map some := by
  simp only [quotedTypes, List.mem_cons, List.not_mem_nil, or_false] at h
  rcases h with rfl | rfl <;> rfl

end

/-- A failure of a literal is what its normal form fails with, where that form is a node without
children. -/
lemma Mark.failure?_eq_some_iff {s : Source} {m : Mark} {e : NormalFailure}
    {r : Except NormalFailure Node}
    (h : normalNode s { type := m.type, start := m.start, stop := m.stop } [] = r.map some) :
    m.failure? s = some e ↔ r = .error e := by
  rw [Mark.failure?, h]
  cases r <;> simp [Except.map]

section

variable {s : Source} {t : Token} {type : String} {e : NormalFailure}

lemma Token.lacks_numeral_iff (hkind : t.kind = .literal type) (htype : type ∉ quotedTypes) :
    t.Lacks s e ↔ ∃ reason, Numeral.Lacks type t.text.toList reason ∧ e = .badNumeral reason := by
  simp only [Token.Lacks, hkind, TokenKind.literal.injEq, exists_eq_left', htype, false_and,
    or_false]

/-- The types of numerals are not those of quoted literals, so only one half of the definition is
left. -/
lemma Token.lacks_quoted_iff (hkind : t.kind = .literal type) (htype : type ∈ quotedTypes) :
    t.Lacks s e ↔ ∃ escape, Literal.string (s.textBetween t.start t.stop) = .error escape ∧
      e = .badEscape escape (s.span t.start t.stop) := by
  have hnumeral : ∀ reason, ¬Numeral.Lacks type t.text.toList reason := by
    rintro reason (⟨rfl, -⟩ | ⟨rfl, -⟩ | ⟨rfl, -⟩) <;> revert htype <;> decide
  simp only [Token.Lacks, hkind, TokenKind.literal.injEq, exists_eq_left', hnumeral, htype,
    false_and, exists_false, false_or, true_and]

lemma integer_eq_error_iff {u : Tree} :
    integer s u = .error e ↔ Literal.integer? (textOf s u) = none ∧ e = .badNumeral .malformed := by
  unfold integer
  dsimp only
  cases Literal.integer? (textOf s u) <;> simp [@eq_comm _ e]

lemma floating_eq_badNumeral_iff {u : Tree} :
    floating s u = .error e ↔
      ∃ reason, Literal.floating (textOf s u) = .error reason ∧ e = .badNumeral reason := by
  unfold floating
  cases Literal.floating (textOf s u) <;> simp [@eq_comm _ e]

lemma quoted_eq_error_iff {u : Tree} :
    quoted s u = .error e ↔ ∃ escape, Literal.string (textOf s u) = .error escape ∧
      e = .badEscape escape (spanOf s u) := by
  unfold quoted
  cases Literal.string (textOf s u) <;> simp [@eq_comm _ e]

/-- An integer without a value is malformed. -/
lemma eq_malformed_of_lacks (htype : type ∈ Numeral.integerTypes) {w : List Char}
    {reason : Literal.NumeralError} (h : Numeral.Lacks type w reason) : reason = .malformed := by
  obtain ⟨-, -, hreason⟩ | ⟨-, -, hreason⟩ | ⟨rfl, -⟩ := h
  · exact hreason
  · exact hreason
  · exact absurd htype (by decide)

/-- A literal of a source has no value exactly if its token lacks one. On one side stands what
turning the literal into a node does, on the other what is said of its text. -/
lemma Source.failure?_iff_lacks (ht : t ∈ s.tokens.tokens) (hkind : t.kind = .literal type) :
    (Mark.mk type t.start t.stop).failure? s = some e ↔ t.Lacks s e := by
  have hinteger : ∀ type ∈ Numeral.integerTypes, type ∉ quotedTypes := by decide
  have hfloat : ∀ type ∈ Numeral.floatTypes, type ∉ quotedTypes := by decide
  obtain htype | htext := Source.literal_cases ht hkind
  · rw [Mark.failure?_eq_some_iff (normalNode_quoted t.start t.stop htype), quoted_eq_error_iff,
      Token.lacks_quoted_iff hkind htype]
    rfl
  -- A numeral is written in characters of one byte, so the text between its offsets is that of the
  -- token.
  have hread : s.textBetween t.start t.stop = t.text.toList :=
    Source.textBetween_token ht htext.simple
  have hquoted : type ∉ quotedTypes := htext.type_mem.elim (hinteger type) (hfloat type)
  rw [Token.lacks_numeral_iff hkind hquoted]
  obtain htype | htype := htext.type_mem
  · rw [Mark.failure?_eq_some_iff (normalNode_integer t.start t.stop htype), integer_eq_error_iff,
      textOf, hread, Numeral.integer?_eq_none_iff htext htype]
    constructor
    · rintro ⟨hlacks, rfl⟩
      exact ⟨_, hlacks, rfl⟩
    · rintro ⟨reason, hlacks, rfl⟩
      cases eq_malformed_of_lacks htype hlacks
      exact ⟨hlacks, rfl⟩
  · rw [Mark.failure?_eq_some_iff (normalNode_floating t.start t.stop htype),
      floating_eq_badNumeral_iff, textOf, hread]
    simp only [Numeral.floating_eq_error_iff htext htype]

end

/-- Why the literal that a token is has no value, if it is one and has none. -/
def Token.failure? (s : Source) (t : Token) : Option NormalFailure :=
  t.mark?.bind (·.failure? s)

lemma Token.failure?_eq_some_iff {s : Source} {t : Token} (ht : t ∈ s.tokens.tokens)
    {e : NormalFailure} :
    t.failure? s = some e ↔ t.Lacks s e := by
  cases hkind : t.kind with
  | literal type =>
    rw [← Source.failure?_iff_lacks ht hkind]
    simp [Token.failure?, Token.mark?, hkind]
  | word | symbol => simp [Token.failure?, Token.mark?, Token.Lacks, hkind]

/-- A token lacks no value exactly if it has no failure. -/
lemma Token.failure?_eq_none_iff {s : Source} {t : Token} (ht : t ∈ s.tokens.tokens) :
    t.failure? s = none ↔ ∀ e, ¬t.Lacks s e := by
  rw [Option.eq_none_iff_forall_ne_some]
  exact forall_congr' fun e => not_congr (Token.failure?_eq_some_iff ht)

/-- Tokens that are no literals do not fail, so leaving them out changes nothing. -/
lemma findSome?_marks (s : Source) (ts : List Token) :
    (marks ts).findSome? (·.failure? s) = ts.findSome? (·.failure? s) := by
  induction ts with
  | nil => rfl
  | cons t ts ih =>
    rw [List.findSome?_cons, Token.failure?, marks, List.filterMap_cons]
    cases t.mark? with
    | none => exact ih
    | some m =>
      rw [List.findSome?_cons]
      exact congrArg _ (funext fun _ => ih)

/-- The first failure among the tokens of a source is that of the first token that lacks a value. -/
lemma Source.firstLacks_iff {s : Source} {e : NormalFailure} :
    s.tokens.tokens.findSome? (·.failure? s) = some e ↔ s.FirstLacks e := by
  rw [List.findSome?_eq_some_iff]
  constructor
  · rintro ⟨before, t, after, hsplit, ht, hbefore⟩
    have hmem : ∀ u ∈ before ++ t :: after, u ∈ s.tokens.tokens := fun u hu => hsplit ▸ hu
    refine ⟨before, t, after, hsplit, fun u hu => ?_,
      (Token.failure?_eq_some_iff (hmem t (by simp))).1 ht⟩
    exact (Token.failure?_eq_none_iff (hmem u (by simp [hu]))).1 (hbefore u hu)
  · rintro ⟨before, t, after, hsplit, hbefore, ht⟩
    have hmem : ∀ u ∈ before ++ t :: after, u ∈ s.tokens.tokens := fun u hu => hsplit ▸ hu
    refine ⟨before, t, after, hsplit, (Token.failure?_eq_some_iff (hmem t (by simp))).2 ht,
      fun u hu => ?_⟩
    exact (Token.failure?_eq_none_iff (hmem u (by simp [hu]))).2 (hbefore u hu)

/-- What becomes of an accepted source: the first of its tokens that lacks a value decides. The tree
holds its literals in the order of the tokens, which is why the first failure in the tree is the
first one in the source. -/
lemma Source.convert_tree {s : Source} (h : s.tree.hasError = false) :
    (∃ root, convert s s.tree = .ok root ∧ ∀ t ∈ s.tokens.tokens, ∀ e, ¬t.Lacks s e) ∨
      ∃ e, convert s s.tree = .error e ∧ s.FirstLacks e := by
  have hconvert := @Bears.convert s _ _ (Source.bears_tree s.typed_tokens h) rfl
  rw [findSome?_marks] at hconvert
  cases hfirst : s.tokens.tokens.findSome? (·.failure? s) with
  | none =>
    rw [hfirst] at hconvert
    obtain ⟨root, hroot⟩ := hconvert
    refine .inl ⟨root, hroot, fun t ht => (Token.failure?_eq_none_iff ht).1 ?_⟩
    exact List.findSome?_eq_none_iff.1 hfirst t ht
  | some e =>
    rw [hfirst] at hconvert
    exact .inr ⟨e, hconvert, Source.firstLacks_iff.1 hfirst⟩

/-- A literal without a value is a numeral, or has a bad escape. -/
lemma Source.FirstLacks.cases {s : Source} {e : NormalFailure} (h : s.FirstLacks e) :
    (∃ reason, e = .badNumeral reason) ∨ ∃ escape span, e = .badEscape escape span := by
  obtain ⟨_, t, _, -, -, type, -, ⟨reason, -, he⟩ | ⟨-, escape, -, he⟩⟩ := h
  · exact .inl ⟨reason, he⟩
  · exact .inr ⟨escape, _, he⟩

/-- There is one first literal without a value, and one reason for it. -/
lemma Source.FirstLacks.unique {s : Source} {e e' : NormalFailure} (h : s.FirstLacks e)
    (h' : s.FirstLacks e') :
    e = e' :=
  Option.some.inj ((Source.firstLacks_iff.2 h).symm.trans (Source.firstLacks_iff.2 h'))

/-! ## Parsing -/

/-- Why a source is rejected: it holds an error, and the first one in its tree is reported; or it
holds none, and its first literal without a value has a bad escape, which is reported where the
literal stands. -/
inductive Source.Rejected (s : Source) (path : String) : Fault → Prop where
  | error : s.tree.hasError = true → Rejected s path (errorFault s path s.tree.firstError)
  | escape {e : Literal.BadEscape} {span : Span} :
      s.tree.hasError = false → s.FirstLacks (.badEscape e span) →
      Rejected s path (Fault.of (.script path) e.message span)

/-- A source is accepted, and all its literals have a value. -/
def Source.Valued (s : Source) : Prop :=
  s.tree.hasError = false ∧ ∀ t ∈ s.tokens.tokens, ∀ e, ¬t.Lacks s e

/-- A source is turned into a tree, is rejected, or has a numeral without a value before any bad
escape. The three cases exclude each other, by the lemmas below. -/
lemma parse_cases (path : String) (s : Source) :
    (∃ root, parse path s = .ok root ∧ s.Valued) ∨
      (∃ fault, parse path s = .error (.rejected fault) ∧ s.Rejected path fault) ∨
        ∃ reason, parse path s = .error (.badNumeral reason) ∧ s.Breaks reason := by
  unfold parse ofTree
  cases herror : s.tree.hasError with
  | true => exact .inr (.inl ⟨_, rfl, .error herror⟩)
  | false =>
    rw [if_neg Bool.false_ne_true]
    obtain ⟨root, hroot, hvalued⟩ | ⟨e, he, hlacks⟩ := Source.convert_tree herror
    · rw [hroot]
      exact .inl ⟨root, rfl, herror, hvalued⟩
    · rw [he]
      obtain ⟨reason, rfl⟩ | ⟨escape, span, rfl⟩ := hlacks.cases
      · exact .inr (.inr ⟨reason, rfl, herror, hlacks⟩)
      · exact .inr (.inl ⟨_, rfl, .escape herror hlacks⟩)

lemma Source.Breaks.not_valued {s : Source} {reason : Literal.NumeralError} (h : s.Breaks reason) :
    ¬s.Valued := by
  rintro ⟨-, hvalued⟩
  obtain ⟨-, before, t, after, hsplit, -, ht⟩ := h
  exact hvalued t (hsplit ▸ by simp) _ ht

lemma Source.Breaks.not_rejected {s : Source} {reason : Literal.NumeralError} (h : s.Breaks reason)
    {path : String} {fault : Fault} : ¬s.Rejected path fault := by
  obtain ⟨haccepted, hlacks⟩ := h
  intro hrejected
  cases hrejected with
  | error herror => simp [haccepted] at herror
  | escape _ hescape => cases hlacks.unique hescape

/-- Where the first literal without a value is a numeral, that is what asking for the tree ends
with, wherever the source lies. -/
lemma Source.Breaks.parse {s : Source} {reason : Literal.NumeralError} (h : s.Breaks reason)
    (path : String) :
    parse path s = .error (.badNumeral reason) := by
  obtain ⟨_, -, hvalued⟩ | ⟨_, -, hrejected⟩ | ⟨other, hparse, hother⟩ := parse_cases path s
  · exact absurd hvalued h.not_valued
  · exact absurd hrejected h.not_rejected
  · cases h.2.unique hother.2
    exact hparse

/-- A source is turned into a tree or rejected exactly if it does not break off loading. -/
theorem parse_settled_iff (path : String) (s : Source) :
    ((∃ root, parse path s = .ok root) ∨ ∃ fault, parse path s = .error (.rejected fault)) ↔
      ∀ reason, ¬s.Breaks reason := by
  constructor
  · rintro (⟨root, hroot⟩ | ⟨fault, hfault⟩) reason hbreaks
    · simp [hbreaks.parse path] at hroot
    · simp [hbreaks.parse path] at hfault
  · intro hunbroken
    obtain ⟨root, hroot, -⟩ | ⟨fault, hfault, -⟩ | ⟨reason, -, hbreaks⟩ := parse_cases path s
    · exact .inl ⟨root, hroot⟩
    · exact .inr ⟨fault, hfault⟩
    · exact absurd hbreaks (hunbroken reason)

end ShapeLint.Java
