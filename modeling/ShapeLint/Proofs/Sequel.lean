import ShapeLint.Proofs.Locality
import ShapeLint.Proofs.Relocation

/-!
# Reading a text and reading it with a sequel

A text and the same text with a sequel behind it are read alike, up to the place where the shorter
one runs out. Here both readings run side by side. They agree (`Agree`) as long as both read the
same, up to where the extents lie, or both fail. Two things alone can part them. The shorter reading
is lost: it is lost where it finds the text nested too deeply; and if the sequel closes brackets, it
is also lost where a rule has failed at the very end of the text, for whatever else is read, the end
is then where an error is reported. Or the longer reading finds the text nested too deeply.

White space makes a difficulty. Where the shorter text ends in blanks and the sequel starts with
some, skipping them leads the longer reading into the sequel, and the two no longer stand at the
same place (`Past`). Nothing can be read from there, so what follows fails on both sides. A reader
thus has two things to say for itself, one from the same place and one from beyond (`Follows`).

The pass over the grammar leaves one reader open. An index starts with the bracket that a context
suffix starts with, so what becomes of it depends on the sequel.
-/

namespace ShapeLint.Grammar

open Reader
open Text (isBlank isNameChar)

/-- What a text goes on with: a text that goes on with no token of the one in front of it, with or
without its leading blanks. Whether it closes brackets is given beside it. A sequel that closes none
has no closing bracket at its front, and there the shorter reading is never lost by what it fails to
find at its end. -/
structure Sequel where
  text : List Char
  closing : Prop
  isBreak : Break text
  isBreak_inner : Break (text.dropWhile isBlank)
  closes : ¬ closing → ∀ c ∈ (text.dropWhile isBlank).head?, c ≠ ')' ∧ c ≠ ']'

namespace Sequel

variable (σ : Sequel)

/-- The sequel without its leading blanks. -/
def inner : List Char :=
  σ.text.dropWhile isBlank

/-- The two readings stand at the same place: what is left to the longer one is what is left to the
shorter one with the sequel behind it. -/
def Here (s s' : List Char) : Prop :=
  s' = s ++ σ.text

/-- The two readings stand at the same place, which is a given one. It is used where the place is
known to be before the end of the shorter text. -/
def At (u s s' : List Char) : Prop :=
  s = u ∧ s' = u ++ σ.text

/-- The shorter text has ended, and the longer reading stands behind the leading blanks of the
sequel. It came there by skipping white space. -/
def Past (s s' : List Char) : Prop :=
  s = [] ∧ s' = σ.inner

/-- The two readings stand at the same place or beyond. -/
def Near (s s' : List Char) : Prop :=
  σ.Here s s' ∨ σ.Past s s'

section

variable {α β γ δ : Type}

/-- The shorter reading is lost: the text is nested too deeply, or the sequel closes brackets and a
rule has failed at the end of the text. In the second case the mark stands at the end and can go no
further. -/
def Lost (r : Reply α) : Prop :=
  r.Meets (fun _ _ mark => σ.closing ∧ mark = 0) (fun mark => σ.closing ∧ mark = 0) True

/-- A reading that is lost stays so, whatever is read after it. The mark at the end of the text is
the furthest there is, and no rule moves it back. -/
def Stays (p : Reader α) : Prop :=
  σ.closing → ∀ s, σ.Lost (p 0 s)

/-- The shorter reading is lost or the longer one sinks, or the two read the same and stand at
places of a kind, or both fail. What the longer reading reads is what the shorter one does with its
extents moved on, so the values are related by a function. -/
inductive Agree (Q : List Char → List Char → Prop) (φ : α → β) : Reply α → Reply β → Prop where
  | lost {r : Reply α} {r' : Reply β} : σ.Lost r → Agree Q φ r r'
  | sunk {r : Reply α} : Agree Q φ r .deep
  | ok {a : α} {rest rest' : List Char} {mark mark' : Nat} :
      Q rest rest' → Agree Q φ (.ok a rest mark) (.ok (φ a) rest' mark')
  | fail {mark mark' : Nat} : Agree Q φ (.fail mark) (.fail mark')

/-- From places of one kind two readers come to places of another, unless something parts them. That
lost readings stay lost is asked for here as well, since it is needed wherever readers are put
together. -/
structure Tracks (P Q : List Char → List Char → Prop) (φ : α → β) (p : Reader α) (q : Reader β) :
    Prop where
  agree : ∀ mark mark' s s', P s s' → σ.Agree Q φ (p mark s) (q mark' s')
  stays : σ.Stays p

/-- Two readers follow each other from the same place to the same place. -/
abbrev Walks (φ : α → β) (p : Reader α) (q : Reader β) : Prop :=
  σ.Tracks σ.Here σ.Here φ p q

/-- Two readers follow each other from the same place, and fail beyond. All tokens are of this kind,
as no sequel begins with a token that could go on with the text in front. -/
structure Follows (φ : α → β) (p : Reader α) (q : Reader β) : Prop where
  here : σ.Walks φ p q
  past : σ.Tracks σ.Past (fun _ _ => False) φ p q

/-- An expression of the shorter text, as it is read in the longer one. -/
abbrev onward : Surface → Surface :=
  moved σ.text.length

variable {σ}
variable {P Q T : List Char → List Char → Prop} {φ : α → β} {ψ : γ → δ} {p : Reader α}
  {q : Reader β} {mark : Nat} {s : List Char}

/-! ## Readings that are lost -/

lemma lost_bind {f : α → Reader γ} (h : σ.Lost (p mark s)) (hf : ∀ a, σ.Stays (f a)) :
    σ.Lost ((p >>= f) mark s) := by
  refine meets_bind.mpr (h.imp ?_ (fun _ hmark => hmark) fun _ => trivial)
  rintro a rest _ ⟨hclosing, rfl⟩
  exact hf a hclosing rest

lemma lost_orElse {p' : Reader α} (h : σ.Lost (p mark s)) (hp' : σ.Stays p') :
    σ.Lost (orElse p p' mark s) := by
  refine meets_orElse.mpr (h.imp (fun _ _ _ hmark => hmark) ?_ fun _ => trivial)
  rintro _ ⟨hclosing, rfl⟩
  exact hp' hclosing s

lemma lost_optional (h : σ.Lost (p mark s)) : σ.Lost (optional p mark s) :=
  meets_optional.mpr (h.imp (fun _ _ _ hmark => hmark) (fun _ hmark => hmark) fun _ => trivial)

lemma lost_butNot (h : σ.Lost (p mark s)) : σ.Lost (butNot p mark s) :=
  meets_butNot.mpr (h.imp (fun _ _ _ hmark => hmark) (fun _ hmark => hmark) fun _ => trivial)

lemma lost_rule (h : σ.Lost (p mark s)) : σ.Lost (rule p mark s) := by
  refine meets_rule.mpr (h.imp (fun _ _ _ hmark => hmark) ?_ fun _ => trivial)
  rintro _ ⟨hclosing, rfl⟩
  exact ⟨hclosing, Nat.zero_min _⟩

lemma stays_many (h : σ.Stays p) : σ.Stays (many p) := by
  intro hclosing s
  refine meets_many (fun mark _ => σ.closing ∧ mark = 0) ?_ ⟨hclosing, rfl⟩
  rintro _ t ⟨-, rfl⟩
  exact h hclosing t

/-- A repetition whose first item is lost is lost, whether it goes on behind the item or ends with
it. -/
lemma lost_many (h : σ.Lost (p mark s)) (hp : σ.Stays p) : σ.Lost (many p mark s) := by
  rw [Reader.many]
  cases hr : p mark s with
  | deep => trivial
  | fail mark' => rwa [hr] at h
  | ok a rest mark' =>
    rw [hr] at h
    obtain ⟨hclosing, rfl⟩ := h
    have hothers := stays_many hp hclosing rest
    dsimp only
    split
    · cases hmany : many p 0 rest with
      | ok as rest' mark'' => rwa [hmany] at hothers
      | fail mark'' => rwa [hmany] at hothers
      | deep => trivial
    · exact ⟨hclosing, rfl⟩

/-- A rule that fails at the end of the text is the last that can fail: no failure is further on, so
the error is reported there. -/
lemma lost_rule_nil (hclosing : σ.closing) (h : Fails p []) : σ.Lost (rule p mark []) := by
  rw [rule_nil_of_fails h]
  exact ⟨hclosing, rfl⟩

/-! ## Putting readers together -/

lemma Agree.mono {r : Reply α} {r' : Reply β} (h : σ.Agree Q φ r r')
    (hQ : ∀ s s', Q s s' → T s s') :
    σ.Agree T φ r r' := by
  cases h with
  | lost h => exact .lost h
  | sunk => exact .sunk
  | ok h => exact .ok (hQ _ _ h)
  | fail => exact .fail

lemma Tracks.mono_left (h : σ.Tracks P Q φ p q) (hT : ∀ s s', T s s' → P s s') :
    σ.Tracks T Q φ p q :=
  ⟨fun mark mark' s s' hs => h.agree mark mark' s s' (hT s s' hs), h.stays⟩

/-- If the sequel closes no brackets, what is read of the shorter text is read of the longer one,
unless that sinks. -/
theorem Agree.exists_of_ok {a : α} {rest : List Char} {r' : Reply β}
    (h : σ.Agree Q φ (.ok a rest mark) r') (hopen : ¬ σ.closing) :
    (∃ rest' mark', r' = .ok (φ a) rest' mark' ∧ Q rest rest') ∨ r' = .deep := by
  cases h with
  | lost h => exact absurd h.1 hopen
  | sunk => exact .inr rfl
  | ok hQ => exact .inl ⟨_, _, rfl, hQ⟩

lemma agree_of_fails {s' : List Char} (h : Fails p s) (h' : Fails q s' ∨ Sinks q s')
    (mark mark' : Nat) :
    σ.Agree Q φ (p mark s) (q mark' s') := by
  rcases h' with h' | h'
  · obtain ⟨m, hm⟩ := h mark
    obtain ⟨m', hm'⟩ := h' mark'
    rw [hm, hm']
    exact .fail
  · rw [h' mark']
    exact .sunk

/-- One reader after another follow each other if both do, and the place between them is of any kind
that suits. -/
lemma Tracks.bind {f : α → Reader γ} {g : β → Reader δ} (hp : σ.Tracks P Q φ p q)
    (hf : ∀ a, σ.Tracks Q T ψ (f a) (g (φ a))) : σ.Tracks P T ψ (p >>= f) (q >>= g) := by
  have hlost {mark s} (h : σ.Lost (p mark s)) : σ.Lost ((p >>= f) mark s) :=
    lost_bind h fun a => (hf a).stays
  refine ⟨fun mark mark' s s' hP => ?_, fun hclosing s => hlost (hp.stays hclosing s)⟩
  have h := hp.agree mark mark' s s' hP
  change σ.Agree T ψ (andThen p f mark s) (andThen q g mark' s')
  generalize hr : p mark s = r, hr' : q mark' s' = r' at h
  -- If both have read, the second readers go on side by side; otherwise the first ones have
  -- decided.
  cases h with
  | lost h => exact .lost (hlost (hr ▸ h))
  | sunk =>
    simp only [andThen, hr']
    exact .sunk
  | ok hQ =>
    simp only [andThen, hr, hr']
    exact (hf _).agree _ _ _ _ hQ
  | fail =>
    simp only [andThen, hr, hr']
    exact .fail

/-- Choices follow each other: the second alternatives are tried on both sides or on none. -/
lemma Tracks.orElse {p' : Reader α} {q' : Reader β} (hp : σ.Tracks P Q φ p q)
    (hp' : σ.Tracks P Q φ p' q') :
    σ.Tracks P Q φ (orElse p p') (orElse q q') := by
  refine ⟨fun mark mark' s s' hP => ?_,
    fun hclosing s => lost_orElse (hp.stays hclosing s) hp'.stays⟩
  have h := hp.agree mark mark' s s' hP
  generalize hr : p mark s = r, hr' : q mark' s' = r' at h
  cases h with
  | lost h => exact .lost (lost_orElse (hr ▸ h) hp'.stays)
  | sunk =>
    simp only [Reader.orElse, hr']
    exact .sunk
  | ok hQ =>
    simp only [Reader.orElse, hr, hr']
    exact .ok hQ
  -- Both have failed, so both try their second alternative from where they were.
  | fail =>
    simp only [Reader.orElse, hr, hr']
    exact hp'.agree _ _ _ _ hP

lemma Tracks.optional (hp : σ.Tracks P Q φ p q) (hP : ∀ s s', P s s' → T s s')
    (hQ : ∀ s s', Q s s' → T s s') :
    σ.Tracks P T (Option.map φ) (optional p) (optional q) := by
  refine ⟨fun mark mark' s s' hs => ?_, fun hclosing s => lost_optional (hp.stays hclosing s)⟩
  have h := hp.agree mark mark' s s' hs
  generalize hr : p mark s = r, hr' : q mark' s' = r' at h
  cases h with
  | lost h => exact .lost (lost_optional (hr ▸ h))
  | sunk =>
    simp only [Reader.optional, hr']
    exact .sunk
  | ok hrest =>
    simp only [Reader.optional, hr, hr']
    exact .ok (a := some _) (hQ _ _ hrest)
  | fail =>
    simp only [Reader.optional, hr, hr']
    exact .ok (a := none) (hP _ _ hs)

lemma Tracks.butNot (hp : σ.Tracks P Q φ p q) : σ.Tracks P P id (butNot p) (butNot q) := by
  refine ⟨fun mark mark' s s' hP => ?_, fun hclosing s => lost_butNot (hp.stays hclosing s)⟩
  have h := hp.agree mark mark' s s' hP
  generalize hr : p mark s = r, hr' : q mark' s' = r' at h
  cases h with
  | lost h => exact .lost (lost_butNot (hr ▸ h))
  | sunk =>
    simp only [Reader.butNot, hr']
    exact .sunk
  | ok hrest =>
    simp only [Reader.butNot, hr, hr']
    exact .fail
  | fail =>
    simp only [Reader.butNot, hr, hr']
    exact .ok (φ := id) hP

lemma Tracks.rule (hp : σ.Tracks P Q φ p q) : σ.Tracks P Q φ (rule p) (rule q) := by
  refine ⟨fun mark mark' s s' hP => ?_, fun hclosing s => lost_rule (hp.stays hclosing s)⟩
  have h := hp.agree mark mark' s s' hP
  generalize hr : p mark s = r, hr' : q mark' s' = r' at h
  cases h with
  | lost h => exact .lost (lost_rule (hr ▸ h))
  | sunk =>
    simp only [Reader.rule, hr']
    exact .sunk
  | ok hrest =>
    simp only [Reader.rule, hr, hr']
    exact .ok hrest
  | fail =>
    simp only [Reader.rule, hr, hr']
    exact .fail

lemma stays_pure (a : α) : σ.Stays (pure a : Reader α) :=
  fun hclosing _ => ⟨hclosing, rfl⟩

lemma tracks_pure {a : α} {b : β} (h : b = φ a) : σ.Tracks P P φ (pure a) (pure b) := by
  subst h
  exact ⟨fun _ _ _ _ hP => .ok hP, stays_pure a⟩

lemma stays_left : σ.Stays left :=
  fun hclosing _ => ⟨hclosing, rfl⟩

/-- Where the two readings stand at the same place, as much more is left to the longer one as the
sequel has. -/
lemma walks_left : σ.Walks (· + σ.text.length) left left := by
  refine ⟨fun mark mark' s s' hhere => ?_, stays_left⟩
  have hs' : s' = s ++ σ.text := hhere
  have hlength : s'.length = s.length + σ.text.length := by rw [hs', List.length_append]
  change σ.Agree σ.Here _ (.ok s.length s mark) (.ok s'.length s' mark')
  rw [hlength]
  exact .ok (φ := (· + σ.text.length)) hhere

lemma stays_lexeme {f : List Char → Option (α × List Char)} : σ.Stays (lexeme f) :=
  fun hclosing _ => meets_lexeme (fun _ _ _ => ⟨hclosing, rfl⟩) fun _ => ⟨hclosing, rfl⟩

/-- Repetitions follow each other item by item, and come to an end at the same item. -/
lemma Walks.many (hp : σ.Walks φ p q) : σ.Walks (List.map φ) (many p) (many q) := by
  refine ⟨fun mark mark' s s' hhere => ?_, stays_many hp.stays⟩
  -- on the length of the shorter text; an item that takes something takes as much from both
  induction hn : s.length using Nat.strong_induction_on generalizing mark mark' s s' with
  | _ n ih =>
    have h := hp.agree mark mark' s s' hhere
    generalize hr : p mark s = r, hr' : q mark' s' = r' at h
    cases h with
    | lost h => exact .lost (lost_many (hr ▸ h) hp.stays)
    | sunk =>
      have hsunk : Reader.many q mark' s' = .deep := by rw [Reader.many, hr']
      rw [hsunk]
      exact .sunk
    | fail =>
      rw [Reader.many, Reader.many, hr, hr']
      exact .ok (a := []) hhere
    | @ok a rest rest' m m' hrest =>
      have hs' : s' = s ++ σ.text := hhere
      have hrest' : rest' = rest ++ σ.text := hrest
      by_cases hlt : rest.length < s.length
      · have hlt' : rest'.length < s'.length := by
          rw [hs', hrest', List.length_append, List.length_append]
          omega
        have hothers := ih rest.length (hn ▸ hlt) m m' rest rest' hrest rfl
        have hlost (h : σ.Lost (Reader.many p m rest)) : σ.Lost (Reader.many p mark s) := by
          rw [many_of_ok hr hlt]
          cases hmany : Reader.many p m rest with
          | ok as rest mark => rwa [hmany] at h
          | fail mark => rwa [hmany] at h
          | deep => trivial
        generalize hmany : Reader.many p m rest = r, hmany' : Reader.many q m' rest' = r' at hothers
        cases hothers with
        | lost h => exact .lost (hlost (hmany ▸ h))
        | sunk =>
          have hsunk : Reader.many q mark' s' = .deep := by rw [many_of_ok hr' hlt', hmany']
          rw [hsunk]
          exact .sunk
        | ok hend =>
          rw [many_of_ok hr hlt, many_of_ok hr' hlt', hmany, hmany']
          exact .ok (a := a :: _) hend
        | fail =>
          rw [many_of_ok hr hlt, many_of_ok hr' hlt', hmany, hmany']
          exact .fail
      · have hge' : ¬ rest'.length < s'.length := by
          rw [hs', hrest', List.length_append, List.length_append]
          omega
        rw [Reader.many, Reader.many, hr, hr']
        dsimp only
        rw [if_neg hlt, if_neg hge']
        exact .ok (a := [a]) hrest

/-! ## Readers that fail beyond -/

/-- From the same place or beyond, both come to the same place: beyond they fail and come
nowhere. -/
lemma Follows.near (h : σ.Follows φ p q) : σ.Tracks σ.Near σ.Here φ p q := by
  refine ⟨fun mark mark' s s' hnear => ?_, h.here.stays⟩
  rcases hnear with hhere | hpast
  · exact h.here.agree mark mark' s s' hhere
  · exact (h.past.agree mark mark' s s' hpast).mono fun _ _ => False.elim

lemma Walks.unreached (h : σ.Walks φ p q) : σ.Tracks (fun _ _ => False) T φ p q :=
  ⟨fun _ _ _ _ hnowhere => hnowhere.elim, h.stays⟩

/-- Behind a reader that fails beyond, only what is read from the same place matters. -/
lemma Follows.bind {f : α → Reader γ} {g : β → Reader δ} (hp : σ.Follows φ p q)
    (hf : ∀ a, σ.Walks ψ (f a) (g (φ a))) : σ.Follows ψ (p >>= f) (q >>= g) :=
  ⟨hp.here.bind hf, hp.past.bind fun a => (hf a).unreached⟩

lemma Follows.orElse {p' : Reader α} {q' : Reader β} (hp : σ.Follows φ p q)
    (hp' : σ.Follows φ p' q') :
    σ.Follows φ (orElse p p') (orElse q q') :=
  ⟨hp.here.orElse hp'.here, hp.past.orElse hp'.past⟩

lemma Follows.rule (hp : σ.Follows φ p q) : σ.Follows φ (rule p) (rule q) :=
  ⟨hp.here.rule, hp.past.rule⟩

lemma Walks.optional (hp : σ.Walks φ p q) : σ.Walks (Option.map φ) (optional p) (optional q) :=
  Tracks.optional hp (fun _ _ hhere => hhere) fun _ _ hhere => hhere

/-- Beyond the end an option is not there, so what comes after it has to fail. -/
lemma Follows.absent_bind {f : Option α → Reader γ} {g : Option β → Reader δ} (hp : σ.Follows φ p q)
    (hf : ∀ a, σ.Tracks σ.Past (fun _ _ => False) ψ (f a) (g (a.map φ))) :
    σ.Tracks σ.Past (fun _ _ => False) ψ (optional p >>= f) (optional q >>= g) :=
  (hp.past.optional (fun _ _ h => h) fun _ _ => False.elim).bind hf

lemma Follows.optional_bind {f : Option α → Reader γ} {g : Option β → Reader δ}
    (hp : σ.Follows φ p q) (hf : ∀ a, σ.Follows ψ (f a) (g (a.map φ))) :
    σ.Follows ψ (optional p >>= f) (optional q >>= g) :=
  ⟨hp.here.optional.bind fun a => (hf a).here, hp.absent_bind fun a => (hf a).past⟩

lemma Follows.butNot_bind {f g : Unit → Reader γ} {χ : γ → γ} (hp : σ.Follows φ p q)
    (hf : ∀ a, σ.Follows χ (f a) (g a)) :
    σ.Follows χ (butNot p >>= f) (butNot q >>= g) :=
  ⟨hp.here.butNot.bind fun a => (hf a).here, hp.past.butNot.bind fun a => (hf a).past⟩

lemma stays_skip : σ.Stays skip :=
  fun hclosing _ => ⟨hclosing, rfl⟩

/-- Behind white space the two readings stand at the same place, or the shorter text has ended and
the longer reading has gone into the sequel. -/
theorem near_dropWhile (s : List Char) :
    σ.Near (s.dropWhile isBlank) ((s ++ σ.text).dropWhile isBlank) := by
  by_cases hblank : s.dropWhile isBlank = []
  · refine .inr ⟨hblank, ?_⟩
    exact List.dropWhile_append_of_pos (List.dropWhile_eq_nil_iff.mp hblank)
  · refine .inl ?_
    rw [Here, List.dropWhile_append, if_neg (by rwa [List.isEmpty_iff])]

lemma tracks_skip : σ.Tracks σ.Here σ.Near id skip skip := by
  refine ⟨fun mark mark' s s' hhere => ?_, stays_skip⟩
  have hs' : s' = s ++ σ.text := hhere
  subst hs'
  exact .ok (φ := id) (near_dropWhile s)

lemma tracks_skip_past : σ.Tracks σ.Past σ.Past id skip skip := by
  refine ⟨fun mark mark' s s' hpast => ?_, stays_skip⟩
  obtain ⟨rfl, rfl⟩ := hpast
  have hinner : σ.inner.dropWhile isBlank = σ.inner :=
    dropWhile_of_halts (halts_dropWhile isBlank σ.text)
  exact .ok (φ := id) ⟨rfl, hinner⟩

/-- White space in front of a reader that fails beyond does not part the two readings, wherever it
leads. -/
lemma walks_skip_bind {f g : Unit → Reader γ} {χ : γ → γ} (hf : ∀ a, σ.Follows χ (f a) (g a)) :
    σ.Walks χ (skip >>= f) (skip >>= g) :=
  tracks_skip.bind fun a => (hf a).near

lemma follows_skip_bind {f g : Unit → Reader γ} {χ : γ → γ} (hf : ∀ a, σ.Follows χ (f a) (g a)) :
    σ.Follows χ (skip >>= f) (skip >>= g) :=
  ⟨walks_skip_bind hf, tracks_skip_past.bind fun a => (hf a).past⟩

/-- How much is left is of no use beyond the end, as both readers fail there. At the same place the
counts differ by the length of the sequel. -/
lemma follows_left_bind {f g : Nat → Reader γ} {χ : γ → γ}
    (hhere : ∀ n, σ.Walks χ (f n) (g (n + σ.text.length)))
    (hpast : ∀ n n', σ.Tracks σ.Past (fun _ _ => False) χ (f n) (g n')) :
    σ.Follows χ (left >>= f) (left >>= g) := by
  refine ⟨walks_left.bind hhere, ⟨fun mark mark' s s' h => ?_, fun hclosing s => ?_⟩⟩
  · exact (hpast s.length s'.length).agree mark mark' s s' h
  · exact (hpast s.length 0).stays hclosing s

lemma Follows.left_bind_bind {f : Nat → α → Reader γ} {g : Nat → β → Reader γ} {χ : γ → γ}
    (hp : σ.Follows φ p q) (hf : ∀ n a, σ.Walks χ (f n a) (g (n + σ.text.length) (φ a))) :
    σ.Follows χ (left >>= fun n => p >>= f n) (left >>= fun n => q >>= g n) :=
  follows_left_bind (fun n => hp.here.bind (hf n))
    fun n _ => hp.past.bind fun a => ⟨fun _ _ _ _ hnowhere => hnowhere.elim, (hf n a).stays⟩

lemma unreached_left {f g : Nat → γ} {χ : γ → γ} :
    σ.Tracks (fun _ _ => False) T χ (left >>= fun n => pure (f n)) (left >>= fun n => pure (g n)) :=
  ⟨fun _ _ _ _ hnowhere => hnowhere.elim, fun hclosing _ => ⟨hclosing, rfl⟩⟩

/-- Where there is no room, both readings sink. -/
lemma Follows.within {Step : Type} (hp : σ.Follows φ p q) (room : Room Step) :
    σ.Follows φ (within room p) (within room q) := by
  cases room with
  | none =>
    exact ⟨⟨fun _ _ _ _ _ => .sunk, fun _ _ => trivial⟩,
      ⟨fun _ _ _ _ _ => .sunk, fun _ _ => trivial⟩⟩
  | more => exact hp

lemma follows_fail : σ.Follows φ (fun mark _ => .fail mark) (fun mark _ => .fail mark) :=
  ⟨⟨fun _ _ _ _ _ => .fail, fun hclosing _ => ⟨hclosing, rfl⟩⟩,
    ⟨fun _ _ _ _ _ => .fail, fun hclosing _ => ⟨hclosing, rfl⟩⟩⟩

lemma follows_firstOf {ps : List (Reader α)} {χ : α → α} (h : ∀ p ∈ ps, σ.Follows χ p p) :
    σ.Follows χ (firstOf ps) (firstOf ps) := by
  induction ps with
  | nil => exact follows_fail
  | cons p ps ih =>
    obtain ⟨hp, hps⟩ := List.forall_mem_cons.mp h
    exact hp.orElse (ih hps)

/-! ## Tokens -/

/-- A token that does not depend on what follows it is read alike by both, and is read by neither
beyond the end. -/
lemma follows_lexeme {f : List Char → Option (α × List Char)} (hf : Local f) (hnil : f [] = none) :
    σ.Follows id (lexeme f) (lexeme f) := by
  refine ⟨⟨fun mark mark' s s' hhere => ?_, stays_lexeme⟩,
    ⟨fun mark mark' s s' hpast => ?_, stays_lexeme⟩⟩
  · have hs' : s' = s ++ σ.text := hhere
    have hfound := hf s σ.text σ.isBreak
    rw [← hs'] at hfound
    simp only [lexeme, hfound]
    cases f s with
    | none => exact .fail
    | some found => exact .ok (φ := id) rfl
  · obtain ⟨rfl, rfl⟩ := hpast
    have hinner : f σ.inner = none := hf.at_break hnil σ.isBreak_inner
    simp only [lexeme, hnil, hinner]
    exact .fail

lemma follows_word {w : String} {c : Char} {cs : List Char} (hw : w.toList = c :: cs)
    (hinner : ∀ c ∈ w.toList, Inner c) : σ.Follows id (word w) (word w) :=
  follows_lexeme (local_afterWord hinner) (by rw [hw]; rfl)

lemma head?_inner {c : Char} (hc : isBlank c = false) (h : σ.text.head? = some c) :
    σ.inner.head? = some c := by
  obtain ⟨y, hy⟩ := List.head?_eq_some_iff.mp h
  rw [inner, hy, List.dropWhile_cons, if_neg (Bool.eq_false_iff.mp hc)]
  rfl

/-- A bracket before the end of the shorter text is there for both readings. -/
lemma tracks_bracket {w : String} {c : Char} (hw : w.toList = [c]) (d : Char) (s : List Char) :
    σ.Tracks (σ.At (d :: s)) σ.Here id (word w) (word w) := by
  refine ⟨?_, stays_lexeme⟩
  rintro mark mark' _ _ ⟨rfl, rfl⟩
  by_cases hd : c = d
  · subst hd
    simp only [word, lexeme, hw, List.cons_append, afterWord?, if_true, Option.map_some]
    exact .ok (φ := id) rfl
  · simp only [word, lexeme, hw, List.cons_append, afterWord?, if_neg hd, Option.map_none]
    exact .fail

/-- A bracket is there for one reading if it is there for the other, unless the sequel starts with
it. -/
theorem follows_bracket {w : String} {c : Char} (hw : w.toList = [c]) (hc : isBlank c = false)
    (hinner : σ.inner.head? ≠ some c) : σ.Follows id (word w) (word w) := by
  have hnone {y : List Char} (hy : y.head? ≠ some c) :
      (afterWord? w.toList y).map (((), ·)) = none := by
    rw [hw]
    cases y with
    | nil => rfl
    | cons d y => rw [afterWord?, if_neg fun h => hy (by rw [h]; rfl)]; rfl
  have hend : (afterWord? w.toList []).map (((), ·)) = none := by rw [hw]; rfl
  -- In front of the appended text the bracket is the same; behind it, there is none.
  refine ⟨⟨fun mark mark' s s' hhere => ?_, stays_lexeme⟩,
    ⟨fun mark mark' s s' hpast => ?_, stays_lexeme⟩⟩
  · have hs' : s' = s ++ σ.text := hhere
    subst hs'
    cases s with
    | nil =>
      have htext : σ.text.head? ≠ some c := fun h => hinner (head?_inner hc h)
      simp only [word, lexeme, List.nil_append, hnone htext, hend]
      exact .fail
    | cons d s => exact (tracks_bracket hw d s).agree mark mark' _ _ ⟨rfl, rfl⟩
  · obtain ⟨rfl, rfl⟩ := hpast
    simp only [word, lexeme, hnone hinner, hend]
    exact .fail

/-- A closing bracket that the sequel starts with was missing, and so the shorter reading is
lost. -/
lemma follows_close {w : String} {c : Char} (hw : w.toList = [c]) (hc : isBlank c = false)
    (hclose : c = ')' ∨ c = ']') :
    σ.Follows id (rule (word w)) (rule (word w)) := by
  -- a sequel that closes brackets may start with this one, and then the rule has failed at the end;
  -- one that closes none cannot
  by_cases hclosing : σ.closing
  · have hstays : σ.Stays (rule (word w)) := fun hclosing s => lost_rule (stays_lexeme hclosing s)
    have hlost (mark : Nat) : σ.Lost (rule (word w) mark []) :=
      lost_rule_nil hclosing (fails_word_nil hw)
    refine ⟨⟨fun mark mark' s s' hhere => ?_, hstays⟩, ⟨fun mark mark' s s' hpast => ?_, hstays⟩⟩
    · have hs' : s' = s ++ σ.text := hhere
      subst hs'
      cases s with
      | nil => exact .lost (hlost mark)
      | cons d s => exact (tracks_bracket hw d s).rule.agree mark mark' _ _ ⟨rfl, rfl⟩
    · obtain ⟨rfl, -⟩ := hpast
      exact .lost (hlost mark)
  · refine (follows_bracket hw hc fun hhead => ?_).rule
    obtain ⟨hparen, hbracket⟩ := σ.closes hclosing c hhead
    exact hclose.elim hparen hbracket

lemma follows_closeParen : σ.Follows id closeParen closeParen :=
  follows_close rfl (by decide) (.inl rfl)

lemma follows_closeBracket : σ.Follows id closeBracket closeBracket :=
  follows_close rfl (by decide) (.inr rfl)

lemma follows_nameChar : σ.Follows id nameChar nameChar := by
  refine (follows_lexeme (local_of_cons (fun y hy => ?_) fun c s y hy => ?_) rfl).rule
  · cases y with
    | nil => rfl
    | cons c y =>
      have hc : isNameChar c = false := Inside.halts ⟨inky_isNameChar, by decide⟩ hy c rfl
      exact if_neg (Bool.eq_false_iff.mp hc)
  · dsimp only
    split <;> rfl

lemma follows_identifier : σ.Follows id identifier identifier := by
  have hreserved : σ.Follows id (rule (lexeme (wordToken? reservedWords)))
      (rule (lexeme (wordToken? reservedWords))) :=
    (follows_lexeme (local_wordToken (by decide)) (by decide)).rule
  have hname : σ.Follows id (rule (lexeme nameToken?)) (rule (lexeme nameToken?)) :=
    (follows_lexeme local_nameToken rfl).rule
  exact Follows.rule (hreserved.butNot_bind fun _ => hname.bind fun _ => tracks_pure rfl)

lemma follows_operator (l : Precedence) :
    σ.Follows id (operator (table l)) (operator (table l)) := by
  rw [operator_eq]
  refine (follows_lexeme (local_operator ?_) ?_).rule
  · cases l <;> decide
  · cases l <;> rfl

lemma follows_unaryOperator : σ.Follows id unaryOperator unaryOperator := by
  refine (follows_lexeme (local_of_cons (fun y hy => ?_) fun c s y hy => ?_) rfl).rule
  · split
    case h_1 => exact absurd rfl (hy.ne (by decide : Inner '+'))
    case h_2 => exact absurd rfl (hy.ne (by decide : Inner '-'))
    case h_3 => exact absurd rfl (hy.ne (by decide : Inner '!'))
    case h_4 => rfl
  · by_cases hplus : c = '+'
    · subst hplus
      rfl
    by_cases hminus : c = '-'
    · subst hminus
      rfl
    by_cases hnot : c = '!'
    · subst hnot
      rfl
    simp [hplus, hminus, hnot]

/-- A step is read alike by both. A sign at the end of the shorter text does not become a step,
since no sequel starts with a sign. -/
lemma follows_updateOperator : σ.Follows id updateOperator updateOperator := by
  have hnot {y : List Char} (hy : Break y) {c : Char} (hc : Inner c) (t : List Char) : y ≠ c :: t :=
    fun h => hy.ne hc (by rw [h]; rfl)
  refine (follows_lexeme (local_of_cons (fun y hy => ?_) fun c s y hy => ?_) rfl).rule
  · split
    case h_1 => exact absurd rfl (hy.ne (by decide : Inner '+'))
    case h_2 => exact absurd rfl (hy.ne (by decide : Inner '-'))
    case h_3 => rfl
  · cases s with
    -- One sign at the end of the text is no step, and what is appended does not make it one.
    | nil =>
      simp [hnot hy (by decide : Inner '+'), hnot hy (by decide : Inner '-')]
    | cons d s =>
      rw [List.cons_append]
      split
      case h_1 rest heq =>
        obtain ⟨rfl, rfl, rfl⟩ : c = '+' ∧ d = '+' ∧ s ++ y = rest := by simpa using heq
        rfl
      case h_2 rest heq =>
        obtain ⟨rfl, rfl, rfl⟩ : c = '-' ∧ d = '-' ∧ s ++ y = rest := by simpa using heq
        rfl
      case h_3 hplus hminus =>
        split
        case h_1 rest heq =>
          obtain ⟨rfl, rfl, rfl⟩ : c = '+' ∧ d = '+' ∧ s = rest := by simpa using heq
          exact absurd rfl (hplus (s ++ y))
        case h_2 rest heq =>
          obtain ⟨rfl, rfl, rfl⟩ : c = '-' ∧ d = '-' ∧ s = rest := by simpa using heq
          exact absurd rfl (hminus (s ++ y))
        case h_3 => rfl

lemma follows_stepBehind : σ.Follows id stepBehind stepBehind :=
  Follows.rule (follows_skip_bind fun _ => follows_updateOperator)

/-- The mark of a negated context takes the white space behind it, so the longer reading may stand
in the sequel after it. -/
theorem Follows.negation_bind {f g : Option Unit → Reader γ} {χ : γ → γ}
    (hf : ∀ a, σ.Follows χ (f a) (g a)) :
    σ.Follows χ (optional negation >>= f) (optional negation >>= g) := by
  have hword : σ.Follows id (word "!") (word "!") := follows_word rfl (by decide)
  have hhere : σ.Tracks σ.Here σ.Near id negation negation :=
    Tracks.rule (hword.here.bind fun _ => tracks_skip)
  have hpast : σ.Tracks σ.Past (fun _ _ => False) id negation negation :=
    Tracks.rule (hword.past.bind fun _ => ⟨fun _ _ _ _ hnowhere => hnowhere.elim, stays_skip⟩)
  constructor
  · refine (hhere.optional (fun _ _ => Or.inl) fun _ _ h => h).bind fun a => ?_
    rw [Option.map_id]
    exact (hf a).near
  · refine (hpast.optional (fun _ _ h => h) fun _ _ => False.elim).bind fun a => ?_
    rw [Option.map_id]
    exact (hf a).past

lemma follows_contextWord : σ.Follows id contextWord contextWord := by
  refine (follows_lexeme (fun s y hy => ?_) (by decide)).rule
  rw [local_wordToken (by decide) s y hy, Option.map_map, Option.map_map]
  rfl

end

/-! ## Primaries -/

section

variable {σ : Sequel}

/-- A leaf is read alike if what is in it is, and its extent moves on by the length of the
sequel. -/
lemma Follows.leaf {α : Type} {φ : α → α} {p : Reader α} {node : α → Extent → Surface}
    (hp : σ.Follows φ p p)
    (hnode : ∀ a x, node (φ a) (x.moved σ.text.length) = σ.onward (node a x)) :
    σ.Follows σ.onward (leaf p node) (leaf p node) := by
  refine Follows.rule (hp.left_bind_bind fun before a => ?_)
  exact walks_left.bind fun after => tracks_pure (hnode a ⟨before, after⟩)

lemma follows_anyArguments : σ.Follows σ.onward anyArguments anyArguments :=
  Follows.leaf (follows_word rfl (by decide)) fun _ _ => rfl

lemma follows_anyOfType : σ.Follows σ.onward anyOfType anyOfType := by
  have hcolon : σ.Follows id (word ":") (word ":") := follows_word rfl (by decide)
  have htype : σ.Follows id
      (rule (lexeme (leadingWord? ["int", "double", "string", "boolean", "bool", "lambda"])))
      (rule (lexeme (leadingWord? ["int", "double", "string", "boolean", "bool", "lambda"]))) :=
    (follows_lexeme (local_leadingWord (by decide)) (by decide)).rule
  refine Follows.leaf (φ := id) (hcolon.bind fun _ => htype.here.bind fun type =>
    hcolon.here.bind fun _ => tracks_pure rfl) fun type x => ?_
  dsimp only [id]
  split <;> rfl

lemma follows_literal : σ.Follows σ.onward literal literal := by
  refine Follows.rule (follows_firstOf ?_)
  simp only [List.forall_mem_cons, List.not_mem_nil, false_imp_iff, implies_true, and_true]
  exact ⟨(follows_lexeme local_doubleToken rfl).leaf fun _ _ => rfl,
    (follows_lexeme local_integerToken rfl).leaf fun _ _ => rfl,
    (follows_lexeme local_stringToken rfl).leaf fun _ _ => rfl⟩

lemma follows_keyword : σ.Follows σ.onward keyword keyword := by
  refine (follows_lexeme (local_wordToken (by decide)) (by decide)).leaf fun w x => ?_
  dsimp only [id]
  split <;> rfl

lemma follows_wildcard : σ.Follows σ.onward wildcard wildcard := by
  have hword : σ.Follows id (word "_") (word "_") := follows_word rfl (by decide)
  exact (hword.bind fun _ => follows_nameChar.here.butNot).leaf fun _ _ => rfl

lemma follows_reference : σ.Follows σ.onward reference reference :=
  follows_identifier.leaf fun _ _ => rfl

section

variable {expression : Reader Surface} (hexpr : σ.Follows σ.onward expression expression)
include hexpr

lemma follows_argument : σ.Follows σ.onward (argument expression) (argument expression) :=
  (follows_anyArguments.orElse hexpr).rule

lemma follows_argumentList :
    σ.Follows (List.map σ.onward) (argumentList expression) (argumentList expression) := by
  have hcomma : σ.Follows id (word ",") (word ",") := follows_word rfl (by decide)
  have hargument := follows_argument hexpr
  have hfurther : σ.Follows σ.onward (furtherArgument expression) (furtherArgument expression) :=
    follows_skip_bind fun _ => hcomma.bind fun _ => walks_skip_bind fun _ => hargument
  exact Follows.rule (hargument.bind fun _ => hfurther.here.many.bind fun _ => tracks_pure rfl)

/-- Arguments are read alike. Their closing parenthesis may be missing from the shorter text and
stand in the sequel, and then the shorter reading is lost. -/
lemma follows_arguments :
    σ.Follows (List.map σ.onward) (arguments expression) (arguments expression) := by
  have hopen : σ.Follows id (word "(") (word "(") := follows_word rfl (by decide)
  refine Follows.rule (follows_skip_bind fun _ => hopen.bind fun _ => walks_skip_bind fun _ =>
    (follows_argumentList hexpr).optional_bind fun args => follows_skip_bind fun _ =>
      follows_closeParen.bind fun _ => tracks_pure ?_)
  cases args <;> rfl

lemma follows_grouped : σ.Follows σ.onward (grouped expression) (grouped expression) := by
  have hopen : σ.Follows id (word "(") (word "(") := follows_word rfl (by decide)
  exact Follows.rule (hopen.bind fun _ => walks_skip_bind fun _ => hexpr.bind fun _ =>
    walks_skip_bind fun _ => follows_closeParen.bind fun _ => tracks_pure rfl)

lemma follows_creation : σ.Follows σ.onward (creation expression) (creation expression) := by
  have hnew : σ.Follows id (word "new") (word "new") := follows_word rfl (by decide)
  refine Follows.leaf (φ := Prod.map id (List.map σ.onward)) ?_ fun a x => ?_
  · exact hnew.bind fun _ => follows_nameChar.here.butNot.bind fun _ => walks_skip_bind fun _ =>
      follows_identifier.bind fun _ => (follows_arguments hexpr).here.bind fun _ => tracks_pure rfl
  · exact congrArg (Expr.creation a.1 · _) (Expr.relocateList_eq_map _ a.2).symm

lemma follows_call : σ.Follows σ.onward (call expression) (call expression) := by
  refine Follows.leaf (φ := Prod.map id (List.map σ.onward)) ?_ fun a x => ?_
  · exact follows_identifier.bind fun _ => (follows_arguments hexpr).here.bind fun _ =>
      tracks_pure rfl
  · exact congrArg (Expr.call a.1 · _) (Expr.relocateList_eq_map _ a.2).symm

/-! ## Selectors and prefix operators -/

lemma follows_member :
    σ.Follows (Selector.moved σ.text.length) (member expression) (member expression) := by
  have hdot : σ.Follows id (word ".") (word ".") := follows_word rfl (by decide)
  refine Follows.rule (hdot.bind fun _ => walks_skip_bind fun _ =>
    follows_identifier.bind fun name =>
    (follows_arguments hexpr).here.optional.bind fun args => walks_left.bind fun after =>
      tracks_pure ?_)
  cases args <;> rfl

end

section

variable {nested : Nested}
  (hnested : ∀ o, σ.Follows σ.onward (nested.expression o) (nested.expression o))
include hnested

lemma follows_primary : σ.Follows σ.onward (primary nested) (primary nested) := by
  refine Follows.rule (follows_firstOf ?_)
  simp only [List.forall_mem_cons, List.not_mem_nil, false_imp_iff, implies_true, and_true]
  exact ⟨follows_grouped (hnested .group), follows_creation (hnested .creation), follows_anyOfType,
    follows_literal, follows_keyword, follows_wildcard, follows_call (hnested .call),
    follows_reference⟩

variable (hindex : σ.Follows (Selector.moved σ.text.length) (index nested) (index nested))
include hindex

/-- An operand with its selectors is read alike if its index is, which is left open here. -/
lemma follows_selected : σ.Follows σ.onward (selected nested) (selected nested) := by
  have hselector : σ.Follows (Selector.moved σ.text.length) (selector nested) (selector nested) :=
    Follows.rule (follows_skip_bind fun _ => (follows_member (hnested .member)).orElse hindex)
  refine Follows.rule ((follows_primary hnested).left_bind_bind fun before head =>
    hselector.here.many.bind fun selectors => follows_stepBehind.here.optional.bind fun step => ?_)
  have hresult :
      (selectors.map (Selector.moved σ.text.length)).foldl Selector.attach (σ.onward head) =
        σ.onward (selectors.foldl Selector.attach head) := by
    rw [List.foldl_map]
    exact List.foldl_hom σ.onward fun receiver selector => Selector.attach_moved _ receiver selector
  cases step with
  | none => exact tracks_pure hresult
  | some up =>
    refine walks_left.bind fun after => tracks_pure ?_
    exact congrArg
      (Expr.update ⟨false, up⟩ · ⟨before + σ.text.length, after + σ.text.length⟩) hresult

/-- An operand is read alike, with or without a sign in front. Beyond the end there is no sign and
no operand, so both readings fail. -/
lemma follows_prefixed {operand : Reader Surface} (hoperand : σ.Follows σ.onward operand operand) :
    σ.Follows σ.onward (prefixed operand nested) (prefixed operand nested) := by
  refine Follows.rule (follows_left_bind (fun before => ?_) fun before before' => ?_)
  · refine follows_updateOperator.here.optional.bind fun step => ?_
    cases step with
    | some up =>
      exact walks_skip_bind fun _ => hoperand.bind fun _ => walks_left.bind fun _ => tracks_pure rfl
    | none =>
      refine follows_unaryOperator.here.optional.bind fun sign => ?_
      cases sign with
      | some op =>
        exact walks_skip_bind fun _ => hoperand.bind fun _ => walks_left.bind fun _ =>
          tracks_pure rfl
      | none => exact (follows_selected hnested hindex).here
  · -- Where only the appended text is left, there is no operand for any sign.
    refine follows_updateOperator.absent_bind fun step => ?_
    cases step with
    | some up => exact tracks_skip_past.bind fun _ => hoperand.past.bind fun _ => unreached_left
    | none =>
      refine follows_unaryOperator.absent_bind fun sign => ?_
      cases sign with
      | some op => exact tracks_skip_past.bind fun _ => hoperand.past.bind fun _ => unreached_left
      | none => exact (follows_selected hnested hindex).past

end

/-! ## Binary operators -/

section

variable {operand : Reader Surface} {tail : Reader Tail}

/-- A chain is read alike if its operand and its tails are, and putting the tails behind the operand
commutes with moving on. -/
lemma follows_chain (hoperand : σ.Follows σ.onward operand operand)
    (htail : σ.Follows (Tail.moved σ.text.length) tail tail) :
    σ.Follows σ.onward (chain operand tail) (chain operand tail) := by
  refine Follows.rule (hoperand.bind fun first => htail.here.many.bind fun tails => tracks_pure ?_)
  rw [List.foldl_map]
  exact List.foldl_hom σ.onward fun lhs tail => Tail.attach_moved _ lhs tail

lemma follows_operatorTail (l : Precedence) (hoperand : σ.Follows σ.onward operand operand) :
    σ.Follows (Tail.moved σ.text.length) (operatorTail (operator (table l)) operand)
      (operatorTail (operator (table l)) operand) :=
  Follows.rule (follows_skip_bind fun _ => (follows_operator l).bind fun _ =>
    walks_skip_bind fun _ => hoperand.bind fun _ => walks_left.bind fun _ => tracks_pure rfl)

lemma follows_typeTestTail : σ.Follows (Tail.moved σ.text.length) typeTestTail typeTestTail := by
  have hword : σ.Follows id (word "instanceof") (word "instanceof") := follows_word rfl (by decide)
  exact Follows.rule (follows_skip_bind fun _ => hword.bind fun _ =>
    follows_nameChar.here.butNot.bind fun _ => walks_skip_bind fun _ =>
    follows_identifier.bind fun _ => walks_left.bind fun _ => tracks_pure rfl)

lemma follows_tail (l : Precedence)
    (htighter : σ.Follows σ.onward (l.tighter.reader operand) (l.tighter.reader operand)) :
    σ.Follows (Tail.moved σ.text.length) (l.tail operand) (l.tail operand) := by
  cases l with
  | equality => exact follows_operatorTail .equality htighter
  | relational =>
    exact Follows.rule (follows_typeTestTail.orElse (follows_operatorTail .relational htighter))
  | shift => exact follows_operatorTail .shift htighter
  | additive => exact follows_operatorTail .additive htighter
  | multiplicative => exact follows_operatorTail .multiplicative htighter
  | prefixed | stepped | selected => exact follows_fail

/-- Every level of binary operators is a chain over the next tighter one, and so is read alike if
operands are. -/
theorem follows_reader (hoperand : σ.Follows σ.onward operand operand) (l : Precedence) :
    σ.Follows σ.onward (l.reader operand) (l.reader operand) := by
  refine Precedence.reader_induction (motive := fun p => σ.Follows σ.onward p p) hoperand ?_ l
  intro l hl htighter
  rw [l.reader_eq_chain hl]
  exact follows_chain htighter (follows_tail l htighter)

lemma follows_expressionOver (hoperand : σ.Follows σ.onward operand operand) :
    σ.Follows σ.onward (expressionOver operand) (expressionOver operand) :=
  follows_reader hoperand .equality

end

/-! ## Nesting -/

/-- Operands are read alike if indices are. What an index does with a sequel has to be shown only
where everything inside of it is read alike already. -/
theorem follows_operandWithin
    (hindex : ∀ inside,
      (∀ o, σ.Follows σ.onward (operandWithin (inside o)) (operandWithin (inside o))) →
      σ.Follows (Selector.moved σ.text.length) (index (nestedWithin inside))
        (index (nestedWithin inside)))
    (room : Room Opening) : σ.Follows σ.onward (operandWithin room) (operandWithin room) := by
  induction room with
  | none =>
    exact ⟨⟨fun _ _ _ _ _ => .sunk, fun _ _ => trivial⟩,
      ⟨fun _ _ _ _ _ => .sunk, fun _ _ => trivial⟩⟩
  | more inside ih =>
    rw [operandWithin_more]
    exact follows_prefixed (fun o => follows_expressionOver (ih o)) (hindex inside ih) (ih .sign)

end

end Sequel

end ShapeLint.Grammar
