import Mathlib.Data.List.Forall2
import Mathlib.Data.List.Nodup
import Mathlib.Tactic.Tauto
import ShapeLint.Proofs.Account
import ShapeLint.Proofs.Image

/-!
# What is wrong with a configuration

A configuration that has the wrong shape is reported, except where the report itself cannot be
written. That happens in two cases. A mapping with an unknown key is reported with a list of the
unknown keys, which fails if one of them is no text. And a value that should be a text is shown in
the report, which fails if an integer in it has too many digits.

`Answers` is what a reader comes to: it accepts a document that conforms, it fails in one of the two
ways, or it reports that the shape is wrong. Readers run one after another, and the first that does
not accept decides; `Answers.andThen` says so once, and each reader is put together from smaller
ones by it. Conformance and the two flaws are said of documents, without a word about readers.
-/

namespace ShapeLint

/-! ## Documents that conform -/

namespace Document

/-- The document is a text. -/
def IsText (d : Document) : Prop :=
  ∃ s, d = .text s

/-- The document is absent, a text, or a list of texts. Where several texts may stand, one may stand
alone. -/
def IsTexts (d : Document) : Prop :=
  d = .null ∨ d.IsText ∨ ∃ items, d = .list items ∧ ∀ item ∈ items, item.IsText

/-- The document is neither absent nor an empty list. -/
def IsFilled (d : Document) : Prop :=
  d ≠ .null ∧ d ≠ .list []

/-- The document under a key; nothing if it is absent. -/
def under (key : String) (entries : List (Document × Document)) : Document :=
  (lookup? key entries).getD .null

/-- Some key is no text. It is unknown whatever keys are known, and cannot be sorted among texts. -/
def HasStrangeKey (entries : List (Document × Document)) : Prop :=
  ∃ entry ∈ entries, ¬ entry.1.IsText

/-- All keys are texts that are known. -/
def KeysAmong (known : List String) (entries : List (Document × Document)) : Prop :=
  ∀ entry ∈ entries, ∃ key ∈ known, entry.1 = .text key

/-- The largest integer that can be shown has a fixed number of digits. -/
lemma isWritable_eq_false {n : Nat} (h : Double.tenPow Literal.maxDecimalDigits ≤ n) :
    isWritable n = false := by
  rw [isWritable, Int.natAbs_natCast]
  exact decide_eq_false (Nat.not_lt.2 h)

end Document

namespace Schema

open Document (IsText IsTexts IsFilled under HasStrangeKey KeysAmong)

/-- The first item that does not conform is flawed. Items are read from left to right, so what comes
behind it is never looked at. -/
def FirstFlawed {α : Type} (conforms flawed : α → Prop) (items : List α) : Prop :=
  ∃ before item after, items = before ++ item :: after ∧ (∀ x ∈ before, conforms x) ∧ flawed item

lemma firstFlawed_nil {α : Type} {conforms flawed : α → Prop} :
    ¬ FirstFlawed conforms flawed [] := by
  rintro ⟨before, item, after, h, -⟩
  cases before <;> cases h

lemma firstFlawed_cons {α : Type} {conforms flawed : α → Prop} {x : α} {xs : List α} :
    FirstFlawed conforms flawed (x :: xs) ↔
      flawed x ∨ conforms x ∧ FirstFlawed conforms flawed xs := by
  constructor
  · rintro ⟨before, item, after, h, hbefore, hitem⟩
    cases before with
    | nil =>
      obtain ⟨rfl, -⟩ := List.cons.inj h
      exact .inl hitem
    | cons y before =>
      obtain ⟨rfl, rfl⟩ := List.cons.inj h
      exact .inr ⟨hbefore x (List.mem_cons_self ..),
        before, item, after, rfl, fun z hz => hbefore z (List.mem_cons_of_mem _ hz), hitem⟩
  · rintro (hx | ⟨hx, before, item, after, rfl, hbefore, hitem⟩)
    · exact ⟨[], x, xs, rfl, by simp, hx⟩
    · exact ⟨x :: before, item, after, rfl, by simpa using ⟨hx, hbefore⟩, hitem⟩

/-- The document cannot be shown where a text should stand. -/
def Unshown (d : Document) : Prop :=
  d.isShowable = false

/-- The document is a list whose first item that is no text cannot be shown. A list as such is shown
by its type alone. -/
def UnshownIn (d : Document) : Prop :=
  ∃ items, d = .list items ∧ FirstFlawed IsText Unshown items

/-- What a value of a rule has to be: one text, several, or several of which there is at least
one. -/
inductive Slot where
  | one
  | several
  | severalFilled

/-- The document is what it has to be. -/
def Slot.Conforms : Slot → Document → Prop
  | .one, d => d.IsText
  | .several, d => d.IsTexts
  | .severalFilled, d => d.IsTexts ∧ d.IsFilled

/-- The document is not what it has to be, and the report cannot be written. -/
def Slot.Flawed : Slot → Document → Prop
  | .one, d => Unshown d
  | .several, d | .severalFilled, d => UnshownIn d

/-- The values of a rule, in the order in which they are read. That is not the order in which they
are asked for: all required keys are looked up first. -/
def slots (entries : List (Document × Document)) : List (Slot × Document) :=
  [(.one, under "id" entries), (.severalFilled, under "pattern" entries),
    (.one, under "message" entries), (.several, under "justification" entries),
    (.several, under "tags" entries), (.several, under "before" entries),
    (.several, under "after" entries)]

/-- All values are what they have to be. -/
def AllConform (values : List (Slot × Document)) : Prop :=
  ∀ value ∈ values, value.1.Conforms value.2

/-- The first value that is not what it has to be cannot be shown. -/
def FirstUnshown (values : List (Slot × Document)) : Prop :=
  FirstFlawed (fun value => value.1.Conforms value.2) (fun value => value.1.Flawed value.2) values

lemma allConform_cons {slot : Slot} {d : Document} {values : List (Slot × Document)} :
    AllConform ((slot, d) :: values) ↔ slot.Conforms d ∧ AllConform values :=
  List.forall_mem_cons

lemma firstUnshown_cons {slot : Slot} {d : Document} {values : List (Slot × Document)} :
    FirstUnshown ((slot, d) :: values) ↔ slot.Flawed d ∨ slot.Conforms d ∧ FirstUnshown values :=
  firstFlawed_cons

/-- The keys without which there is no rule are there. -/
def HasRequired (entries : List (Document × Document)) : Prop :=
  ∀ key ∈ ["id", "message", "pattern"], ∃ d, Document.lookup? key entries = some d

/-- The document is a rule. -/
def RuleConforms (d : Document) : Prop :=
  ∃ entries, d = .map entries ∧ KeysAmong ruleKeys entries ∧ HasRequired entries ∧
    AllConform (slots entries)

/-- The document is a mapping that should be a rule and has a key that is no text. Keys are looked
at before all values. -/
def RuleUnlisted (d : Document) : Prop :=
  ∃ entries, d = .map entries ∧ HasStrangeKey entries

/-- The document is a mapping with the keys of a rule, and its first value that does not conform
cannot be shown. -/
def RuleUnshown (d : Document) : Prop :=
  ∃ entries, d = .map entries ∧ KeysAmong ruleKeys entries ∧ HasRequired entries ∧
    FirstUnshown (slots entries)

/-- The id of what should be a rule. -/
def ruleId : Document → Document
  | .map entries => under "id" entries
  | _ => .null

/-- The document is nothing, or a list of rules. -/
def RulesConform (d : Document) : Prop :=
  d = .null ∨ ∃ items, d = .list items ∧ ∀ item ∈ items, RuleConforms item

/-- The entries of what should be a list of rules. -/
def ruleItems : Document → List Document
  | .list items => items
  | _ => []

/-- The document is a configuration without imports: nothing at all, or a mapping with known keys,
whose rules are rules with different ids and whose excluded paths are texts. -/
def Conforms (d : Document) : Prop :=
  d = .null ∨ ∃ entries, d = .map entries ∧ KeysAmong topKeys entries ∧
    RulesConform (under "rules" entries) ∧ (under "exclude" entries).IsTexts ∧
    ((ruleItems (under "rules" entries)).map ruleId).Nodup

/-- The unknown keys cannot be listed: those of the configuration, or those of the first entry that
is no rule. -/
def Unlisted (d : Document) : Prop :=
  ∃ entries, d = .map entries ∧ (HasStrangeKey entries ∨ KeysAmong topKeys entries ∧
    ∃ items, under "rules" entries = .list items ∧ FirstFlawed RuleConforms RuleUnlisted items)

/-- The value that is wrong cannot be shown: one of the first entry that is no rule, or else an
excluded path. Ids are compared last, and by then all values have been shown to be texts. -/
def UnshownValue (d : Document) : Prop :=
  ∃ entries, d = .map entries ∧ KeysAmong topKeys entries ∧
    ((∃ items, under "rules" entries = .list items ∧ FirstFlawed RuleConforms RuleUnshown items) ∨
      RulesConform (under "rules" entries) ∧ UnshownIn (under "exclude" entries))

/-! ## What readers come to -/

section

variable {origin : Origin} {α β : Type}

/-- A report that the shape is wrong. -/
def IsReport (origin : Origin) (f : Fault) : Prop :=
  f.kind = .config .misshapen (originText origin)

/-- A reader accepts what conforms and fails in one of two ways on what is flawed; all else it
reports. Each way says that the other ones do not apply, so that what a reader comes to can be told
from the document and the document from what the reader comes to. -/
inductive Answers (origin : Origin) (conforms unlisted unshown : Prop) :
    Except ConfigProblem α → Prop where
  | accepted (a : α) :
      conforms → ¬ unlisted → ¬ unshown → Answers origin conforms unlisted unshown (.ok a)
  | reported (f : Fault) :
      IsReport origin f → ¬ conforms → ¬ unlisted → ¬ unshown →
      Answers origin conforms unlisted unshown (.error (.fault f))
  | unlisted :
      unlisted → ¬ conforms → ¬ unshown →
      Answers origin conforms unlisted unshown (.error .unlistedKeys)
  | unshown :
      unshown → ¬ conforms → ¬ unlisted →
      Answers origin conforms unlisted unshown (.error .unshownValue)

variable {C C' L L' S S' : Prop} {r : Except ConfigProblem α}

lemma Answers.congr (h : Answers origin C L S r) (hC : C ↔ C') (hL : L ↔ L') (hS : S ↔ S') :
    Answers origin C' L' S' r := by
  rwa [propext hC, propext hL, propext hS] at h

/-- Of two readers, the first decides unless it accepts. So the two together accept what conforms to
both, and fail on what is flawed for the first, or conforms to it and is flawed for the second. -/
lemma Answers.andThen {next : α → Except ConfigProblem β} (h : Answers origin C L S r)
    (hnext : ∀ a, r = .ok a → Answers origin C' L' S' (next a)) :
    Answers origin (C ∧ C') (L ∨ C ∧ L') (S ∨ C ∧ S') (r >>= next) := by
  cases h with
  | accepted a hC hL hS =>
    exact (hnext a rfl).congr (by tauto) (by tauto) (by tauto)
  | reported f hf hC hL hS => exact .reported f hf (by tauto) (by tauto) (by tauto)
  | unlisted hL hC hS => exact .unlisted (.inl hL) (by tauto) (by tauto)
  | unshown hS hC hL => exact .unshown (.inl hS) (by tauto) (by tauto)

/-- What is made of a result does not change what a reader comes to. -/
lemma Answers.map {f : α → β} (h : Answers origin C L S r) : Answers origin C L S (r.map f) := by
  cases h with
  | accepted a hC hL hS => exact .accepted (f a) hC hL hS
  | reported f hf hC hL hS => exact .reported f hf hC hL hS
  | unlisted hL hC hS => exact .unlisted hL hC hS
  | unshown hS hC hL => exact .unshown hS hC hL

section

variable (h : Answers origin C L S r)

include h

lemma Answers.ok_iff : (∃ a, r = .ok a) ↔ C := by
  cases h <;> simp_all

lemma Answers.report_iff : (∃ f, r = .error (.fault f) ∧ IsReport origin f) ↔ ¬ C ∧ ¬ L ∧ ¬ S := by
  cases h <;> simp_all

lemma Answers.unlisted_iff : r = .error .unlistedKeys ↔ L := by
  cases h <;> simp_all

lemma Answers.unshown_iff : r = .error .unshownValue ↔ S := by
  cases h <;> simp_all

end

lemma answers_pure (a : α) : Answers origin True False False (.ok a) :=
  .accepted a trivial id id

lemma answers_misshapen (message : String) :
    Answers origin False False False (.error (misshapen origin message) : Except _ α) :=
  .reported _ rfl id id id

end

/-! ## Texts -/

section

variable (origin : Origin)

lemma not_isText_of_unshown {d : Document} (h : Unshown d) : ¬ d.IsText := by
  rintro ⟨s, rfl⟩
  simp [Unshown, Document.isShowable] at h

/-- A text is read, shown if it is no text, or cannot be shown. -/
lemma text_answers (what : String) (d : Document) :
    Answers origin d.IsText False (Unshown d) (text origin what d) := by
  by_cases ht : d.IsText
  · obtain ⟨s, rfl⟩ := ht
    exact .accepted s ⟨s, rfl⟩ id fun h => not_isText_of_unshown h ⟨s, rfl⟩
  · -- All documents that are no texts go the same way, so the cases are split only here.
    have htext :
        text origin what d =
          if d.isShowable then
            .error (misshapen origin
              (what ++ " must be a string, got " ++ d.typeName ++ ": " ++ d.display))
          else .error .unshownValue := by
      cases d with
      | text s => exact absurd ⟨s, rfl⟩ ht
      | _ => rfl
    rw [htext]
    by_cases hs : d.isShowable
    · rw [if_pos hs]
      exact .reported _ rfl ht id (by simp [Unshown, hs])
    · rw [if_neg hs]
      exact .unshown (by simpa [Unshown] using hs) ht id

/-- The items of a list are read from left to right, so the first that is no text decides. -/
lemma textsFrom_answers (what : String) (items : List Document) (i : Nat) :
    Answers origin (∀ item ∈ items, item.IsText) False (FirstFlawed IsText Unshown items)
      (textsFrom origin what i items) := by
  induction items generalizing i with
  | nil => exact (answers_pure []).congr (by simp) Iff.rfl (by simp [firstFlawed_nil])
  | cons d ds ih =>
    have hstep : textsFrom origin what i (d :: ds) =
        text origin (what ++ "[" ++ toString i ++ "]") d >>= fun s =>
          (textsFrom origin what (i + 1) ds).map (s :: ·) := by
      rw [textsFrom]
      cases text origin (what ++ "[" ++ toString i ++ "]") d <;> rfl
    rw [hstep]
    refine ((text_answers origin _ d).andThen fun s _ => (ih (i + 1)).map).congr ?_ (by simp) ?_
    · simp
    · exact firstFlawed_cons.symm

/-- Several texts are read: what is accepted, and that nothing comes of nothing only. -/
lemma texts_answers (what : String) (d : Document) :
    Answers origin d.IsTexts False (UnshownIn d) (texts origin what d) := by
  by_cases hnull : d = .null
  · subst hnull
    exact .accepted _ (.inl rfl) id (by simp [UnshownIn])
  by_cases htext : d.IsText
  · obtain ⟨s, rfl⟩ := htext
    exact .accepted _ (.inr (.inl ⟨s, rfl⟩)) id (by simp [UnshownIn])
  have hIsTexts : d.IsTexts ↔ ∃ items, d = .list items ∧ ∀ item ∈ items, item.IsText := by
    simp [IsTexts, hnull, htext]
  cases d with
  | null => exact absurd rfl hnull
  | text s => exact absurd ⟨s, rfl⟩ htext
  | list items =>
    exact (textsFrom_answers origin what items 0).congr (by simp [hIsTexts]) Iff.rfl
      (by simp [UnshownIn])
  | _ => exact (answers_misshapen _).congr (by simp [hIsTexts]) Iff.rfl (by simp [UnshownIn])

/-- Nothing is read only where nothing stands: an absent value, or an empty list. -/
lemma isEmpty_of_texts {what : String} {d : Document} {found : List String}
    (h : texts origin what d = .ok found) :
    found.isEmpty = false ↔ d.IsFilled := by
  cases d with
  | null => cases h; simp [IsFilled]
  | text s => cases h; simp [IsFilled]
  | list items =>
    cases items with
    | nil => cases h; simp [IsFilled]
    | cons item items =>
      change textsFrom origin what 0 (item :: items) = .ok found at h
      rw [textsFrom] at h
      split at h
      · cases h
      · cases hothers : textsFrom origin what (0 + 1) items <;> rw [hothers] at h <;> cases h
        simp [IsFilled]
  | _ => cases h

lemma textsAt_answers (what key : String) (entries : List (Document × Document)) :
    Answers origin (under key entries).IsTexts False (UnshownIn (under key entries))
      (textsAt origin what key entries) :=
  texts_answers origin what _

/-! ## Mappings -/

lemma keyTexts_eq_none_iff {keys : List Document} :
    keyTexts keys = none ↔ ∃ key ∈ keys, ¬ key.IsText := by
  induction keys with
  | nil => simp [keyTexts]
  | cons key keys ih =>
    cases key with
    | text s => simp [keyTexts, ih, IsText]
    | _ => simp [keyTexts, IsText]

/-- An unknown key is one of the keys that is none of the known texts. -/
lemma mem_unknownKeys {known : List String} {entries : List (Document × Document)}
    {key : Document} :
    key ∈ unknownKeys known entries ↔
      (∃ value, (key, value) ∈ entries) ∧ ∀ s ∈ known, key ≠ .text s := by
  cases key with
  | text s =>
    have hs : s ∉ known ↔ ∀ t ∈ known, s ≠ t := by
      constructor
      · rintro h t ht rfl
        exact h ht
      · intro h hs
        exact h s hs rfl
    simp [unknownKeys, hs]
  | _ => simp [unknownKeys]

/-- Known keys are accepted, unknown ones are reported as a list, and the list fails if one of them
is no text. -/
lemma onlyKeys_answers (known : List String) (lead : String)
    (entries : List (Document × Document)) :
    Answers origin (KeysAmong known entries) (HasStrangeKey entries) False
      (onlyKeys origin known lead entries) := by
  have hknown : KeysAmong known entries ↔ unknownKeys known entries = [] := by
    rw [List.eq_nil_iff_forall_not_mem]
    constructor
    · intro h key hkey
      obtain ⟨⟨value, hmem⟩, hne⟩ := mem_unknownKeys.1 hkey
      obtain ⟨s, hs, hkey⟩ := h _ hmem
      exact hne s hs hkey
    · intro h entry hentry
      refine Classical.byContradiction fun hnone =>
        h entry.1 (mem_unknownKeys.2 ⟨⟨entry.2, hentry⟩, ?_⟩)
      exact fun s hs he => hnone ⟨s, hs, he⟩
  -- A key that is no text is unknown, so it is enough to look for one among the unknown ones.
  have hstrange : HasStrangeKey entries ↔ keyTexts (unknownKeys known entries) = none := by
    rw [keyTexts_eq_none_iff]
    constructor
    · rintro ⟨entry, hentry, hkey⟩
      exact ⟨entry.1, mem_unknownKeys.2 ⟨⟨entry.2, hentry⟩, fun s _ he => hkey ⟨s, he⟩⟩, hkey⟩
    · rintro ⟨key, hkey, hstrange⟩
      obtain ⟨⟨value, hmem⟩, -⟩ := mem_unknownKeys.1 hkey
      exact ⟨(key, value), hmem, hstrange⟩
  rw [onlyKeys, propext hknown, propext hstrange]
  cases unknownKeys known entries with
  | nil => exact .accepted () rfl (by simp [keyTexts]) id
  | cons key keys =>
    dsimp only
    cases keyTexts (key :: keys) with
    | none => exact .unlisted rfl (by simp) id
    | some texts => exact .reported _ rfl (by simp) (by simp) id

lemma required_answers (what key : String) (entries : List (Document × Document)) :
    Answers origin (∃ d, Document.lookup? key entries = some d) False False
      (required origin what key entries) := by
  rw [required]
  cases h : Document.lookup? key entries with
  | none => exact (answers_misshapen _).congr (by simp) Iff.rfl Iff.rfl
  | some d => exact (answers_pure d).congr (by simp) Iff.rfl Iff.rfl

lemma under_of_required {what key : String} {entries : List (Document × Document)} {d : Document}
    (h : required origin what key entries = .ok d) : under key entries = d := by
  rw [required] at h
  cases hl : Document.lookup? key entries with
  | none => rw [hl] at h; cases h
  | some found => rw [hl] at h; cases h; simp [under, hl]

/-! ## Rules -/

section

variable {origin} {α β : Type} {r : Except ConfigProblem α} {next : α → Except ConfigProblem β}
variable {values : List (Slot × Document)}

lemma answers_noValues (a : α) : Answers origin (AllConform []) False (FirstUnshown []) (.ok a) :=
  (answers_pure a).congr (by simp [AllConform]) Iff.rfl (by simp [FirstUnshown, firstFlawed_nil])

/-- One value is read in front of others. -/
lemma Answers.value {slot : Slot} {d : Document}
    (h : Answers origin (slot.Conforms d) False (slot.Flawed d) r)
    (hnext : ∀ a, Answers origin (AllConform values) False (FirstUnshown values) (next a)) :
    Answers origin (AllConform ((slot, d) :: values)) False (FirstUnshown ((slot, d) :: values))
      (r >>= next) :=
  (h.andThen fun a _ => hnext a).congr allConform_cons.symm (by simp) firstUnshown_cons.symm

/-- Texts of which there must be some are read in front of other values. -/
lemma answers_filledTexts {what : String} {d : Document}
    {refused next : List String → Except ConfigProblem β}
    (hrefused : ∀ found, ∃ message, refused found = .error (misshapen origin message))
    (hnext : ∀ found, Answers origin (AllConform values) False (FirstUnshown values) (next found)) :
    Answers origin (AllConform ((.severalFilled, d) :: values)) False
      (FirstUnshown ((.severalFilled, d) :: values))
      (texts origin what d >>= fun found =>
        if found.isEmpty then refused found else next found) := by
  -- That the texts are read tells whether there are any, so the check behind them can be decided.
  have hrest : ∀ found, texts origin what d = .ok found →
      Answers origin (d.IsFilled ∧ AllConform values) False (d.IsFilled ∧ FirstUnshown values)
        (if found.isEmpty then refused found else next found) := by
    intro found hfound
    have hfilled := isEmpty_of_texts origin hfound
    cases hempty : found.isEmpty with
    | true =>
      have hnot : ¬ d.IsFilled := by simp [← hfilled, hempty]
      obtain ⟨message, hmessage⟩ := hrefused found
      rw [if_pos rfl, hmessage]
      exact (answers_misshapen message).congr (by simp [hnot]) Iff.rfl (by simp [hnot])
    | false =>
      have hyes : d.IsFilled := hfilled.1 hempty
      rw [if_neg (by simp)]
      exact (hnext found).congr (by simp [hyes]) Iff.rfl (by simp [hyes])
  refine ((texts_answers origin what d).andThen hrest).congr ?_ (by simp) ?_
  · simp only [allConform_cons, Slot.Conforms, and_assoc]
  · simp only [firstUnshown_cons, Slot.Conforms, Slot.Flawed, and_assoc]

end

/-- A rule is read: its keys, the keys that it must have, and its values one after another. -/
lemma rule_answers (index : Nat) (d : Document) :
    Answers origin (RuleConforms d) (RuleUnlisted d) (RuleUnshown d) (rule origin index d) := by
  cases d with
  | map entries =>
    -- The readers in their order; what conforms is then the conjunction of what each asks for.
    have hvalues : Answers origin
        (KeysAmong ruleKeys entries ∧ (∃ d, Document.lookup? "id" entries = some d) ∧
          (∃ d, Document.lookup? "message" entries = some d) ∧
          (∃ d, Document.lookup? "pattern" entries = some d) ∧ AllConform (slots entries))
        _ _ (rule origin index (.map entries)) :=
      (onlyKeys_answers origin ruleKeys _ entries).andThen fun _ _ =>
      (required_answers origin _ "id" entries).andThen fun id hid =>
      (required_answers origin _ "message" entries).andThen fun message hmessage =>
      (required_answers origin _ "pattern" entries).andThen fun pattern hpattern => by
        obtain rfl := under_of_required origin hid
        obtain rfl := under_of_required origin hmessage
        obtain rfl := under_of_required origin hpattern
        exact .value (text_answers origin _ _) fun name =>
          answers_filledTexts (fun _ => ⟨_, rfl⟩) fun patterns =>
          .value (text_answers origin _ _) fun message =>
          .value (textsAt_answers origin _ _ _) fun justifications =>
          .value (textsAt_answers origin _ _ _) fun tags =>
          .value (textsAt_answers origin _ _ _) fun before =>
          .value (textsAt_answers origin _ _ _) fun after =>
          answers_noValues _
    refine hvalues.congr ?_ ?_ ?_
    · simp [RuleConforms, HasRequired, and_assoc]
    · simp [RuleUnlisted]
    · simp [RuleUnshown, HasRequired, and_assoc, slots]
  | _ =>
    exact (answers_misshapen _).congr (by simp [RuleConforms]) (by simp [RuleUnlisted])
      (by simp [RuleUnshown])

/-- Rules are read from left to right, so the first entry that is no rule decides. -/
lemma rulesFrom_answers (items : List Document) (i : Nat) :
    Answers origin (∀ item ∈ items, RuleConforms item) (FirstFlawed RuleConforms RuleUnlisted items)
      (FirstFlawed RuleConforms RuleUnshown items) (rulesFrom origin i items) := by
  induction items generalizing i with
  | nil =>
    exact (answers_pure []).congr (by simp) (by simp [firstFlawed_nil]) (by simp [firstFlawed_nil])
  | cons d ds ih =>
    have hstep : rulesFrom origin i (d :: ds) =
        rule origin i d >>= fun spec => (rulesFrom origin (i + 1) ds).map (spec :: ·) := by
      rw [rulesFrom]
      cases rule origin i d <;> rfl
    rw [hstep]
    refine ((rule_answers origin i d).andThen fun spec _ => (ih (i + 1)).map).congr ?_ ?_ ?_
    · simp
    · exact firstFlawed_cons.symm
    · exact firstFlawed_cons.symm

lemma rules_answers (entries : List (Document × Document)) :
    Answers origin (RulesConform (under "rules" entries))
      (∃ items, under "rules" entries = .list items ∧ FirstFlawed RuleConforms RuleUnlisted items)
      (∃ items, under "rules" entries = .list items ∧ FirstFlawed RuleConforms RuleUnshown items)
      (rules origin entries) := by
  rw [rules, ← under]
  cases under "rules" entries with
  | null => exact (answers_pure []).congr (by simp [RulesConform]) (by simp) (by simp)
  | list items =>
    exact (rulesFrom_answers origin items 0).congr (by simp [RulesConform]) (by simp) (by simp)
  | _ => exact (answers_misshapen _).congr (by simp [RulesConform]) (by simp) (by simp)

/-! ## What is read -/

/-- The texts that a document holds: none, one alone, or those of a list. -/
inductive HoldsTexts : Document → List String → Prop where
  | none : HoldsTexts .null []
  | one (s : String) : HoldsTexts (.text s) [s]
  | several (found : List String) : HoldsTexts (.list (found.map .text)) found

/-- The entries are those of a written rule, key by key. -/
structure EntriesGive (entries : List (Document × Document)) (spec : RuleSpec) : Prop where
  id : under "id" entries = .text spec.id
  message : under "message" entries = .text spec.message
  patterns : HoldsTexts (under "pattern" entries) spec.patterns
  patterns_ne_nil : spec.patterns ≠ []
  justifications : HoldsTexts (under "justification" entries) spec.justifications
  tags : HoldsTexts (under "tags" entries) spec.tags
  before : HoldsTexts (under "before" entries) spec.before
  after : HoldsTexts (under "after" entries) spec.after

/-- The document is a mapping with the entries of a written rule. -/
def Gives (d : Document) (spec : RuleSpec) : Prop :=
  ∃ entries, d = .map entries ∧ EntriesGive entries spec

lemma isText_of_text {what : String} {d : Document} {s : String} (h : text origin what d = .ok s) :
    d = .text s := by
  cases d with
  | text t => cases h; rfl
  | _ => simp only [text] at h; split at h <;> cases h

/-- If all items of a list are read, they are the texts that were found. -/
lemma eq_map_of_textsFrom {what : String} {items : List Document} {i : Nat} {found : List String}
    (h : textsFrom origin what i items = .ok found) : items = found.map .text := by
  fun_induction textsFrom origin what i items generalizing found with
  | case1 => cases h; rfl
  | case2 => cases h
  | case3 i d ds s hs ih =>
    obtain ⟨others, hothers, hfound⟩ := exists_of_bind_eq_ok h
    cases hfound
    rw [List.map_cons, ← isText_of_text origin hs, ← ih hothers]

lemma holdsTexts_of_texts {what : String} {d : Document} {found : List String}
    (h : texts origin what d = .ok found) :
    HoldsTexts d found := by
  cases d with
  | null => cases h; exact .none
  | text s => cases h; exact .one s
  | list items =>
    rw [eq_map_of_textsFrom origin h]
    exact .several found
  | _ => cases h

/-- A rule that is read has the entries that the document gives it. -/
lemma gives_of_rule {index : Nat} {d : Document} {spec : RuleSpec}
    (h : rule origin index d = .ok spec) : Gives d spec := by
  rw [rule] at h
  obtain ⟨entries, hentries, h⟩ := exists_of_bind_eq_ok h
  obtain ⟨_, -, h⟩ := exists_of_bind_eq_ok h
  obtain ⟨_, hid, h⟩ := exists_of_bind_eq_ok h
  obtain ⟨_, hmessage, h⟩ := exists_of_bind_eq_ok h
  obtain ⟨_, hpattern, h⟩ := exists_of_bind_eq_ok h
  obtain rfl := under_of_required origin hid
  obtain rfl := under_of_required origin hmessage
  obtain rfl := under_of_required origin hpattern
  obtain ⟨id, hid, h⟩ := exists_of_bind_eq_ok h
  obtain ⟨patterns, hpatterns, h⟩ := exists_of_bind_eq_ok h
  -- A rule without patterns was refused.
  split at h
  · cases h
  case _ hfilled =>
    obtain ⟨message, hmessage, h⟩ := exists_of_bind_eq_ok h
    obtain ⟨justifications, hjustifications, h⟩ := exists_of_bind_eq_ok h
    obtain ⟨tags, htags, h⟩ := exists_of_bind_eq_ok h
    obtain ⟨before, hbefore, h⟩ := exists_of_bind_eq_ok h
    obtain ⟨after, hafter, h⟩ := exists_of_bind_eq_ok h
    cases h
    cases d with
    | map found =>
      cases hentries
      exact ⟨entries, rfl,
        { id := isText_of_text origin hid
          message := isText_of_text origin hmessage
          patterns := holdsTexts_of_texts origin hpatterns
          patterns_ne_nil := fun hnil => hfilled (List.isEmpty_iff.2 hnil)
          justifications := holdsTexts_of_texts origin hjustifications
          tags := holdsTexts_of_texts origin htags
          before := holdsTexts_of_texts origin hbefore
          after := holdsTexts_of_texts origin hafter }⟩
    | _ => cases hentries

lemma gives_of_rulesFrom {items : List Document} {i : Nat} {specs : List RuleSpec}
    (h : rulesFrom origin i items = .ok specs) : List.Forall₂ Gives items specs := by
  fun_induction rulesFrom origin i items generalizing specs with
  | case1 => cases h; exact .nil
  | case2 => cases h
  | case3 i d ds spec hspec ih =>
    obtain ⟨others, hothers, hspecs⟩ := exists_of_bind_eq_ok h
    cases hspecs
    exact .cons (gives_of_rule origin hspec) (ih hothers)

lemma gives_of_rules {entries : List (Document × Document)} {specs : List RuleSpec}
    (h : rules origin entries = .ok specs) :
    List.Forall₂ Gives (ruleItems (under "rules" entries)) specs := by
  rw [rules, ← under] at h
  cases hd : under "rules" entries with
  | null => rw [hd] at h; cases h; exact .nil
  | list items =>
    rw [hd] at h
    exact gives_of_rulesFrom origin h
  | _ => rw [hd] at h; cases h

/-! ## Ids -/

/-- The ids of the written rules are those that the documents give. -/
lemma ids_of_gives {items : List Document} {specs : List RuleSpec}
    (h : List.Forall₂ Gives items specs) :
    items.map ruleId = specs.map fun spec => .text spec.id := by
  induction h with
  | nil => rfl
  | cons h _ ih =>
    obtain ⟨entries, rfl, hentries⟩ := h
    rw [List.map_cons, List.map_cons, ih, ruleId, hentries.id]

/-- Ids are compared with those seen so far, and the first that was seen is reported. -/
lemma distinct_answers (specs : List RuleSpec) (seen : List String) :
    Answers origin ((specs.map (·.id)).Nodup ∧ ∀ spec ∈ specs, spec.id ∉ seen) False False
      (distinct origin seen specs) := by
  induction specs generalizing seen with
  | nil => exact (answers_pure ()).congr (by simp) Iff.rfl Iff.rfl
  | cons spec specs ih =>
    rw [distinct]
    by_cases hseen : seen.contains spec.id
    · rw [if_pos hseen]
      have hmem : spec.id ∈ seen := by simpa using hseen
      exact .reported _ rfl (by simp [hmem]) id id
    · rw [if_neg hseen]
      have hmem : spec.id ∉ seen := by simpa using hseen
      refine (ih (spec.id :: seen)).congr ?_ Iff.rfl Iff.rfl
      -- The new id joins those that were seen, so the ids to come must differ from it as well.
      have hsplit : (∀ other ∈ specs, other.id ∉ spec.id :: seen) ↔
          spec.id ∉ specs.map (·.id) ∧ ∀ other ∈ specs, other.id ∉ seen := by
        simp only [List.mem_cons, not_or, List.mem_map, not_exists, not_and]
        exact forall₂_and
      rw [hsplit, List.map_cons, List.nodup_cons, List.forall_mem_cons]
      tauto

/-- Whether the written rules have different ids can be told from the document. -/
lemma distinct_answers_of_rules {entries : List (Document × Document)} {specs : List RuleSpec}
    (h : rules origin entries = .ok specs) :
    Answers origin ((ruleItems (under "rules" entries)).map ruleId).Nodup False False
      (distinct origin [] specs) := by
  have hids : (ruleItems (under "rules" entries)).map ruleId = (specs.map (·.id)).map .text := by
    simp [ids_of_gives (gives_of_rules origin h)]
  have hinjective : Function.Injective Document.text := fun _ _ h => Document.text.inj h
  refine (distinct_answers origin specs []).congr ?_ Iff.rfl Iff.rfl
  rw [hids, List.nodup_map_iff hinjective]
  simp

end

/-! ## Configurations -/

/-- The document imports nothing. -/
def ImportsNothing (d : Document) : Prop :=
  ∀ entries, d = .map entries → under "import" entries = .null

/-- The document imports nothing, or what counts as nothing, such as an empty text. -/
def ImportsBlank (d : Document) : Prop :=
  ∀ entries, d = .map entries → (under "import" entries).isBlank = true

/-- A configuration is read from front to back: keys, rules, imports, excluded paths, ids. -/
theorem snd_ofDocument (fs : Files.FileSystem) (path? root? : Option Files.Path)
    (entries : List (Document × Document)) :
    (Config.ofDocument fs path? root? (.map entries)).2 =
      onlyKeys path? topKeys "unknown top-level keys " entries >>= fun _ =>
      rules path? entries >>= fun own =>
      (Config.imported fs ((path?.map (·.parent)).getD .here) path? entries).2 >>= fun others =>
      (Config.excluded path? entries (own ++ others)).map fun exclude =>
        { path?
          rules := Config.compiled (own ++ others)
          ruleErrors := Config.disabled (own ++ others)
          exclude
          root := root?.getD ((path?.map (·.parent)).getD .here) } := by
  have htop : top path? (.map entries) =
      (onlyKeys path? topKeys "unknown top-level keys " entries >>= fun _ => .ok entries) := rfl
  rw [Config.ofDocument, htop]
  -- Each reader that fails ends both sides in the same way; the log plays no part.
  cases onlyKeys path? topKeys "unknown top-level keys " entries with
  | error e => rfl
  | ok _ =>
    simp only [bind, Except.bind]
    cases rules path? entries with
    | error e => rfl
    | ok own =>
      dsimp only
      generalize Config.imported fs ((path?.map (·.parent)).getD .here) path? entries = found
      obtain ⟨log, e | others⟩ := found
      · rfl
      · dsimp only
        cases Config.excluded path? entries (own ++ others) <;> rfl

/-- Without imports, a configuration is read from its own document alone. -/
lemma ofDocument_map {fs : Files.FileSystem} {path? root? : Option Files.Path}
    {entries : List (Document × Document)} (h : (under "import" entries).isBlank = true) :
    (Config.ofDocument fs path? root? (.map entries)).2 =
      onlyKeys path? topKeys "unknown top-level keys " entries >>= fun _ =>
      rules path? entries >>= fun own =>
      textsAt path? "exclude" "exclude" entries >>= fun exclude =>
      (distinct path? [] own).map fun _ =>
        { path?
          rules := Config.compiled own
          ruleErrors := Config.disabled own
          exclude
          root := root?.getD ((path?.map (·.parent)).getD .here) } := by
  have himports : imports path? entries = .ok [] := if_pos h
  have himported : ∀ base, Config.imported fs base path? entries = ([], .ok []) := by
    intro base
    rw [Config.imported, himports]
    rfl
  rw [snd_ofDocument, himported]
  -- The readers in front are the same on both sides.
  refine congrArg _ (funext fun _ => congrArg _ (funext fun own => ?_))
  simp only [bind, Except.bind, Config.excluded, List.append_nil]
  cases textsAt path? "exclude" "exclude" entries with
  | error e => rfl
  | ok exclude => cases distinct path? [] own <;> rfl

/-- A configuration that imports nothing is accepted if it conforms; else it is reported, unless the
report cannot be written. The readers are those of the keys, the rules, the excluded paths and the
ids, one after another. -/
theorem ofDocument_answers_of_blank (fs : Files.FileSystem) (path? root? : Option Files.Path)
    {d : Document} (h : ImportsBlank d) :
    Answers path? (Conforms d) (Unlisted d) (UnshownValue d)
      (Config.ofDocument fs path? root? d).2 := by
  cases d with
  | null => exact .accepted _ (.inl rfl) (by simp [Unlisted]) (by simp [UnshownValue])
  | map entries =>
    rw [ofDocument_map (h entries rfl)]
    refine ((onlyKeys_answers path? topKeys _ entries).andThen fun _ _ =>
      (rules_answers path? entries).andThen fun own hown =>
      (textsAt_answers path? _ "exclude" entries).andThen fun exclude _ =>
      (distinct_answers_of_rules path? hown).map).congr ?_ ?_ ?_
    · simp [Conforms]
    · simp [Unlisted]
    · simp [UnshownValue]
  | _ =>
    exact (answers_misshapen _).congr (by simp [Conforms]) (by simp [Unlisted])
      (by simp [UnshownValue])

lemma ofDocument_answers (fs : Files.FileSystem) (path? root? : Option Files.Path) {d : Document}
    (h : ImportsNothing d) :
    Answers path? (Conforms d) (Unlisted d) (UnshownValue d)
      (Config.ofDocument fs path? root? d).2 :=
  ofDocument_answers_of_blank fs path? root? fun entries hd => by
    rw [h entries hd]
    rfl

end Schema

namespace Cli

open Files (FileSystem Path)
open Schema (Conforms ImportsNothing IsReport Unlisted UnshownValue)

/-- A run that reports the shape of a configuration, after what the log was told, and ends with the
status for it. -/
def ReportsShape (report : Report) (config : String) (r : Run) : Prop :=
  ∃ (f : Fault) (log : List LogEntry), IsReport (some (Path.ofString config)) f ∧
    r.status = .config .misshapen ∧
    r.effects = log.map .entry ++ (effectsOf (report.configError config (.fault f)).2 ++
      effectsOf (report.configError config (.fault f)).1.finish)

/-- A run that breaks off, after what the log was told. -/
def BreaksOff (r : Run) : Prop :=
  ∃ (files : FileSystem) (message : String) (log : List LogEntry),
    r = (Run.broken files message).before (log.map .entry)

section

variable {fs : FileSystem} {config : String} {d : Document} (report : Report)
  (root? : Option String) (next : Config → Run)

lemma status_of_breaksOff {r : Run} (h : BreaksOff r) : r.status = .broken := by
  obtain ⟨files, message, log, rfl⟩ := h
  rfl

/-- A document that does not conform is reported, or the run breaks off, whatever is to be done with
the configuration. -/
lemma withConfig_of_not_conforms (hd : Config.readDocument fs (Path.ofString config) = .ok d)
    (himport : ImportsNothing d) (hnot : ¬ Conforms d) :
    (Unlisted d ∨ UnshownValue d) ∧ BreaksOff (withConfig fs report config root? next) ∨
      ¬ (Unlisted d ∨ UnshownValue d) ∧
        ReportsShape report config (withConfig fs report config root? next) := by
  obtain ⟨log, hload⟩ : ∃ log,
      Config.load fs (Path.ofString config) ((root?.filter (· != "")).map Path.ofString) =
        (log, (Config.ofDocument fs (some (Path.ofString config))
          ((root?.filter (· != "")).map Path.ofString) d).2) := by
    rw [Config.load, hd]
    exact ⟨_, rfl⟩
  rw [withConfig, hload]
  generalize hr : (Config.ofDocument fs (some (Path.ofString config)) _ d).2 = r
  have hanswers := hr ▸ Schema.ofDocument_answers fs _ _ himport
  cases hanswers with
  | accepted c hC => exact absurd hC hnot
  | reported f hf _ hL hS =>
    have hfailure : configFailure f = .misshapen := by rw [configFailure, show f.kind = _ from hf]
    exact .inr ⟨not_or.2 ⟨hL, hS⟩, f, log, hf, congrArg Status.config hfailure, rfl⟩
  | unlisted hL => exact .inl ⟨.inl hL, fs, _, log, rfl⟩
  | unshown hS => exact .inl ⟨.inr hS, fs, _, log, rfl⟩

/-- The report is written exactly if it can be: a run that breaks off has another status. -/
lemma reportsShape_iff (hd : Config.readDocument fs (Path.ofString config) = .ok d)
    (himport : ImportsNothing d) (hnot : ¬ Conforms d) :
    ReportsShape report config (withConfig fs report config root? next) ↔
      ¬ (Unlisted d ∨ UnshownValue d) := by
  rcases withConfig_of_not_conforms report root? next hd himport hnot with
    ⟨hflawed, hbreaks⟩ | ⟨hfine, hreports⟩
  · refine iff_of_false ?_ (not_not.2 hflawed)
    rintro ⟨_, _, -, hstatus, -⟩
    rw [status_of_breaksOff hbreaks] at hstatus
    cases hstatus
  · exact iff_of_true hreports hfine

lemma status_iff (hd : Config.readDocument fs (Path.ofString config) = .ok d)
    (himport : ImportsNothing d) (hnot : ¬ Conforms d) :
    (withConfig fs report config root? next).status = .config .misshapen ↔
      ¬ (Unlisted d ∨ UnshownValue d) := by
  rcases withConfig_of_not_conforms report root? next hd himport hnot with
    ⟨hflawed, hbreaks⟩ | ⟨hfine, hreports⟩
  · simp [status_of_breaksOff hbreaks, hflawed]
  · obtain ⟨_, _, -, hstatus, -⟩ := hreports
    exact iff_of_true hstatus hfine

end

/-- A configuration that imports nothing is accepted if it conforms. If it does not, it is reported
and ends both a test and a check with the status for its shape, exactly if the report can be
written. -/
theorem misshapen_reported_iff (fs : FileSystem) (path? root? : Option Path) (d : Document)
    (himport : ImportsNothing d) :
    ((∃ c, (Config.ofDocument fs path? root? d).2 = .ok c) ↔ Conforms d) ∧
    ((∃ f, (Config.ofDocument fs path? root? d).2 = .error (.fault f) ∧ IsReport path? f) ↔
      ¬ Conforms d ∧ ¬ Unlisted d ∧ ¬ UnshownValue d) ∧
    ((Config.ofDocument fs path? root? d).2 = .error .unlistedKeys ↔ Unlisted d) ∧
    ((Config.ofDocument fs path? root? d).2 = .error .unshownValue ↔ UnshownValue d) ∧
    (∀ config, Config.readDocument fs (Path.ofString config) = .ok d → ¬ Conforms d →
      (ReportsShape { format := .text } config (test fs config) ↔
        ¬ (Unlisted d ∨ UnshownValue d))) ∧
    ∀ o opened target?, openOutput fs o.output.target? = .ok (opened, target?) →
      Config.readDocument opened (Path.ofString o.config) = .ok d → ¬ Conforms d →
      ((check fs o).status = .config .misshapen ↔ ¬ (Unlisted d ∨ UnshownValue d)) := by
  have hanswers := Schema.ofDocument_answers fs path? root? himport
  refine ⟨hanswers.ok_iff, hanswers.report_iff, hanswers.unlisted_iff, hanswers.unshown_iff, ?_, ?_⟩
  · intro config hread hnot
    exact reportsShape_iff _ _ _ hread himport hnot
  · intro o opened target? hopen hread hnot
    rw [status_check hopen]
    exact status_iff _ _ _ hread himport hnot

/-- A rule that conforms, followed by one with a key that is a number. -/
def strangeRules : Document :=
  .map [(.text "rules", .list [
    .map [(.text "id", .text "a"), (.text "message", .text "m"),
      (.text "pattern", .list [.text "f()"])],
    .map [(.text "id", .text "b"), (.int 1, .null)]])]

theorem misshapen_reported_iff_strangeRules :
    ImportsNothing strangeRules ∧ Unlisted strangeRules ∧
      (Config.ofDocument { tree := .directory [], here := .here } none none strangeRules).2 =
        .error .unlistedKeys := by
  have himport : ImportsNothing strangeRules := by
    rintro entries ⟨⟩
    rfl
  have hunlisted : Unlisted strangeRules := by
    refine ⟨_, rfl,
      .inr ⟨by simp [Document.KeysAmong, Schema.topKeys], _, rfl, [_], _, [], rfl, ?_, ?_⟩⟩
    · simp [Schema.RuleConforms, Document.KeysAmong, Schema.ruleKeys, Schema.HasRequired,
        Document.lookup?, Schema.AllConform, Schema.slots, Document.under, Schema.Slot.Conforms,
        Document.IsText, Document.IsTexts, Document.IsFilled]
      tauto
    · exact ⟨_, rfl, (.int 1, .null), by simp, by simp [Document.IsText]⟩
  exact ⟨himport, hunlisted, (misshapen_reported_iff _ none none _ himport).2.2.1.2 hunlisted⟩

/-- A configuration with an integer of too many digits among its excluded paths. -/
def longExclude : Document :=
  .map [(.text "exclude", .list [.int (Double.tenPow Literal.maxDecimalDigits)])]

/-- A configuration with a number for a key, and one with an integer of too many digits among its
excluded paths, are neither accepted nor reported. -/
theorem misshapen_unreported :
    (Config.ofDocument { tree := .directory [], here := .here } none none
      (.map [(.int 1, .text "x")])).2 = .error .unlistedKeys ∧
      (Config.ofDocument { tree := .directory [], here := .here } none none longExclude).2 =
        .error .unshownValue := by
  constructor
  · rfl
  · have himport : ImportsNothing longExclude := by
      rintro entries ⟨⟩
      rfl
    refine (Schema.ofDocument_answers _ none none himport).unshown_iff.2 ?_
    have hkeys : Document.KeysAmong Schema.topKeys
        [(.text "exclude", .list [.int (Double.tenPow Literal.maxDecimalDigits)])] :=
      fun entry hentry => ⟨"exclude", by decide, congrArg Prod.fst (List.mem_singleton.1 hentry)⟩
    refine ⟨_, rfl, hkeys, .inr ⟨.inl rfl, _, rfl, [], _, [], rfl, by simp, ?_⟩⟩
    exact Document.isWritable_eq_false (Nat.le_refl _)

end Cli

end ShapeLint
