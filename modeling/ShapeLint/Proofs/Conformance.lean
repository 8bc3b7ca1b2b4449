import ShapeLint.Proofs.Shape

/-!
# Which configurations are accepted

A configuration is accepted exactly if it has the shape of one and no two of its rules have one id.
What is wrong is told by the code of the report: all readers of the shape report in one and the same
way (`Misshapes`), and the ids are compared only after all of them have accepted. So the code for a
doubled id says that nothing else is wrong.
-/

namespace ShapeLint

namespace Document

/-- All keys of all mappings in the document are texts, however deep. Documents that hold no others
have no keys. -/
inductive TextKeyed : Document → Prop where
  | scalar {d : Document} : d.typeName ∉ ["list", "dict"] → TextKeyed d
  | list {items : List Document} : (∀ item ∈ items, TextKeyed item) → TextKeyed (.list items)
  | map {entries : List (Document × Document)} :
      (∀ entry ∈ entries, entry.1.IsText) → (∀ entry ∈ entries, TextKeyed entry.2) →
      TextKeyed (.map entries)

/-- What stands under a key, or nothing, has text keys too. -/
lemma TextKeyed.under {entries : List (Document × Document)} (h : TextKeyed (.map entries))
    (key : String) :
    TextKeyed (under key entries) := by
  cases h with
  | scalar h => exact absurd (by simp [typeName]) h
  | map _ h =>
    rw [Document.under]
    cases hlookup : lookup? key entries with
    | none => exact .scalar (by decide)
    | some d =>
      rw [lookup?, Option.map_eq_some_iff] at hlookup
      obtain ⟨entry, hfind, rfl⟩ := hlookup
      exact h entry (List.mem_of_find?_eq_some hfind)

lemma TextKeyed.not_strange {entries : List (Document × Document)} (h : TextKeyed (.map entries)) :
    ¬ HasStrangeKey entries := by
  cases h with
  | scalar h => exact absurd (by simp [typeName]) h
  | map h _ =>
    rintro ⟨entry, hentry, hstrange⟩
    exact hstrange (h entry hentry)

lemma TextKeyed.items {items : List Document} (h : TextKeyed (.list items)) :
    ∀ item ∈ items, TextKeyed item := by
  cases h with
  | scalar h => exact absurd (by simp [typeName]) h
  | list h => exact h

end Document

namespace Schema

open Document (TextKeyed under)

/-- The document has the shape of a configuration without imports, whatever the ids of its rules
are. -/
def Shaped (d : Document) : Prop :=
  d = .null ∨ ∃ entries, d = .map entries ∧ Document.KeysAmong topKeys entries ∧
    RulesConform (under "rules" entries) ∧ (under "exclude" entries).IsTexts

/-- The ids of what should be the rules of a configuration. -/
def ruleIds : Document → List Document
  | .map entries => (ruleItems (under "rules" entries)).map ruleId
  | _ => []

/-- To conform is to have the shape and no two rules with one id. -/
lemma conforms_iff {d : Document} : Conforms d ↔ Shaped d ∧ (ruleIds d).Nodup := by
  cases d with
  | map entries => simp [Conforms, Shaped, ruleIds, and_assoc]
  | _ => simp [Conforms, Shaped, ruleIds]

/-- Where all keys are texts, unknown ones can be listed. -/
lemma not_unlisted_of_textKeyed {d : Document} (h : TextKeyed d) : ¬ Unlisted d := by
  rintro ⟨entries, rfl,
    hstrange | ⟨-, items, hitems, before, item, after, hsplit, -, entries', rfl, hstrange⟩⟩
  · exact h.not_strange hstrange
  · have hrules := h.under "rules"
    rw [hitems] at hrules
    exact (hrules.items _ (by simp [hsplit])).not_strange hstrange

/-! ## Reports of the shape -/

section

variable {origin : Origin} {α β : Type}

/-- All that is reported is that the shape is wrong. A reader may accept or fail without a report as
well. -/
def Misshapes (origin : Origin) (r : Except ConfigProblem α) : Prop :=
  ∀ f, r = .error (.fault f) → ∃ message, misshapen origin message = .fault f

/-- A report of the shape has the code for it. -/
lemma Misshapes.code {r : Except ConfigProblem α} {e : ConfigProblem} (h : Misshapes origin r)
    (he : r = .error e) :
    ∀ f, e = .fault f → f.diagnostic.code = .configSchema := by
  rintro f rfl
  obtain ⟨message, hmessage⟩ := h f he
  cases hmessage
  rfl

lemma misshapes_ok (a : α) : Misshapes origin (.ok a) := by
  rintro f ⟨⟩

lemma misshapes_misshapen (message : String) :
    Misshapes origin (.error (misshapen origin message) : Except _ α) :=
  fun _ h => ⟨message, Except.error.inj h⟩

/-- A failure that is passed on is reported as it was. -/
lemma Misshapes.error {r : Except ConfigProblem α} {e : ConfigProblem} (h : Misshapes origin r)
    (he : r = .error e) :
    Misshapes origin (.error e : Except _ β) :=
  fun f hf => h f (he.trans (congrArg _ (Except.error.inj hf)))

/-- Readers one after another report the shape if each of them does. -/
lemma Misshapes.bind {r : Except ConfigProblem α} {next : α → Except ConfigProblem β}
    (h : Misshapes origin r) (hnext : ∀ a, Misshapes origin (next a)) :
    Misshapes origin (r >>= next) := by
  cases r with
  | error e => exact h.error rfl
  | ok a => exact hnext a

lemma Misshapes.map {r : Except ConfigProblem α} (h : Misshapes origin r) (f : α → β) :
    Misshapes origin (r.map f) :=
  h.bind fun a => misshapes_ok (f a)

variable (origin)

lemma mapping_misshapes (what : String) (d : Document) :
    Misshapes origin (mapping origin what d) := by
  cases d with
  | map entries => exact misshapes_ok entries
  | _ => exact misshapes_misshapen _

lemma list_misshapes (what : String) (d : Document) : Misshapes origin (list origin what d) := by
  cases d with
  | list items => exact misshapes_ok items
  | _ => exact misshapes_misshapen _

lemma text_misshapes (what : String) (d : Document) : Misshapes origin (text origin what d) := by
  fun_cases text origin what d with
  | case1 s => exact misshapes_ok s
  | case2 => exact misshapes_misshapen _
  | case3 => rintro f ⟨⟩

lemma textsFrom_misshapes (what : String) (i : Nat) (items : List Document) :
    Misshapes origin (textsFrom origin what i items) := by
  fun_induction textsFrom origin what i items with
  | case1 => exact misshapes_ok _
  | case2 i d ds e he => exact (text_misshapes origin _ d).error he
  | case3 i d ds s hs ih => exact ih.map _

lemma texts_misshapes (what : String) (d : Document) : Misshapes origin (texts origin what d) := by
  fun_cases texts origin what d with
  | case1 => exact misshapes_ok _
  | case2 s => exact misshapes_ok _
  | case3 d _ _ e he => exact (list_misshapes origin what d).error he
  | case4 d _ _ items hitems => exact textsFrom_misshapes origin what 0 items

lemma onlyKeys_misshapes (known : List String) (lead : String)
    (entries : List (Document × Document)) :
    Misshapes origin (onlyKeys origin known lead entries) := by
  fun_cases onlyKeys origin known lead entries with
  | case1 => exact misshapes_ok _
  | case2 => rintro f ⟨⟩
  | case3 => exact misshapes_misshapen _

lemma required_misshapes (what key : String) (entries : List (Document × Document)) :
    Misshapes origin (required origin what key entries) := by
  fun_cases required origin what key entries with
  | case1 d => exact misshapes_ok _
  | case2 => exact misshapes_misshapen _

/-- A rule is read by readers that all report the shape. -/
lemma rule_misshapes (index : Nat) (d : Document) : Misshapes origin (rule origin index d) := by
  refine (mapping_misshapes origin _ d).bind fun entries =>
    (onlyKeys_misshapes origin _ _ entries).bind fun _ =>
    (required_misshapes origin _ _ entries).bind fun id =>
    (required_misshapes origin _ _ entries).bind fun message =>
    (required_misshapes origin _ _ entries).bind fun pattern =>
    (text_misshapes origin _ id).bind fun name =>
    (texts_misshapes origin _ pattern).bind fun patterns => ?_
  split
  · exact misshapes_misshapen _
  · exact (text_misshapes origin _ message).bind fun _ =>
      (texts_misshapes origin _ _).bind fun _ =>
      (texts_misshapes origin _ _).bind fun _ =>
      (texts_misshapes origin _ _).bind fun _ =>
      (texts_misshapes origin _ _).bind fun _ => misshapes_ok _

lemma rulesFrom_misshapes (i : Nat) (items : List Document) :
    Misshapes origin (rulesFrom origin i items) := by
  fun_induction rulesFrom origin i items with
  | case1 => exact misshapes_ok _
  | case2 i d ds e he => exact (rule_misshapes origin i d).error he
  | case3 i d ds spec _ ih => exact ih.map _

lemma rules_misshapes (entries : List (Document × Document)) :
    Misshapes origin (rules origin entries) := by
  fun_cases rules origin entries with
  | case1 => exact misshapes_ok _
  | case2 _ e he => exact (list_misshapes origin _ _).error he
  | case3 items _ _ => exact rulesFrom_misshapes origin 0 items

/-- Two rules with one id are reported with a code of their own. -/
lemma code_of_distinct {specs : List RuleSpec} {seen : List String} {e : ConfigProblem}
    (h : distinct origin seen specs = .error e) :
    ∃ f, e = .fault f ∧ f.diagnostic.code = .duplicateRuleId := by
  fun_induction distinct origin seen specs with
  | case1 => cases h
  | case2 =>
    cases h
    exact ⟨_, rfl, rfl⟩
  | case3 seen spec specs _ ih => exact ih h

end

/-! ## Configurations -/

/-- What goes wrong with a configuration that has the right shape is that an id is doubled, and the
code of the report says so; what goes wrong with any other has the code for the shape. The readers
are gone through in order, and each of them, if it is the first to fail, tells which of the two it
is. -/
lemma code_of_ofDocument {fs : Files.FileSystem} {path? root? : Option Files.Path} {d : Document}
    {e : ConfigProblem} (himport : ImportsBlank d)
    (h : (Config.ofDocument fs path? root? d).2 = .error e) :
    Shaped d ∧ (∃ f, e = .fault f ∧ f.diagnostic.code = .duplicateRuleId) ∨
      ¬ Shaped d ∧ ∀ f, e = .fault f → f.diagnostic.code = .configSchema := by
  cases d with
  | null => cases h
  | map entries =>
    have hkeys := (onlyKeys_answers path? topKeys "unknown top-level keys " entries).ok_iff
    have hrules := (rules_answers path? entries).ok_iff
    have hexclude := (textsAt_answers path? "exclude" "exclude" entries).ok_iff
    have hshaped :
        Shaped (.map entries) ↔
          Document.KeysAmong topKeys entries ∧ RulesConform (under "rules" entries) ∧
            (under "exclude" entries).IsTexts := by
      simp [Shaped]
    rw [hshaped, ← hkeys, ← hrules, ← hexclude]
    rw [ofDocument_map (himport entries rfl)] at h
    -- The readers one after another; the first that fails tells which of the two it is.
    rcases error_of_bind_eq_error h with hbad | ⟨_, hkeys, h⟩
    · exact .inr ⟨by simp [hbad], (onlyKeys_misshapes path? topKeys _ entries).code hbad⟩
    rcases error_of_bind_eq_error h with hbad | ⟨own, hown, h⟩
    · exact .inr ⟨by simp [hbad], (rules_misshapes path? entries).code hbad⟩
    rcases error_of_bind_eq_error h with hbad | ⟨exclude, hexclude, h⟩
    · have hcode := (texts_misshapes path? "exclude" (under "exclude" entries)).code hbad
      exact .inr ⟨by simp [hbad], hcode⟩
    rcases error_of_bind_eq_error h with hbad | ⟨_, _, h⟩
    · exact .inl ⟨⟨⟨_, hkeys⟩, ⟨own, hown⟩, exclude, hexclude⟩, code_of_distinct path? hbad⟩
    · cases h
  | _ =>
    cases h
    exact .inr ⟨by simp [Shaped], (misshapes_misshapen (α := Config) _).code rfl⟩

/-- A configuration whose keys are all texts and which imports nothing is accepted exactly if it has
the shape of one and its rules have different ids. Otherwise it is reported, with a code of its own
if only the ids are wrong, unless the value that is wrong cannot be shown. -/
theorem accepted_iff_shaped (fs : Files.FileSystem) (path? root? : Option Files.Path) (d : Document)
    (hkeys : TextKeyed d) (himport : ImportsBlank d) :
    ((∃ c, (Config.ofDocument fs path? root? d).2 = .ok c) ↔ Shaped d ∧ (ruleIds d).Nodup) ∧
    ((∃ f, (Config.ofDocument fs path? root? d).2 = .error (.fault f) ∧ IsReport path? f ∧
      f.diagnostic.code = .duplicateRuleId) ↔ Shaped d ∧ ¬ (ruleIds d).Nodup) ∧
    ((∃ f, (Config.ofDocument fs path? root? d).2 = .error (.fault f) ∧ IsReport path? f ∧
      f.diagnostic.code = .configSchema) ↔ ¬ Shaped d ∧ ¬ UnshownValue d) ∧
    ((Config.ofDocument fs path? root? d).2 = .error .unshownValue ↔ UnshownValue d) := by
  have hanswers := ofDocument_answers_of_blank fs path? root? himport
  have hcode (e : ConfigProblem) (he : (Config.ofDocument fs path? root? d).2 = .error e) :=
    code_of_ofDocument himport he
  generalize (Config.ofDocument fs path? root? d).2 = r at hanswers hcode ⊢
  -- What the reader comes to decides all four statements at once.
  cases hanswers with
  | accepted c hC _ hS =>
    obtain ⟨hshaped, hids⟩ := conforms_iff.1 hC
    simp [hshaped, hids, hS]
  | reported f hf hC _ hS =>
    rcases hcode _ rfl with ⟨hshaped, _, ⟨⟩, hdouble⟩ | ⟨hshaped, hshape⟩
    · have hids : ¬ (ruleIds d).Nodup := fun hids => hC (conforms_iff.2 ⟨hshaped, hids⟩)
      simp [hshaped, hids, hS, hf, hdouble]
    · simp [hshaped, hS, hf, hshape f rfl]
  | unlisted hL _ _ => exact absurd hL (not_unlisted_of_textKeyed hkeys)
  | unshown hS _ _ =>
    rcases hcode _ rfl with ⟨_, _, ⟨⟩, _⟩ | ⟨hshaped, _⟩
    simp [hshaped, hS]

/-- A rule with an id, a message and a pattern. -/
def plainRule (id : Document) : Document :=
  .map [(.text "id", id), (.text "message", .text "m"), (.text "pattern", .text "f()")]

/-- A configuration with rules of these ids, and an import that counts as nothing. -/
def plainRules (ids : List Document) : Document :=
  .map [(.text "import", .text ""), (.text "rules", .list (ids.map plainRule))]

lemma textKeyed_plainRules {ids : List Document} (h : ∀ id ∈ ids, TextKeyed id) :
    TextKeyed (plainRules ids) := by
  have htext (s : String) : TextKeyed (.text s) := .scalar (by simp [Document.typeName])
  have hrule : ∀ id ∈ ids, TextKeyed (plainRule id) := fun id hid =>
    .map (by simp [Document.IsText]) (by simp [h id hid, htext])
  have hrules : TextKeyed (.list (ids.map plainRule)) := .list (by simpa using hrule)
  exact .map (by simp [Document.IsText]) (by simp [hrules, htext])

lemma importsBlank_plainRules (ids : List Document) : ImportsBlank (plainRules ids) := by
  rintro entries ⟨⟩
  rfl

lemma keysAmong_plainRules (ids : List Document) :
    Document.KeysAmong topKeys
      [(.text "import", .text ""), (.text "rules", .list (ids.map plainRule))] := by
  simp [Document.KeysAmong, topKeys]

lemma keysAmong_plainRule (id : Document) :
    Document.KeysAmong ruleKeys
      [(.text "id", id), (.text "message", .text "m"), (.text "pattern", .text "f()")] := by
  simp [Document.KeysAmong, ruleKeys]

lemma hasRequired_plainRule (id : Document) :
    HasRequired
      [(.text "id", id), (.text "message", .text "m"), (.text "pattern", .text "f()")] := by
  simp [HasRequired, Document.lookup?]

/-- Two rules with one id. -/
theorem accepted_iff_shaped_twins :
    TextKeyed (plainRules [.text "a", .text "a"]) ∧
      ImportsBlank (plainRules [.text "a", .text "a"]) ∧
      ∃ f, (Config.ofDocument { tree := .directory [], here := .here } none none
        (plainRules [.text "a", .text "a"])).2 = .error (.fault f) ∧
        IsReport none f ∧ f.diagnostic.code = .duplicateRuleId := by
  have hkeys : TextKeyed (plainRules [.text "a", .text "a"]) := by
    refine textKeyed_plainRules fun id hid => .scalar ?_
    obtain rfl : id = .text "a" := by simpa using hid
    decide
  have hrule : RuleConforms (plainRule (.text "a")) := by
    refine ⟨_, rfl, keysAmong_plainRule _, hasRequired_plainRule _, ?_⟩
    simp [AllConform, slots, under, Document.lookup?, Slot.Conforms, Document.IsText,
      Document.IsTexts, Document.IsFilled]
  have hshaped : Shaped (plainRules [.text "a", .text "a"]) := by
    refine .inr ⟨_, rfl, keysAmong_plainRules _, .inr ⟨_, rfl, by simpa using hrule⟩, .inl rfl⟩
  -- Both rules have the id that is found under their key.
  have hids : ¬ (ruleIds (plainRules [.text "a", .text "a"])).Nodup := by
    change ¬ [Document.text "a", .text "a"].Nodup
    simp
  have himport := importsBlank_plainRules [.text "a", .text "a"]
  exact ⟨hkeys, himport, (accepted_iff_shaped _ none none _ hkeys himport).2.1.2 ⟨hshaped, hids⟩⟩

/-- An integer of too many digits. -/
def longId : Document :=
  .int (Double.tenPow Literal.maxDecimalDigits)

/-- An id that is such an integer is neither accepted nor reported. -/
theorem longId_unreported :
    TextKeyed (plainRules [longId]) ∧ ImportsBlank (plainRules [longId]) ∧
      ¬ Shaped (plainRules [longId]) ∧
      (Config.ofDocument { tree := .directory [], here := .here } none none
        (plainRules [longId])).2 = .error .unshownValue := by
  have himport := importsBlank_plainRules [longId]
  have hunshown : UnshownValue (plainRules [longId]) := by
    -- The first value of the first rule is the one that cannot be shown.
    refine ⟨_, rfl, keysAmong_plainRules _,
      .inl ⟨_, rfl, [], plainRule longId, [], rfl, by simp, ?_⟩⟩
    refine ⟨_, rfl, keysAmong_plainRule _, hasRequired_plainRule _, firstUnshown_cons.2 (.inl ?_)⟩
    exact Document.isWritable_eq_false (Nat.le_refl _)
  have hresult := (ofDocument_answers_of_blank { tree := .directory [], here := .here } none none
    himport).unshown_iff.2 hunshown
  refine ⟨textKeyed_plainRules fun id hid => .scalar ?_, himport, ?_, hresult⟩
  · have hname : longId.typeName = "int" := rfl
    rw [List.mem_singleton.1 hid, hname]
    decide
  · rcases code_of_ofDocument himport hresult with ⟨_, _, ⟨⟩, _⟩ | ⟨hshaped, _⟩
    exact hshaped

end Schema

end ShapeLint
