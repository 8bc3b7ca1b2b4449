import ShapeLint.Proofs.Pointing
import ShapeLint.Proofs.Sources

/-!
# Which rules are disabled

A text that does not compile disables the rule that it belongs to, and no other. The written rules
of a configuration fall into two parts, each in its old order: those of which all texts compile
become rules (`IsRuleOf`), and each of the others is reported once (`IsErrorOf`), by the fault of
its first text that does not compile, in which the rule is named.

One written rule is looked at first: its patterns are compiled before its justifications, so the
first text that fails among all of them decides (`firstFlawed_append`). That each part keeps its
order is then an induction on the written rules. A rule is never left out for want of patterns,
since a configuration gives no such rule.
-/

namespace ShapeLint

/-- The text compiles. -/
def Pattern.compiles (text : String) : Bool :=
  (Pattern.compile text).isOk

namespace RuleSpec

/-- The texts of a written rule, in the order in which they are compiled. -/
def texts (spec : RuleSpec) : List String :=
  spec.patterns ++ spec.justifications

/-- All texts of a written rule compile. -/
def compiles (spec : RuleSpec) : Bool :=
  spec.texts.all Pattern.compiles

end RuleSpec

/-- The text compiles to the kind. -/
def Pattern.Denotes (text : String) (kind : Kind) : Prop :=
  Pattern.compile text = .ok kind

/-- The rule has what is written, and the kinds of its texts one by one. -/
structure IsRuleOf (spec : RuleSpec) (rule : Rule) : Prop where
  id : rule.id = spec.id
  message : rule.message = spec.message
  patternTexts : rule.patternTexts = spec.patterns
  justificationTexts : rule.justificationTexts = spec.justifications
  patterns : List.Forall₂ Pattern.Denotes spec.patterns rule.patterns
  justifications : List.Forall₂ Pattern.Denotes spec.justifications rule.justifications
  tags : rule.tags = spec.tags
  before : rule.before = spec.before
  after : rule.after = spec.after

/-- The fault is the one that compiling the text raises, except that the rule is set in it and named
in one more note. Message, code and place stay as they are. -/
def RaisedBy (id text : String) (fault : Fault) : Prop :=
  ∃ raised token, Pattern.compile text = .error raised ∧ raised.kind = .pattern text token none ∧
    fault.kind = .pattern text token (some id) ∧
    fault.diagnostic =
      { raised.diagnostic with notes := raised.diagnostic.notes ++ ["in rule " ++ Text.quoted id] }

/-- The fault is raised by the first of the texts that does not compile. The others need not compile
either. -/
def RaisedByFirst (id : String) (texts : List String) (fault : Fault) : Prop :=
  Schema.FirstFlawed (fun text => Pattern.compiles text = true)
    (fun text => RaisedBy id text fault) texts

/-- The error has the id of the written rule, and the fault that its first text that does not
compile raises. -/
def IsErrorOf (spec : RuleSpec) (error : String × Fault) : Prop :=
  error.1 = spec.id ∧ RaisedByFirst spec.id spec.texts error.2

/-! ## The texts of a rule -/

/-- The first flawed item of two lists is that of the first, or that of the second if all of the
first conform. -/
lemma Schema.firstFlawed_append {α : Type} {conforms flawed : α → Prop} {xs : List α} (ys : List α)
    (h : FirstFlawed conforms flawed xs ∨ (∀ x ∈ xs, conforms x) ∧ FirstFlawed conforms flawed ys) :
    FirstFlawed conforms flawed (xs ++ ys) := by
  induction xs with
  | nil =>
    rcases h with h | ⟨-, h⟩
    · exact absurd h firstFlawed_nil
    · exact h
  | cons x xs ih =>
    rw [List.cons_append, firstFlawed_cons]
    rw [firstFlawed_cons, List.forall_mem_cons] at h
    rcases h with (hx | ⟨hx, h⟩) | ⟨⟨hx, hxs⟩, h⟩
    · exact .inl hx
    · exact .inr ⟨hx, ih (.inl h)⟩
    · exact .inr ⟨hx, ih (.inr ⟨hxs, h⟩)⟩

/-- A text that does not compile raises a fault of patterns, which holds the text and names no
rule. -/
lemma Pattern.kind_of_compile {text : String} {raised : Fault} (h : compile text = .error raised) :
    ∃ token, raised.kind = .pattern text token none := by
  obtain ⟨e, hchars, rfl⟩ := exists_of_compileIn_error h
  obtain ⟨before, after, hpoints⟩ := exists_points hchars
  refine ⟨String.ofList e.token, ?_⟩
  rw [CompileError.fault_of_ne hpoints.cause_ne, CompileError.patternFault, String.ofList_toList]
  rfl

lemma raisedBy_forRule {id text : String} {raised : Fault}
    (h : Pattern.compile text = .error raised) :
    RaisedBy id text (raised.forRule id) := by
  obtain ⟨token, hkind⟩ := Pattern.kind_of_compile h
  refine ⟨raised, token, h, hkind, ?_, rfl⟩
  rw [Fault.forRule, hkind]
  rfl

namespace Rule

lemma compileTexts_cons (id text : String) (texts : List String) :
    compileTexts id (text :: texts) =
      (Pattern.compile text).mapError (·.forRule id) >>= fun kind =>
      compileTexts id texts >>= fun kinds => .ok (kind :: kinds) :=
  List.mapM_cons

/-- The texts are compiled from left to right, up to the first that fails. -/
lemma compileTexts_cases (id : String) (texts : List String) :
    (∀ text ∈ texts, Pattern.compiles text = true) ∧
        (∃ kinds, compileTexts id texts = .ok kinds ∧ List.Forall₂ Pattern.Denotes texts kinds) ∨
      ∃ fault, compileTexts id texts = .error fault ∧ RaisedByFirst id texts fault := by
  induction texts with
  | nil => exact .inl ⟨by simp, [], rfl, .nil⟩
  | cons text texts ih =>
    rw [compileTexts_cons]
    cases htext : Pattern.compile text with
    | error raised =>
      exact .inr ⟨raised.forRule id, rfl, Schema.firstFlawed_cons.2 (.inl (raisedBy_forRule htext))⟩
    | ok kind =>
      have hcompiles : Pattern.compiles text = true := by rw [Pattern.compiles, htext]; rfl
      -- The text compiles, so the first that does not is behind it.
      rcases ih with ⟨hall, kinds, hkinds, hdenotes⟩ | ⟨fault, hfault, hfirst⟩
      · rw [hkinds]
        exact .inl ⟨List.forall_mem_cons.2 ⟨hcompiles, hall⟩, kind :: kinds, rfl,
          .cons htext hdenotes⟩
      · rw [hfault]
        exact .inr ⟨fault, rfl, Schema.firstFlawed_cons.2 (.inr ⟨hcompiles, hfirst⟩)⟩

/-- A written rule with patterns becomes a rule if all of its texts compile, and otherwise fails by
the first that does not. -/
lemma compile_cases {spec : RuleSpec} (h : spec.patterns ≠ []) :
    spec.compiles = true ∧ (∃ rule, compile spec = .ok rule ∧ IsRuleOf spec rule) ∨
      spec.compiles = false ∧ ∃ fault, compile spec = .error (.badPattern fault) ∧
        IsErrorOf spec (spec.id, fault) := by
  -- One text that does not compile is enough.
  have hfails {fault : Fault} (hfirst : RaisedByFirst spec.id spec.texts fault) :
      spec.compiles = false := by
    obtain ⟨before, text, after, htexts, -, raised, token, hraised, -⟩ := hfirst
    have hnot : Pattern.compiles text = false := by rw [Pattern.compiles, hraised]; rfl
    simp [RuleSpec.compiles, htexts, hnot]
  rcases compileTexts_cases spec.id spec.patterns with
    ⟨hall, patterns, hpatterns, hdenotes⟩ | ⟨fault, hfault, hfirst⟩
  · rcases compileTexts_cases spec.id spec.justifications with
      ⟨hall', justifications, hjustifications, hdenotes'⟩ | ⟨fault, hfault, hfirst⟩
    · have hfilled : patterns ≠ [] := by
        rintro rfl
        exact h (List.forall₂_nil_right_iff.1 hdenotes)
      have hcompiles : spec.compiles = true :=
        List.all_eq_true.2 (List.forall_mem_append.2 ⟨hall, hall'⟩)
      refine .inl ⟨hcompiles, ⟨spec.id, spec.message, patterns, justifications, spec.patterns,
        spec.justifications, spec.tags, spec.before, spec.after⟩, ?_, ?_⟩
      · rw [compile, hpatterns, hjustifications]
        exact if_neg (by simpa using hfilled)
      · exact ⟨rfl, rfl, rfl, rfl, hdenotes, hdenotes', rfl, rfl, rfl⟩
    · have hfirst := Schema.firstFlawed_append spec.justifications (.inr ⟨hall, hfirst⟩)
      exact .inr ⟨hfails hfirst, fault, by rw [compile, hpatterns, hfault], rfl, hfirst⟩
  · have hfirst := Schema.firstFlawed_append spec.justifications (.inl hfirst)
    exact .inr ⟨hfails hfirst, fault, by rw [compile, hfault], rfl, hfirst⟩

end Rule

/-! ## The rules of a configuration -/

namespace Config

open Files (FileSystem Path)

/-- The written rules fall into two parts, each in its old order. The induction is on the written
rules, each of which goes to one part. -/
lemma forall₂_partition {specs : List RuleSpec} (h : ∀ spec ∈ specs, spec.patterns ≠ []) :
    List.Forall₂ IsRuleOf (specs.filter fun spec => spec.compiles) (compiled specs) ∧
      List.Forall₂ IsErrorOf (specs.filter fun spec => !spec.compiles) (disabled specs) := by
  induction specs with
  | nil => exact ⟨.nil, .nil⟩
  | cons spec specs ih =>
    rw [List.forall_mem_cons] at h
    obtain ⟨hrules, herrors⟩ := ih h.2
    -- The rule goes to one of the two parts and leaves the other as it is.
    rcases Rule.compile_cases h.1 with
      ⟨hcompiles, rule, hrule, his⟩ | ⟨hcompiles, fault, hfault, his⟩
    · have hrules' : compiled (spec :: specs) = rule :: compiled specs := by simp [compiled, hrule]
      have herrors' : disabled (spec :: specs) = disabled specs := by simp [disabled, hrule]
      rw [hrules', herrors', List.filter_cons_of_pos hcompiles,
        List.filter_cons_of_neg (by simp [hcompiles])]
      exact ⟨.cons his hrules, herrors⟩
    · have hrules' : compiled (spec :: specs) = compiled specs := by simp [compiled, hfault]
      have herrors' : disabled (spec :: specs) = (spec.id, fault) :: disabled specs := by
        simp [disabled, hfault]
      rw [hrules', herrors', List.filter_cons_of_neg (by simp [hcompiles]),
        List.filter_cons_of_pos (by simp [hcompiles])]
      exact ⟨hrules, .cons his herrors⟩

/-- A document gives no rule without patterns. -/
lemma patterns_ne_nil_of_gives {items : List Document} {specs : List RuleSpec}
    (h : List.Forall₂ Schema.Gives items specs) :
    ∀ spec ∈ specs, spec.patterns ≠ [] := by
  induction h with
  | nil => simp
  | cons h _ ih =>
    obtain ⟨entries, -, hentries⟩ := h
    exact List.forall_mem_cons.2 ⟨hentries.patterns_ne_nil, ih⟩

/-- What holds of the written rules of each source holds of those of all sources. -/
lemma forall_mem_flatten {α : Type} {gives : α → List RuleSpec → Prop} {P : RuleSpec → Prop}
    {sources : List α} {found : List (List RuleSpec)} (h : List.Forall₂ gives sources found)
    (hgives : ∀ source specs, gives source specs → ∀ spec ∈ specs, P spec) :
    ∀ spec ∈ found.flatten, P spec := by
  induction h with
  | nil => simp
  | cons h _ ih => exact List.forall_mem_append.2 ⟨hgives _ _ h, ih⟩

/-- No configuration has a written rule without patterns, its own or an imported one. -/
lemma Gathers.patterns_ne_nil {fs : FileSystem} {base : Path} {d : Document} {specs : List RuleSpec}
    (h : Gathers fs base d specs) : ∀ spec ∈ specs, spec.patterns ≠ [] := by
  cases h with
  | nothing => simp
  | map hown _ hfound =>
    refine List.forall_mem_append.2 ⟨patterns_ne_nil_of_gives hown, forall_mem_flatten hfound ?_⟩
    rintro _ _ ⟨_, _, _, _, files, -, -, -, -, hfiles, rfl⟩
    refine forall_mem_flatten hfiles ?_
    rintro _ _ ⟨d, -, hd⟩
    exact patterns_ne_nil_of_gives hd

/-- The written rules of a configuration have different ids. Those of which all texts compile are
its rules, in order; of each of the others it reports, in order, the first text that does not
compile. -/
theorem rules_partitioned (fs : FileSystem) (path? root? : Option Path) (d : Document) (c : Config)
    (h : (ofDocument fs path? root? d).2 = .ok c) :
    ∃ specs, Gathers fs ((path?.map (·.parent)).getD .here) d specs ∧ (specs.map (·.id)).Nodup ∧
      List.Forall₂ IsRuleOf (specs.filter fun spec => spec.compiles) c.rules ∧
      List.Forall₂ IsErrorOf (specs.filter fun spec => !spec.compiles) c.ruleErrors := by
  obtain ⟨specs, hgathers, hids, hrules, herrors⟩ := exists_gathers_of_ofDocument h
  rw [hrules, herrors]
  exact ⟨specs, hgathers, hids, forall₂_partition hgathers.patterns_ne_nil⟩

/-- A rule with a pattern that is not closed, one that compiles, and an import. -/
def sharingRules : Document :=
  .map [
    (.text "import", .list [.map [(.text "load", .text "*.yml")]]),
    (.text "rules", .list [
      .map [(.text "id", .text "a"), (.text "message", .text "m"), (.text "pattern", .text "f(")],
      .map [(.text "id", .text "b"), (.text "message", .text "m"),
        (.text "pattern", .list [.text "f()", .text "_ + 1"])]])]

/-- A file with two rules; the justification of the first does not compile. -/
def sharedFiles : FileSystem :=
  { tree := .directory [("shared.yml", .file (String.toUTF8 (
      "- id: c\n  message: m\n  pattern: g()\n  justification: f(\n" ++
      "- id: d\n  message: m\n  pattern: h()\n")).toList)]
    here := .here }

theorem rules_partitioned_sharingRules :
    ∃ c, (ofDocument sharedFiles none none sharingRules).2 = .ok c ∧
      c.rules.map (·.id) = ["b", "d"] ∧
      c.ruleErrors.map (·.1) = ["a", "c"] ∧
      ∃ specs, Gathers sharedFiles .here sharingRules specs ∧ (specs.map (·.id)).Nodup ∧
        List.Forall₂ IsRuleOf (specs.filter fun spec => spec.compiles) c.rules ∧
        List.Forall₂ IsErrorOf (specs.filter fun spec => !spec.compiles) c.ruleErrors := by
  obtain ⟨c, hc, hids⟩ := exists_of_any_toOption
    (show (ofDocument sharedFiles none none sharingRules).2.toOption.any (fun c =>
      c.rules.map (·.id) == ["b", "d"] && c.ruleErrors.map (·.1) == ["a", "c"]) = true by
        decide +kernel)
  rw [Bool.and_eq_true, beq_iff_eq, beq_iff_eq] at hids
  exact ⟨c, hc, hids.1, hids.2, rules_partitioned sharedFiles none none sharingRules c hc⟩

end Config

end ShapeLint
