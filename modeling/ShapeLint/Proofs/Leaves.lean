import ShapeLint.Java.Parse
import ShapeLint.Proofs.Failing

/-!
# The literals of a tree are those of its source

Whatever a part of the grammar reads, the trees it gives hold the literals among the tokens it has
taken, in order and each once. `Gives` says so of a reader that starts from literals taken before,
and is kept by every combination of readers, so that the rules of the grammar follow one by one, and
the grammar by induction on its levels.
-/

namespace ShapeLint.Java

/-! ## Literals among tokens -/

/-- The literal that a token is, if it is one. The type of the literal has been found by the
tokenizer. -/
def Token.mark? (t : Token) : Option Mark :=
  match t.kind with
  | .literal type => some ⟨type, t.start, t.stop⟩
  | _ => none

/-- The literals among tokens, in the order of the tokens. -/
def marks (ts : List Token) : List Mark :=
  ts.filterMap Token.mark?

lemma marks_append (ts us : List Token) : marks (ts ++ us) = marks ts ++ marks us :=
  List.filterMap_append

lemma marks_single {t : Token} (h : t.mark? = none) : marks [t] = [] := by
  simp [marks, h]

/-- Literals are of the types of literals, as tokens of a source are. -/
def Typed (ts : List Token) : Prop :=
  ∀ t ∈ ts, ∀ m, t.mark? = some m → m.type ∈ opaqueTypes

lemma Typed.right {ts us : List Token} (h : Typed (ts ++ us)) : Typed us :=
  fun t ht => h t (List.mem_append_right ts ht)

/-! ## Forests -/

/-- The literals of two forests, one behind the other. -/
lemma BearsAll.append {ts us : List Tree} {ms ns : List Mark} (hus : BearsAll us ns)
    (h : BearsAll ts ms) :
    BearsAll (ts ++ us) (ms ++ ns) := by
  cases h with
  | nil => exact hus
  | cons htree hothers =>
    rw [List.cons_append, List.append_assoc]
    exact .cons htree (hus.append hothers)

lemma bearsAll_single {t : Tree} {ms : List Mark} (h : Bears t ms) : BearsAll [t] ms := by
  simpa using BearsAll.cons h .nil

/-- Filling a field does not change the literals. -/
lemma Bears.inField {t : Tree} {ms : List Mark} (h : Bears t ms) (field : String) :
    Bears (t.inField field) ms := by
  cases h with
  | unnamed hnamed => exact .unnamed hnamed
  | literal hnamed htype => exact @Bears.literal (t.inField field) hnamed htype
  | inner hnamed hplain hstep hchildren =>
    exact @Bears.inner (t.inField field) ms hnamed hplain hstep hchildren

lemma BearsAll.inField {ts : List Tree} {ms : List Mark} (field : String) (h : BearsAll ts ms) :
    BearsAll (ts.map (·.inField field)) ms := by
  cases h with
  | nil => exact .nil
  | cons htree hothers => exact .cons (htree.inField field) (hothers.inField field)

lemma BearsAll.single {t : Tree} {ms : List Mark} (h : BearsAll [t] ms) : Bears t ms := by
  cases h with
  | cons htree hnone =>
    cases hnone
    rwa [List.append_nil]

/-- Whether a type of nodes is neither of literals nor of comments nor of steps. Nodes of such a
type are made over any children. -/
def isOrdinary (type : String) : Bool :=
  isPlain type && type != "update_expression"

lemma isOrdinary_iff {type : String} :
    isOrdinary type = true ↔ isPlain type = true ∧ type ≠ "update_expression" := by
  simp [isOrdinary]

/-- The form in which a type is compared with all others at once, for closed terms. -/
@[grind norm] lemma isOrdinary_eq (type : String) : isOrdinary type =
    (type != "string_literal" && type != "character_literal" && type != "decimal_integer_literal" &&
      type != "hex_integer_literal" && type != "octal_integer_literal" &&
      type != "binary_integer_literal" && type != "decimal_floating_point_literal" &&
      type != "hex_floating_point_literal" && type != "line_comment" &&
      type != "block_comment" && type != "update_expression") := by
  rw [Bool.eq_iff_iff]
  simp [isOrdinary, isPlain, opaqueTypes, and_assoc]

/-- A tree over a forest bears the literals of the forest. -/
lemma bears_joined {type : String} {children : List Tree} {ms : List Mark}
    (h : BearsAll children ms) (htype : isOrdinary type = true) :
    Bears (.joined type children) ms :=
  have ⟨hplain, hstep⟩ := isOrdinary_iff.1 htype
  .inner rfl hplain (fun hupdate => absurd hupdate hstep) h

/-- A step is a tree over what it steps. -/
lemma bears_step {children : List Tree} {ms : List Mark} (h : BearsAll children ms)
    (hne : children ≠ []) :
    Bears (.joined "update_expression" children) ms :=
  .inner rfl rfl (fun _ => hne) h

/-! ## Readers -/

/-- After literals that were taken before, a reader gives a value for these and those that it takes
itself. What was taken before is part of the statement, since some rules go on behind trees that
were read by others. -/
def Gives {α : Type} (R : α → List Mark → Prop) (before : List Mark) (r : Reader α) : Prop :=
  ∀ ts a rest, Typed ts → r ts = some (a, rest) →
    ∃ used, ts = used ++ rest ∧ R a (before ++ marks used)

/-- A part gives trees that bear the literals it takes. -/
def Sound (p : Part) : Prop :=
  Gives BearsAll [] p

section

variable {α β : Type} {R : α → List Mark → Prop} {R' : β → List Mark → Prop} {before : List Mark}

lemma gives_pure {a : α} (h : R a before) : Gives R before (pure a) := by
  rintro ts _ _ - ⟨⟩
  exact ⟨[], rfl, by simpa [marks] using h⟩

lemma gives_failure : Gives R before failure := by
  rintro ts a rest - ⟨⟩

lemma gives_failure_bind {next : β → Reader α} : Gives R before (failure >>= next) := by
  rintro ts a rest - ⟨⟩

lemma Gives.orElse {r s : Reader α} (hr : Gives R before r) (hs : Gives R before s) :
    Gives R before (r <|> s) := by
  intro ts a rest htyped h
  change (r ts).orElse (fun _ => s ts) = _ at h
  cases hfirst : r ts with
  | some x =>
    rw [hfirst] at h
    cases h
    exact hr ts a rest htyped hfirst
  | none =>
    rw [hfirst] at h
    exact hs ts a rest htyped h

/-- Two readers one after the other take their literals one after the other. -/
lemma Gives.bind {r : Reader α} {next : α → Reader β} (hr : Gives R before r)
    (hnext : ∀ a ms, R a ms → Gives R' ms (next a)) : Gives R' before (r >>= next) := by
  intro ts b rest htyped h
  change (r ts).bind (fun x => next x.1 x.2) = _ at h
  obtain ⟨⟨a, middle⟩, ha, hb⟩ := Option.bind_eq_some_iff.1 h
  obtain ⟨used, rfl, hR⟩ := hr ts a middle htyped ha
  obtain ⟨more, rfl, hR'⟩ := hnext a _ hR middle b rest htyped.right hb
  refine ⟨used ++ more, by rw [List.append_assoc], ?_⟩
  rwa [marks_append, ← List.append_assoc]

/-- What is given can be weakened. -/
lemma Gives.mono {S : α → List Mark → Prop} {r : Reader α} (hr : Gives R before r)
    (h : ∀ a ms, R a ms → S a ms) :
    Gives S before r := by
  intro ts a rest htyped hrun
  obtain ⟨used, hused, hR⟩ := hr ts a rest htyped hrun
  exact ⟨used, hused, h _ _ hR⟩

/-- Literals that were taken still before change nothing. -/
lemma Gives.frame {r : Reader α} (hr : Gives R before r) (front : List Mark) :
    Gives (fun a ms => ∃ ns, ms = front ++ ns ∧ R a ns) (front ++ before) r := by
  intro ts a rest htyped hrun
  obtain ⟨used, hused, hR⟩ := hr ts a rest htyped hrun
  exact ⟨used, hused, _, List.append_assoc .., hR⟩

/-- What a reader gives on its own, it gives after literals that were taken before. -/
lemma Gives.after {r : Reader α} (hr : Gives R [] r) (front : List Mark) :
    Gives (fun a ms => ∃ ns, ms = front ++ ns ∧ R a ns) front r := by
  simpa only [List.append_nil] using hr.frame front

end

/-! ## Tokens -/

lemma gives_get : Gives (fun _ ms => ms = []) [] (get : Reader (List Token)) := by
  rintro ts _ _ - ⟨⟩
  exact ⟨[], rfl, rfl⟩

lemma tokenWhere_cons (p : Token → Bool) (t : Token) (ts : List Token) :
    tokenWhere p (t :: ts) = if p t then some (t, ts) else none := by
  change (if p t then (set ts >>= fun _ => pure t : Reader Token) else failure) (t :: ts) = _
  split <;> rfl

/-- One token is taken, and its literal if it is one. -/
lemma gives_tokenWhere (p : Token → Bool) :
    Gives (fun t ms => p t = true ∧ ms = marks [t] ∧ Typed [t]) [] (tokenWhere p) := by
  intro ts t rest htyped h
  cases ts with
  | nil => cases h
  | cons u ts =>
    rw [tokenWhere_cons] at h
    split at h
    · cases h
      exact ⟨[t], rfl, ‹_›, rfl, fun u hu => htyped u (by simp_all)⟩
    · cases h

/-! ## Tokens that are no literals -/

/-- A leaf for a token that is no literal bears none. -/
lemma sound_word {type : String} {isNamed : Bool} {p : Token → Bool}
    (hp : ∀ t, p t = true → t.mark? = none)
    (htype : isNamed = true → isPlain type = true ∧ type ≠ "update_expression") :
    Sound (tokenWhere p >>= fun t => pure [.ofToken type isNamed t]) := by
  refine (gives_tokenWhere p).bind fun t ms ⟨hpt, hms, _⟩ => gives_pure ?_
  rw [hms, marks_single (hp t hpt)]
  refine bearsAll_single ?_
  cases isNamed with
  | false => exact .unnamed rfl
  | true => exact .inner rfl (htype rfl).1 (fun h => absurd h (htype rfl).2) .nil

/-- Words and symbols are no literals. -/
lemma mark?_of_kind {t : Token} (h : (t.kind == .word || t.kind == .symbol) = true) :
    t.mark? = none := by
  rw [Token.mark?]
  split
  case h_1 type hkind => simp [hkind] at h
  case h_2 => rfl

@[grind ←] lemma sound_tok (text : String) : Sound (tok text) := by
  refine sound_word (fun t h => mark?_of_kind ?_) (by simp)
  simp only [Bool.and_eq_true] at h
  exact h.2

/-- One of several symbols. It is a tree, so that a step has an operator. -/
lemma gives_tokIn (texts : List String) :
    Gives (fun trees ms => BearsAll trees ms ∧ trees ≠ []) [] (tokIn texts) := by
  refine (gives_tokenWhere _).bind fun t ms ⟨hpt, hms, _⟩ => gives_pure ⟨?_, List.cons_ne_nil _ _⟩
  simp only [Bool.and_eq_true] at hpt
  rw [hms, marks_single (mark?_of_kind hpt.2)]
  exact bearsAll_single (.unnamed rfl)

@[grind ←] lemma sound_tokIn (texts : List String) : Sound (tokIn texts) :=
  (gives_tokIn texts).mono fun _ _ h => h.1

@[grind ←] lemma sound_leaf {type : String} (h : isOrdinary type = true) (word : String) :
    Sound (leaf type word) := by
  refine sound_word (fun t ht => mark?_of_kind ?_) fun _ => isOrdinary_iff.1 h
  simp only [Bool.and_eq_true] at ht
  simp [ht.1]

@[grind ←] lemma sound_nameAs {type : String} (h : isOrdinary type = true) :
    Sound (nameAs type) := by
  refine sound_word (fun t ht => mark?_of_kind ?_) fun _ => isOrdinary_iff.1 h
  simp only [Bool.and_eq_true] at ht
  simp [ht.1]

/-! ## Combinations -/

/-- A part reads on behind trees that were read before. -/
lemma Sound.behind {p : Part} (h : Sound p) {front : List Tree} {ms : List Mark}
    (hfront : BearsAll front ms) :
    Gives (fun trees ns => BearsAll (front ++ trees) ns) ms p := by
  refine (h.after ms).mono ?_
  rintro trees _ ⟨ns, rfl, htrees⟩
  exact htrees.append hfront

/-- The same with a field that the trees fill. -/
lemma Sound.fieldBehind {p : Part} (h : Sound p) (name : String) {front : List Tree}
    {ms : List Mark} (hfront : BearsAll front ms) :
    Gives (fun trees ns => BearsAll (front ++ trees.map (·.inField name)) ns) ms p := by
  refine (h.after ms).mono ?_
  rintro trees _ ⟨ns, rfl, htrees⟩
  exact (htrees.inField name).append hfront

/-- All of several parts are sound. -/
def AllSound : List Part → Prop
  | [] => True
  | p :: ps => Sound p ∧ AllSound ps

@[grind norm] lemma allSound_nil : AllSound [] ↔ True :=
  .rfl

@[grind norm] lemma allSound_cons (p : Part) (ps : List Part) :
    AllSound (p :: ps) ↔ Sound p ∧ AllSound ps :=
  .rfl

lemma AllSound.append {ps qs : List Part} (hps : AllSound ps) (hqs : AllSound qs) :
    AllSound (ps ++ qs) := by
  induction ps with
  | nil => exact hqs
  | cons p ps ih => exact ⟨hps.1, ih hps.2⟩

/-- Parts one after another. The induction is on the list. -/
@[grind ←] lemma sound_parts {ps : List Part} (h : AllSound ps) : Sound (parts ps) := by
  induction ps with
  | nil => exact gives_pure .nil
  | cons p ps ih =>
    refine h.1.bind fun first ms hfirst => ?_
    refine ((ih h.2).behind hfirst).bind fun others ns hothers => ?_
    exact gives_pure hothers

section

variable {α : Type} {R : α → List Mark → Prop} {before : List Mark}

/-- A repetition keeps what each step keeps. The induction is on the limit of its steps, which is
never reached by a step that takes nothing. -/
lemma gives_repeatFrom {step : α → Reader α} (hstep : ∀ a ms, R a ms → Gives R ms (step a))
    (limit : Nat) {a : α} (ha : R a before) : Gives R before (repeatFrom step limit a) := by
  induction limit generalizing a before with
  | zero => exact gives_pure ha
  | succ limit ih =>
    intro ts b rest htyped h
    rw [repeatFrom] at h
    dsimp only at h
    cases hfirst : step a ts with
    | none =>
      rw [hfirst] at h
      cases h
      exact gives_pure ha ts a ts htyped rfl
    | some result =>
      obtain ⟨c, middle⟩ := result
      rw [hfirst] at h
      dsimp only at h
      -- A round that has read nothing is undone, and what was there before is the result.
      split at h
      · obtain ⟨used, rfl, hc⟩ := hstep a _ ha ts c middle htyped hfirst
        obtain ⟨more, rfl, hb⟩ := ih hc middle b rest htyped.right h
        refine ⟨used ++ more, by rw [List.append_assoc], ?_⟩
        rwa [marks_append, ← List.append_assoc]
      · cases h
        exact gives_pure ha ts a ts htyped rfl

/-- A loop over a value that grows, such as a receiver with its selectors. -/
lemma gives_chain {first : α} {step : α → Reader α} (hfirst : R first before)
    (hstep : ∀ a ms, R a ms → Gives R ms (step a)) : Gives R before (chain first step) := by
  refine (gives_get.after before).bind fun tokens ms h => ?_
  obtain ⟨ns, rfl, rfl⟩ := h
  rw [List.append_nil]
  exact gives_repeatFrom hstep _ hfirst

end

@[grind ←] lemma sound_choice {ps : List Part} (h : AllSound ps) : Sound (choice ps) := by
  induction ps with
  | nil => exact gives_failure
  | cons p ps ih => exact h.1.orElse (ih h.2)

@[grind ←] lemma sound_opt {ps : List Part} (h : AllSound ps) : Sound (opt ps) :=
  (sound_parts h).orElse (gives_pure .nil)

@[grind ←] lemma sound_many {ps : List Part} (h : AllSound ps) : Sound (many ps) := by
  have hstart : BearsAll ([] : List (List Tree)).reverse.flatten [] := .nil
  refine (gives_chain (R := fun found ms => BearsAll found.reverse.flatten ms) hstart ?_).bind
    fun found ms hfound => gives_pure hfound
  intro found ms hfound
  refine ((sound_parts h).behind hfound).bind fun trees ns htrees => gives_pure ?_
  simpa using htrees

@[grind ←] lemma sound_some1 {ps : List Part} (h : AllSound ps) : Sound (some1 ps) :=
  sound_parts (h.append ⟨sound_many h, trivial⟩)

@[grind ←] lemma sound_separated {p : Part} (h : Sound p) (separator : String) :
    Sound (separated separator p) := by
  have hmany : Sound (many [tok separator, p]) := sound_many ⟨sound_tok separator, h, trivial⟩
  exact sound_parts ⟨h, hmany, trivial⟩

/-- A rule of the grammar makes a node of what its parts read. -/
@[grind ←] lemma sound_rule {type : String} {ps : List Part} (htype : isOrdinary type = true)
    (h : AllSound ps) :
    Sound (rule type ps) := by
  refine (sound_parts h).bind fun trees ms htrees => ?_
  exact gives_pure (bearsAll_single (bears_joined htrees htype))

lemma Gives.field {p : Part} {ms : List Mark} (h : Gives BearsAll ms p) (name : String) :
    Gives BearsAll ms (field name p) :=
  h.bind fun _ _ htrees => gives_pure (htrees.inField name)

@[grind ←] lemma sound_field {p : Part} (h : Sound p) (name : String) : Sound (field name p) :=
  Gives.field h name

lemma Gives.single {p : Part} {ms : List Mark} (h : Gives BearsAll ms p) :
    Gives Bears ms (single p) := by
  refine h.bind fun trees ns htrees => ?_
  match trees, htrees with
  | [t], htree => exact gives_pure htree.single
  | [], _ => exact gives_failure
  | _ :: _ :: _, _ => exact gives_failure

lemma Gives.listed {r : Reader Tree} {ms : List Mark} (h : Gives Bears ms r) :
    Gives BearsAll ms (r >>= fun t => pure [t]) :=
  h.bind fun _ _ ht => gives_pure (bearsAll_single ht)

/-- A tree over what a part reads on behind what was read before, and other parts. -/
lemma gives_ruleBehind {type : String} (htype : isOrdinary type = true) {p : Part} {ps : List Part}
    {ms : List Mark} (hp : Gives BearsAll ms p) (hps : AllSound ps) :
    Gives BearsAll ms (rule type (p :: ps)) := by
  have hparts : Gives BearsAll ms (parts (p :: ps)) :=
    hp.bind fun first ns hfirst => ((sound_parts hps).behind hfirst).bind fun _ _ hothers =>
      gives_pure hothers
  exact hparts.bind fun trees ns htrees => gives_pure (bearsAll_single (bears_joined htrees htype))

/-- A reader that only looks ahead, and takes no literals. -/
def Looks {α : Type} (r : Reader α) : Prop :=
  Gives (fun _ ms => ms = []) [] r

lemma gives_require {test : Reader Bool} (h : Looks test) :
    Gives (fun trees ms => trees = [] ∧ ms = []) [] (require test) := by
  refine h.bind fun b ms hms => ?_
  subst hms
  cases b with
  | true => exact gives_pure ⟨rfl, rfl⟩
  | false => exact gives_failure

@[grind ←] lemma sound_require {test : Reader Bool} (h : Looks test) : Sound (require test) := by
  refine (gives_require h).mono ?_
  rintro _ _ ⟨rfl, rfl⟩
  exact .nil

lemma looks_next? : Looks next? :=
  gives_get.bind fun _ _ hms => gives_pure hms

@[grind ←] lemma looks_isAt (distance : Nat) (text : String) : Looks (isAt distance text) := by
  refine gives_get.bind fun ts ms hms => ?_
  subst hms
  split <;> exact gives_pure rfl

/-! ## The grammar -/

/-- All parts that others refer to are sound. The grammar is made level by level from such parts, so
this is what one level has to show of the next. -/
structure Grammar.IsSound (g : Grammar) : Prop where
  expressionWith : ∀ mayBeLambda, Sound (g.expressionWith mayBeLambda)
  signedWith : ∀ mayBeLambda, Sound (g.signedWith mayBeLambda)
  arrayInitializer : Sound g.arrayInitializer
  recordPattern : Sound g.recordPattern
  type : Sound g.type
  annotationUse : Sound g.annotationUse
  annotationValue : Sound g.annotationValue
  parameters : Sound g.parameters
  classBody : Sound g.classBody
  typeDeclaration : Sound g.typeDeclaration
  block : Sound g.block
  statement : Sound g.statement

namespace Grammar

attribute [grind ←] IsSound.expressionWith IsSound.signedWith IsSound.arrayInitializer
  IsSound.recordPattern IsSound.type IsSound.annotationUse IsSound.annotationValue
  IsSound.parameters IsSound.classBody IsSound.typeDeclaration IsSound.block IsSound.statement

variable {g : Grammar}

/-! ### Types -/

@[grind ←] lemma sound_annotations (hg : g.IsSound) : Sound g.annotations := by
  unfold annotations
  grind

@[grind ←] lemma sound_wildcard (hg : g.IsSound) : Sound g.wildcard := by
  unfold wildcard
  grind

@[grind ←] lemma sound_typeArguments (hg : g.IsSound) : Sound g.typeArguments := by
  unfold typeArguments
  grind

/-- A type with or without generic arguments. -/
lemma gives_withTypeArguments (hg : g.IsSound) {t : Tree} {ms : List Mark} (ht : Bears t ms) :
    Gives Bears ms (g.withTypeArguments t) := by
  have hargs : Sound (opt [g.typeArguments]) := by grind
  refine (hargs.behind (bearsAll_single ht)).bind fun args ns h => ?_
  split
  · exact gives_pure h.single
  · exact gives_pure (bears_joined h rfl)

/-- A qualified type grows to the left, each name over what was read before it. -/
@[grind ←] lemma sound_classType (hg : g.IsSound) : Sound g.classType := by
  have hname : Sound (nameAs "type_identifier") := by grind
  have hscoped : Sound (parts [g.annotations, nameAs "type_identifier"]) := by grind
  refine (Gives.single hname).bind fun first ms hfirst => ?_
  refine (gives_withTypeArguments hg hfirst).bind fun first ms hfirst => ?_
  refine (gives_chain hfirst fun scope ms hscope => ?_).bind fun type ms htype =>
    gives_pure (bearsAll_single htype)
  refine ((sound_tok ".").behind (bearsAll_single hscope)).bind fun dot ms hdot => ?_
  refine (hscoped.behind hdot).bind fun name ms hname => ?_
  exact gives_withTypeArguments hg (bears_joined hname rfl)

@[grind ←] lemma sound_primitiveType : Sound primitiveType := by
  unfold primitiveType
  grind

@[grind ←] lemma sound_simpleType (hg : g.IsSound) : Sound g.simpleType := by
  unfold simpleType
  grind

@[grind ←] lemma sound_dimensions (hg : g.IsSound) : Sound g.dimensions := by
  unfold dimensions
  grind

@[grind ←] lemma sound_plainType (hg : g.IsSound) : Sound g.plainType := by
  have hdims : Sound (opt [g.dimensions]) := by grind
  refine (Gives.single (sound_simpleType hg)).bind fun element ms helement => ?_
  refine (hdims.after ms).bind fun dims ns hdims => ?_
  obtain ⟨ns, rfl, hdims⟩ := hdims
  -- without brackets the type is left as it is
  split
  · cases hdims
    exact gives_pure (by simpa using bearsAll_single helement)
  · refine gives_pure (bearsAll_single (bears_joined ?_ rfl))
    exact .cons (helement.inField "element") (hdims.inField "dimensions")

@[grind ←] lemma sound_anyType (hg : g.IsSound) : Sound g.anyType := by
  unfold anyType
  grind

@[grind ←] lemma sound_typeParameter (hg : g.IsSound) : Sound g.typeParameter := by
  unfold typeParameter
  grind

@[grind ←] lemma sound_typeParameters (hg : g.IsSound) : Sound g.typeParameters := by
  unfold typeParameters
  grind

/-! ### Names -/

@[grind ←] lemma sound_identifier : Sound identifier :=
  sound_nameAs rfl

@[grind ←] lemma sound_declaredName : Sound declaredName := by
  unfold declaredName
  grind

@[grind ←] lemma sound_qualifiedName : Sound qualifiedName := by
  refine (Gives.single sound_identifier).bind fun first ms hfirst => ?_
  refine (gives_chain hfirst fun scope ms hscope => ?_).bind fun name ms hname =>
    gives_pure (bearsAll_single hname)
  have hfront := bearsAll_single (hscope.inField "scope")
  refine ((sound_tok ".").behind hfront).bind fun dot ms hdot => ?_
  refine (sound_identifier.fieldBehind "name" hdot).bind fun name ms hname => ?_
  exact gives_pure (bears_joined hname rfl)

/-! ### Operators -/

/-- Angle brackets that are read as one operator are symbols. -/
lemma marks_joined? {cs : List Char} {ts found rest : List Token}
    (h : joined? cs ts = some (found, rest)) :
    ts = found ++ rest ∧ marks found = [] := by
  fun_induction joined? cs ts generalizing found rest with
  | case1 ts =>
    cases h
    exact ⟨rfl, rfl⟩
  | case2 c t ht ts =>
    cases h
    simp only [Bool.and_eq_true] at ht
    exact ⟨rfl, marks_single (mark?_of_kind (by simp [ht.1]))⟩
  -- The tokens of an operator are symbols, and these have no marks.
  | case3 c t ht d ds u us hnext ih =>
    obtain ⟨⟨more, rest⟩, hmore, heq⟩ := Option.map_eq_some_iff.1 h
    cases heq
    obtain ⟨hsplit, hmarks⟩ := ih hmore
    simp only [Bool.and_eq_true] at ht
    have hfirst : t.mark? = none := mark?_of_kind (by simp [ht.1])
    exact ⟨by rw [hsplit]; rfl, by simpa [marks, hfirst] using hmarks⟩
  | case4 => cases h
  | case5 => cases h
  | case6 => cases h
  | case7 => cases h

/-- An operator is no literal, and nothing in it is. -/
lemma gives_operator : Gives (fun op ms => op.isNamed = false ∧ ms = []) [] operator := by
  intro ts op rest htyped h
  rw [operator.eq_def] at h
  dsimp only at h
  split at h
  -- Closing angle brackets that touch are one operator, made of several tokens.
  case h_1 word found others hfound =>
    cases h
    obtain ⟨angle, -, hangle⟩ := List.exists_of_findSome?_eq_some hfound
    obtain ⟨⟨_, _⟩, hjoined, heq⟩ := Option.map_eq_some_iff.1 hangle
    cases heq
    obtain ⟨hsplit, hmarks⟩ := marks_joined? hjoined
    exact ⟨found, hsplit, rfl, hmarks⟩
  case h_2 =>
    split at h
    case h_1 t others _ =>
      split at h
      case isTrue hkind =>
        cases h
        refine ⟨[t], rfl, rfl, marks_single (mark?_of_kind ?_)⟩
        simp only [Bool.or_eq_true, Bool.and_eq_true] at hkind ⊢
        exact hkind.elim .inr fun hword => .inl hword.1
      case isFalse => cases h
    case h_2 => cases h

lemma gives_binaryOperator (least : Nat) :
    Gives (fun x ms => x.1.isNamed = false ∧ ms = []) [] (binaryOperator least) := by
  refine gives_operator.bind fun op ms hop => ?_
  obtain ⟨hnamed, rfl⟩ := hop
  split
  · split
    · exact gives_pure ⟨hnamed, rfl⟩
    · exact gives_failure
  · exact gives_failure

/-! ### Expressions -/

@[grind ←] lemma sound_anyRecordPattern (hg : g.IsSound) : Sound g.anyRecordPattern := by
  have htype : Sound (do
      let t ← single g.classType
      if t.type == "generic_type" then return [t] else failure) := by
    refine (Gives.single (sound_classType hg)).bind fun t ms ht => ?_
    split
    · exact gives_pure (bearsAll_single ht)
    · exact gives_failure
  refine sound_rule rfl ⟨?_, ?_, trivial⟩
  · grind
  · refine sound_rule rfl ⟨sound_tok "(", ?_, sound_tok ")", trivial⟩
    grind

@[grind ←] lemma sound_expression (hg : g.IsSound) : Sound g.expression :=
  hg.expressionWith true

@[grind ←] lemma sound_labelExpression (hg : g.IsSound) : Sound g.labelExpression :=
  hg.expressionWith false

@[grind ←] lemma sound_arguments (hg : g.IsSound) : Sound g.arguments := by
  unfold arguments
  grind

@[grind ←] lemma sound_parenthesized (hg : g.IsSound) : Sound g.parenthesized := by
  unfold parenthesized
  grind

@[grind ←] lemma sound_anyArrayInitializer (hg : g.IsSound) : Sound g.anyArrayInitializer := by
  unfold anyArrayInitializer
  grind

@[grind ←] lemma sound_literal : Sound literal := by
  refine (gives_tokenWhere _).bind fun t ms ⟨_, hms, htyped⟩ => ?_
  split
  case h_1 type hkind =>
    have hmark : t.mark? = some ⟨type, t.start, t.stop⟩ := by simp [Token.mark?, hkind]
    refine gives_pure ?_
    rw [hms, marks, List.filterMap_cons_some hmark]
    exact bearsAll_single (.literal rfl (htyped t (List.mem_singleton_self t) _ hmark))
  case h_2 => exact gives_failure

@[grind ←] lemma sound_lambdaHead (hg : g.IsSound) : Sound g.lambdaHead := by
  unfold lambdaHead
  grind

@[grind ←] lemma sound_lambda (hg : g.IsSound) : Sound g.lambda := by
  unfold lambda
  grind

/-- A tree over what was read before and what a part reads. -/
lemma gives_joinedBehind {p : Part} (hp : Sound p) {type : String} (htype : isOrdinary type = true)
    {front : List Tree} {ms : List Mark} (hfront : BearsAll front ms) :
    Gives BearsAll ms (p >>= fun rest => pure [.joined type (front ++ rest)]) := by
  refine (hp.behind hfront).bind fun rest ns hrest => ?_
  exact gives_pure (bearsAll_single (bears_joined hrest htype))

lemma gives_creation (hg : g.IsSound) {before : List Tree} {ms : List Mark}
    (h : BearsAll before ms) :
    Gives BearsAll ms (g.creation before) := by
  refine ((sound_tok "new").behind h).bind fun word ns hfront => ?_
  refine Gives.orElse ?_ (Gives.orElse ?_ gives_failure)
  · exact gives_joinedBehind (by grind) rfl hfront
  · refine gives_joinedBehind (sound_parts ?_) rfl hfront
    refine ⟨sound_annotations hg, ?_, ?_, trivial⟩ <;> grind

/-- A member behind an object: its name and arguments, a field, or a call on `super`. -/
lemma gives_member (hg : g.IsSound) {object : List Tree} {ms : List Mark} (h : BearsAll object ms) :
    Gives BearsAll ms (g.member object) := by
  refine ((sound_tok ".").behind (h.inField "object")).bind fun dot ns hfront => ?_
  refine Gives.orElse ?_ (Gives.orElse ?_ (Gives.orElse ?_ gives_failure))
  · exact gives_joinedBehind (by grind) rfl hfront
  · exact gives_joinedBehind (by grind) rfl hfront
  · exact gives_joinedBehind (by grind) rfl hfront

lemma gives_methodName (hg : g.IsSound) {object : Tree} {ms : List Mark} (h : Bears object ms) :
    Gives Bears ms (g.methodName object) := by
  have hname : Sound (parts [tok "::", opt [g.typeArguments], choice [tok "new", identifier]]) := by
    grind
  refine (hname.behind (bearsAll_single h)).bind fun rest ns hrest => ?_
  exact gives_pure (bears_joined hrest rfl)

/-- One step from an expression to a longer one that begins with it. -/
lemma gives_follow (hg : g.IsSound) {t : Tree} {ms : List Mark} (h : Bears t ms) :
    Gives Bears ms (g.follow t) := by
  have hfront := bearsAll_single h
  refine Gives.single (Gives.orElse ?_
    (Gives.orElse ?_ (Gives.orElse ?_ (Gives.orElse ?_ (Gives.orElse ?_ gives_failure)))))
  · exact gives_member hg hfront
  · exact ((sound_tok ".").behind hfront).bind fun dot ns hdot => gives_creation hg hdot
  · refine ((sound_tok ".").behind (bearsAll_single (h.inField "template_processor"))).bind
      fun dot ns hdot => ?_
    refine (sound_literal.fieldBehind "template_argument" hdot).bind fun text ns htext => ?_
    exact gives_pure (bearsAll_single (bears_joined htext rfl))
  · exact gives_joinedBehind (by grind) rfl (bearsAll_single (h.inField "array"))
  · exact (gives_methodName hg h).listed

@[grind ←] lemma sound_typeOperand (hg : g.IsSound) : Sound g.typeOperand := by
  refine (Gives.single (sound_plainType hg)).bind fun type ms htype =>
    Gives.orElse ?_ (Gives.orElse ?_ gives_failure)
  · exact gives_ruleBehind rfl (gives_pure (bearsAll_single htype)) (by grind)
  · split
    · exact gives_failure
    · exact (gives_methodName hg htype).listed

/-- What an expression can begin with. -/
@[grind ←] lemma sound_head (hg : g.IsSound) : Sound g.head := by
  have hsuper : Sound (do
      let object ← leaf "super" "super"
      choice [g.member object, do return [← g.methodName (← single (return object))]]) := by
    refine Gives.bind (sound_leaf rfl "super") fun object ms hobject => ?_
    refine Gives.orElse (gives_member hg hobject) (Gives.orElse ?_ gives_failure)
    refine (Gives.single (gives_pure hobject)).bind fun t ns ht => ?_
    exact (gives_methodName hg ht).listed
  have hcreation : Sound (g.creation []) := gives_creation hg .nil
  unfold head
  grind

/-- A primary with its selectors, and an assignment to it if one follows. That is looked for only
behind what can be assigned to. -/
@[grind ←] lemma sound_primary (hg : g.IsSound) : Sound g.primary := by
  refine (Gives.single (sound_head hg)).bind fun first ms hfirst => ?_
  refine (gives_chain hfirst fun t ns ht => gives_follow hg ht).bind fun t ms ht => ?_
  refine Gives.orElse ?_ (Gives.orElse (gives_pure (bearsAll_single ht)) gives_failure)
  split
  · exact gives_failure_bind
  refine (gives_operator.after ms).bind fun op ns hop => ?_
  obtain ⟨_, rfl, hnamed, rfl⟩ := hop
  split
  · exact gives_failure_bind
  have hop : Bears (op.inField "operator") [] := .unnamed hnamed
  have hfront : BearsAll [t.inField "left", op.inField "operator"] (ms ++ []) :=
    .cons (ht.inField "left") (bearsAll_single hop)
  refine ((sound_expression hg).fieldBehind "right" hfront).bind fun value ns hvalue => ?_
  exact gives_pure (bearsAll_single (bears_joined hvalue rfl))

/-! ### Switches -/

@[grind ←] lemma sound_switchLabel (hg : g.IsSound) : Sound g.switchLabel := by
  have hends : Looks (do return (← isAt 0 "->") || (← isAt 0 ":")) := by
    refine (looks_isAt 0 "->").bind fun arrow ms hms => ?_
    subst hms
    exact (looks_isAt 0 ":").bind fun colon ms hms => gives_pure hms
  have hpattern : Sound (rule "pattern"
      [choice [g.recordPattern, rule "type_pattern" [g.plainType, identifier]]]) := by
    grind
  have hguard : Sound (opt [rule "guard" [tok "when", g.labelExpression]]) := by grind
  refine sound_rule rfl ⟨sound_choice ⟨?_, sound_parts ⟨?_, ?_, trivial⟩, trivial⟩, trivial⟩ <;>
    grind

@[grind ←] lemma sound_switchBlock (hg : g.IsSound) : Sound g.switchBlock := by
  refine sound_choice ⟨sound_rule rfl ⟨?_, ?_, ?_, trivial⟩, sound_rule rfl ⟨?_, ?_, ?_, trivial⟩,
    trivial⟩ <;> grind

@[grind ←] lemma sound_switch (hg : g.IsSound) : Sound g.switch := by
  unfold switch
  grind

/-! ### Operations -/

@[grind ←] lemma looks_startsOperand (distance : Nat) : Looks (startsOperand distance) := by
  refine gives_get.bind fun ts ms hms => ?_
  subst hms
  split
  · split
    · exact gives_pure rfl
    · exact gives_pure rfl
    · split
      · refine gives_get.bind fun ts ms hms => ?_
        subst hms
        split <;> exact gives_pure rfl
      · exact gives_pure rfl
  · exact gives_pure rfl

/-- Steps behind an operand. Each is over the operand, so it is not empty. -/
lemma gives_stepped {t : Tree} {ms : List Mark} (h : Bears t ms) : Gives Bears ms (stepped t) := by
  refine gives_chain h fun t ns ht => ?_
  refine ((sound_tokIn ["++", "--"]).behind (bearsAll_single ht)).bind fun step ns hstep => ?_
  exact gives_pure (bears_step hstep (List.cons_ne_nil t step))

lemma sound_stepInFront {p : Part} (hp : Sound p) :
    Sound (rule "update_expression" [tokIn ["++", "--"], p]) := by
  have hparts : Gives (fun trees ms => BearsAll trees ms ∧ trees ≠ []) []
      (parts [tokIn ["++", "--"], p]) := by
    refine (gives_tokIn ["++", "--"]).bind fun step ms hstep => ?_
    have hothers : Sound (parts [p]) := sound_parts ⟨hp, trivial⟩
    refine (hothers.behind hstep.1).bind fun others ns hothers => ?_
    exact gives_pure ⟨hothers, List.append_ne_nil_of_left_ne_nil hstep.2 others⟩
  exact hparts.bind fun trees ms htrees =>
    gives_pure (bearsAll_single (bears_step htrees.1 htrees.2))

@[grind ←] lemma sound_anySigned (hg : g.IsSound) (mayBeLambda : Bool) :
    Sound (g.anySigned mayBeLambda) := by
  have hlambda : Sound (if mayBeLambda then g.lambda else failure) := by
    split
    · exact sound_lambda hg
    · exact gives_failure
  have hvalue : Sound (do return [← stepped (← single (g.signedWith mayBeLambda))]) := by
    refine (Gives.single (hg.signedWith mayBeLambda)).bind fun t ms ht => ?_
    exact (gives_stepped ht).listed
  unfold anySigned
  refine sound_choice ⟨hlambda, ?_, sound_stepInFront (hg.signedWith mayBeLambda),
    sound_rule rfl ?_, ?_, ?_, trivial⟩ <;> grind

lemma gives_operand (hg : g.IsSound) (mayBeLambda : Bool) :
    Gives Bears [] (g.operand mayBeLambda) :=
  (Gives.single (hg.signedWith mayBeLambda)).bind fun _ _ ht => gives_stepped ht

@[grind ←] lemma sound_typeTested (hg : g.IsSound) : Sound g.typeTested := by
  unfold typeTested
  grind

/-- Operators by their strength. The induction is on the level, and inside of it the loop goes over
operators of the same level. -/
lemma gives_operationFrom (hg : g.IsSound) (mayBeLambda : Bool) (level least : Nat) {left : Tree}
    {ms : List Mark} (hleft : Bears left ms) :
    Gives Bears ms (g.operationFrom mayBeLambda level least left) := by
  induction level generalizing least left ms with
  | zero => exact gives_pure hleft
  | succ level ih =>
    refine gives_chain hleft fun left ms hleft => ?_
    refine ((gives_binaryOperator least).after ms).bind fun x ns hx => ?_
    obtain ⟨op, strength⟩ := x
    obtain ⟨_, rfl, hnamed, rfl⟩ := hx
    have hfirst := hleft.inField "left"
    dsimp only
    split
    · have hfront : BearsAll [left.inField "left", op] (ms ++ []) :=
        .cons hfirst (bearsAll_single (.unnamed hnamed))
      refine ((sound_typeTested hg).behind hfront).bind fun tested ns htested => ?_
      exact gives_pure (bears_joined htested rfl)
    · have hfront : BearsAll [left.inField "left", op.inField "operator"] (ms ++ []) :=
        .cons hfirst (bearsAll_single (.unnamed hnamed))
      refine ((gives_operand hg mayBeLambda).after (ms ++ [])).bind fun right ns hright => ?_
      obtain ⟨ns, rfl, hright⟩ := hright
      -- The right operand takes the operators that bind more strongly, which is the level below.
      refine ((ih (strength + 1) hright).frame (ms ++ [])).bind fun right ns hright => ?_
      obtain ⟨ns, rfl, hright⟩ := hright
      exact gives_pure (bears_joined ((bearsAll_single (hright.inField "right")).append hfront) rfl)

/-- An expression is an operation, or a condition with two branches. -/
@[grind ←] lemma sound_anyExpression (hg : g.IsSound) (mayBeLambda : Bool) :
    Sound (g.anyExpression mayBeLambda) := by
  refine (gives_operand hg mayBeLambda).bind fun first ms hfirst => ?_
  have hoperation := gives_operationFrom hg mayBeLambda strengths 0 hfirst
  refine hoperation.bind fun condition ms hcondition => ?_
  refine Gives.orElse ?_ (Gives.orElse (gives_pure (bearsAll_single hcondition)) gives_failure)
  exact gives_ruleBehind rfl
    (gives_pure (bearsAll_single (hcondition.inField "condition"))) (by grind)

/-! ### Annotations, modifiers and variables -/

@[grind ←] lemma sound_anyAnnotationValue (hg : g.IsSound) : Sound g.anyAnnotationValue := by
  unfold anyAnnotationValue
  grind

@[grind ←] lemma sound_annotationArguments (hg : g.IsSound) : Sound g.annotationArguments := by
  refine sound_rule rfl ⟨sound_tok "(", ?_, sound_tok ")", trivial⟩
  grind

@[grind ←] lemma sound_anyAnnotationUse (hg : g.IsSound) : Sound g.anyAnnotationUse := by
  unfold anyAnnotationUse
  grind

@[grind ←] lemma sound_modifierWord : Sound modifierWord := by
  refine sound_choice
    ⟨sound_tokIn modifierWords, sound_parts ⟨sound_tok "sealed", ?_, trivial⟩, trivial⟩
  refine looks_next?.bind fun t? ms hms => ?_
  subst hms
  split
  · split
    · exact gives_pure .nil
    · exact gives_failure
  · exact gives_failure

@[grind ←] lemma sound_modifiers (hg : g.IsSound) : Sound g.modifiers := by
  unfold modifiers
  grind

@[grind ←] lemma sound_variableDeclarator (hg : g.IsSound) : Sound g.variableDeclarator := by
  unfold variableDeclarator
  grind

@[grind ←] lemma sound_declarators (hg : g.IsSound) {type : String}
    (htype : isOrdinary type = true) :
    Sound (g.declarators type) := by
  refine sound_rule htype ?_
  grind

@[grind ←] lemma sound_parameter (hg : g.IsSound) : Sound g.parameter := by
  unfold parameter
  grind

@[grind ←] lemma sound_receiver (hg : g.IsSound) : Sound g.receiver := by
  unfold receiver
  grind

@[grind ←] lemma sound_anyParameters (hg : g.IsSound) : Sound g.anyParameters := by
  unfold anyParameters
  grind

/-! ### Declarations -/

@[grind ←] lemma sound_typeList (hg : g.IsSound) : Sound g.typeList := by
  unfold typeList
  grind

@[grind ←] lemma sound_implemented (hg : g.IsSound) : Sound g.implemented := by
  unfold implemented
  grind

@[grind ←] lemma sound_permitted (hg : g.IsSound) : Sound g.permitted := by
  unfold permitted
  grind

@[grind ←] lemma sound_braced {type : String} (htype : isOrdinary type = true) {inside : List Part}
    (h : AllSound inside) :
    Sound (braced type inside) := by
  refine sound_rule htype (AllSound.append (AllSound.append ?_ h) ?_)
  · exact ⟨sound_tok "\x7b", trivial⟩
  · exact ⟨sound_tok "\x7d", trivial⟩

@[grind ←] lemma sound_thrown (hg : g.IsSound) : Sound g.thrown := by
  unfold thrown
  grind

@[grind ←] lemma sound_method (hg : g.IsSound) : Sound g.method := by
  unfold method
  grind

@[grind ←] lemma sound_constructorCall (hg : g.IsSound) : Sound g.constructorCall := by
  have hobject : Sound (do
      let first ← single g.head
      let object ← chain first fun t => do
        let _ ← require do return !((← isAt 0 ".") && (← isAt 1 "super"))
        g.follow t
      return [object]) := by
    refine (Gives.single (sound_head hg)).bind fun first ms hfirst => ?_
    refine Gives.listed (gives_chain hfirst fun t ms ht => ?_)
    -- Looking ahead reads nothing, so it adds no marks.
    have hlooks : Looks (do return !((← isAt 0 ".") && (← isAt 1 "super"))) := by
      refine (looks_isAt 0 ".").bind fun dot ms hms => ?_
      subst hms
      exact (looks_isAt 1 "super").bind fun word ms hms => gives_pure hms
    refine ((gives_require hlooks).after ms).bind fun _ ns hns => ?_
    obtain ⟨_, rfl, -, rfl⟩ := hns
    rw [List.append_nil]
    exact gives_follow hg ht
  refine sound_rule rfl ⟨sound_choice ⟨?_, sound_parts ⟨sound_field hobject "object", ?_⟩, trivial⟩,
    ?_, ?_, trivial⟩ <;> grind

@[grind ←] lemma sound_constructor (hg : g.IsSound) : Sound g.constructor := by
  unfold constructor
  grind

@[grind ←] lemma sound_compactConstructor (hg : g.IsSound) : Sound g.compactConstructor := by
  unfold compactConstructor
  grind

@[grind ←] lemma sound_classDeclaration (hg : g.IsSound) : Sound g.classDeclaration := by
  unfold classDeclaration
  grind

@[grind ←] lemma sound_recordDeclaration (hg : g.IsSound) : Sound g.recordDeclaration := by
  unfold recordDeclaration
  grind

@[grind ←] lemma sound_interfaceDeclaration (hg : g.IsSound) : Sound g.interfaceDeclaration := by
  unfold interfaceDeclaration
  grind

@[grind ←] lemma sound_annotationTypeDeclaration (hg : g.IsSound) :
    Sound g.annotationTypeDeclaration := by
  refine sound_rule rfl ⟨sound_modifiers hg, ?_, ?_, ?_, trivial⟩
  · grind
  · grind
  · refine sound_field (sound_braced rfl ?_) "body"
    refine ⟨sound_many ?_, trivial⟩
    grind

@[grind ←] lemma sound_classMember (hg : g.IsSound) : Sound g.classMember := by
  unfold classMember
  grind

@[grind ←] lemma sound_anyClassBody (hg : g.IsSound) : Sound g.anyClassBody := by
  unfold anyClassBody
  grind

@[grind ←] lemma sound_enumDeclaration (hg : g.IsSound) : Sound g.enumDeclaration := by
  refine sound_rule rfl ⟨sound_modifiers hg, ?_, ?_, ?_, ?_, trivial⟩
  · grind
  · grind
  · grind
  · refine sound_field (sound_braced rfl ?_) "body"
    refine ⟨?_, ?_, ?_, trivial⟩ <;> grind

@[grind ←] lemma sound_anyTypeDeclaration (hg : g.IsSound) : Sound g.anyTypeDeclaration := by
  unfold anyTypeDeclaration
  grind

@[grind ←] lemma sound_package (hg : g.IsSound) : Sound g.package := by
  unfold package
  grind

@[grind ←] lemma sound_importDeclaration : Sound importDeclaration := by
  unfold importDeclaration
  grind

@[grind ←] lemma sound_modulesAfter (word : String) : Sound (modulesAfter word) := by
  unfold modulesAfter
  grind

@[grind ←] lemma sound_directive : Sound directive := by
  refine sound_choice ⟨?_, ?_, ?_, ?_, ?_, trivial⟩ <;> grind

@[grind ←] lemma sound_moduleDeclaration (hg : g.IsSound) : Sound g.moduleDeclaration := by
  unfold moduleDeclaration
  grind

@[grind ←] lemma sound_declaration (hg : g.IsSound) : Sound g.declaration := by
  unfold declaration
  grind

/-! ### Statements -/

@[grind ←] lemma sound_anyBlock (hg : g.IsSound) : Sound g.anyBlock := by
  unfold anyBlock
  grind

@[grind ←] lemma sound_forEach (hg : g.IsSound) : Sound g.forEach := by
  unfold forEach
  grind

@[grind ←] lemma sound_forLoop (hg : g.IsSound) : Sound g.forLoop := by
  have hinit : Sound (opt [separated "," (field "init" g.expression)]) := by grind
  refine sound_rule rfl ⟨?_, ?_, ?_, ?_, ?_, ?_, ?_, ?_, trivial⟩ <;> grind

@[grind ←] lemma sound_catchClause (hg : g.IsSound) : Sound g.catchClause := by
  unfold catchClause
  grind

@[grind ←] lemma sound_finallyClause (hg : g.IsSound) : Sound g.finallyClause := by
  unfold finallyClause
  grind

@[grind ←] lemma sound_resource (hg : g.IsSound) : Sound g.resource := by
  refine sound_rule rfl ⟨sound_choice ⟨?_, ?_, trivial⟩, trivial⟩
  · grind
  · refine Gives.bind (sound_expression hg) fun trees ms htrees => ?_
    split
    · split
      · exact gives_pure htrees
      · exact gives_failure
    · exact gives_failure

@[grind ←] lemma sound_tryStatement (hg : g.IsSound) : Sound g.tryStatement := by
  unfold tryStatement
  grind

lemma allSound_keywordStatements (hg : g.IsSound) : AllSound g.keywordStatements := by
  unfold keywordStatements
  grind

@[grind ←] lemma sound_anyStatement (hg : g.IsSound) : Sound g.anyStatement := by
  refine sound_choice (((AllSound.append ?_ (allSound_keywordStatements hg))).append ?_) <;> grind

@[grind ←] lemma sound_topLevel (hg : g.IsSound) : Sound g.topLevel := by
  unfold topLevel
  grind

end Grammar

/-! ## Sources -/

/-- The grammar is sound at every level. At level zero no part reads anything, and every further
level is made of the one before. -/
lemma isSound_grammar (level : Nat) : (grammar level).IsSound := by
  induction level with
  | zero => constructor <;> intros <;> exact gives_failure
  | succ level ih =>
    constructor
    · exact fun mayBeLambda => Grammar.sound_anyExpression ih mayBeLambda
    · exact fun mayBeLambda => Grammar.sound_anySigned ih mayBeLambda
    · exact Grammar.sound_anyArrayInitializer ih
    · exact Grammar.sound_anyRecordPattern ih
    · exact Grammar.sound_anyType ih
    · exact Grammar.sound_anyAnnotationUse ih
    · exact Grammar.sound_anyAnnotationValue ih
    · exact Grammar.sound_anyParameters ih
    · exact Grammar.sound_anyClassBody ih
    · exact Grammar.sound_anyTypeDeclaration ih
    · exact Grammar.sound_anyBlock ih
    · exact Grammar.sound_anyStatement ih

/-- What is read from the tokens of a source bears their literals, up to the token where reading
ends. -/
lemma bearsAll_statements {ts : List Token} (htyped : Typed ts) :
    ∃ used, ts = used ++ (statements ts).2 ∧ BearsAll (statements ts).1 (marks used) := by
  have hmany : Sound (many [(grammar (levelsPerToken * (ts.length + 1))).topLevel]) :=
    sound_many ⟨Grammar.sound_topLevel (isSound_grammar _), trivial⟩
  rw [statements]
  split
  case h_1 _ result hrun => exact hmany ts result.1 result.2 htyped hrun
  case h_2 => exact ⟨[], rfl, .nil⟩

lemma Tree.anyError_append (ts us : List Tree) :
    anyError (ts ++ us) = (anyError ts || anyError us) := by
  induction ts with
  | nil => rfl
  | cons t ts ih => rw [List.cons_append, anyError, anyError, ih, Bool.or_assoc]

/-- A source without errors is read to its end, and its tree bears all its literals. If some token
were left there would be an error in the tree. -/
theorem Source.bears_tree {s : Source} (htyped : Typed s.tokens.tokens)
    (h : s.tree.hasError = false) :
    Bears s.tree (marks s.tokens.tokens) := by
  obtain ⟨used, hused, hfound⟩ := bearsAll_statements htyped
  -- A rest of the source would be an error, so all tokens were used.
  have hnone : ((statements s.tokens.tokens).2.head?.map (·.start)).or s.tokens.bad? = none := by
    cases herror : ((statements s.tokens.tokens).2.head?.map (·.start)).or s.tokens.bad? with
    | none => rfl
    | some start =>
      have : s.tree.hasError = true := by
        simp [Source.tree, Tree.hasError, Tree.anyError_append, Tree.anyError, herror]
      rw [this] at h
      cases h
  have hrest : (statements s.tokens.tokens).2 = [] := by
    rw [Option.or_eq_none_iff] at hnone
    simpa using hnone.1
  rw [hrest, List.append_nil] at hused
  have hchildren : s.tree.children = (statements s.tokens.tokens).1 := by
    simp [Source.tree, hnone]
  rw [← hused] at hfound
  exact .inner rfl rfl (by simp [Source.tree]) (hchildren ▸ hfound)

end ShapeLint.Java
