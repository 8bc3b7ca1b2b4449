import ShapeLint.Pattern.Compile
import ShapeLint.Proofs.Floating
import ShapeLint.Proofs.Primary

/-!
# What compiled patterns look like

Not every expression of the pattern language is written by a text. What a text compiles to has no
reserved word for a name, and each of its literals has a value of its type. It has none of the forms
that nothing is written as, and the mark for any arguments stands in it only where arguments stand,
and alone there (`Pattern.Formed`).

`Yields` is how this comes out of the readers: whatever a reader reads from whatever text has a
property. One lemma for each way of putting readers together carries the property along, and the
induction on the nesting that is left closes the knot that `operandWithin` ties. Resolving a surface
expression then keeps its form.

That no name is reserved or is the mark for any expression is not a property of the reader of names
alone. Such a word is never read as a name because something else is tried on the same text before,
so this is told text by text (`YieldsAt`).
-/

namespace ShapeLint

open Grammar (Opening IsName Surface Spelling Extent DoubleText IntegerText)

/-! ## Forms -/

section
variable {Lit Loc : Type} (good : Lit → Prop) (fitting : List (Expr Lit Loc) → Prop)

mutual

/-- The expression is of a form that can be written, with good literals and fitting lists of
arguments. What is good and what fits is left open, as surface expressions and patterns differ in
it: the former have spellings for literals, and their lists of arguments are not yet checked.

No text writes a method of the current object without naming the object, the mark for any arguments
outside of arguments, or a variant that is not known. -/
def Expr.Formed : Expr Lit Loc → Prop
  | .wildcard _ | .anyLiteral _ _ | .null _ | .this _ | .anyLambda _ => True
  | .reference name _ => IsName name ∧ name ≠ "_"
  | .literal lit _ => good lit
  | .field receiver name _ => receiver.Formed ∧ IsName name
  | .method receiver name args _ =>
    receiver.Formed ∧ IsName name ∧ fitting args ∧ Expr.FormedArguments args
  | .call name args _ => (IsName name ∧ name ≠ "_") ∧ fitting args ∧ Expr.FormedArguments args
  | .creation name args _ => IsName name ∧ fitting args ∧ Expr.FormedArguments args
  | .typeTest target typeName _ => target.Formed ∧ IsName typeName
  | .unary _ operand _ | .update _ operand _ => operand.Formed
  | .binary _ lhs rhs _ => lhs.Formed ∧ rhs.Formed
  | .element array index _ => array.Formed ∧ index.Formed
  | .ownMethod _ _ _ | .anyArguments _ | .unknown _ _ => False

/-- Each of the arguments is the mark for any arguments, or of a form that can be written. -/
def Expr.FormedArguments : List (Expr Lit Loc) → Prop
  | [] => True
  | e :: es => (e.isAnyArguments = true ∨ e.Formed) ∧ Expr.FormedArguments es

end

lemma Expr.formedArguments_iff {es : List (Expr Lit Loc)} :
    Expr.FormedArguments good fitting es ↔
      ∀ e ∈ es, e.isAnyArguments = true ∨ e.Formed good fitting := by
  induction es with
  | nil => simp [Expr.FormedArguments]
  | cons e es ih => simp [Expr.FormedArguments, ih]

end

/-- A literal of a pattern: its value is of its type, an integer is not negative, since a sign is an
operator of its own, and a double is a number or an infinity. -/
def Constant.Formed : Constant → Prop
  | ⟨.int, .int i⟩ => 0 ≤ i
  | ⟨.double, .double d⟩ => d ≠ .nan
  | ⟨.string, .text _⟩ | ⟨.boolean, .bool _⟩ => True
  | _ => False

lemma Constant.Formed.ne_none {c : Constant} (h : c.Formed) : c.value ≠ .none := by
  obtain ⟨type, value⟩ := c
  rintro rfl
  cases type <;> exact h

/-- The value of such a literal is the same as itself. Among all values only a double that is no
number is not. -/
lemma Constant.Formed.same_self {c : Constant} (h : c.Formed) : c.value.same c.value = true := by
  unfold Constant.Formed at h
  split at h
  case h_1 i => exact beq_self_eq_true i
  case h_2 d =>
    cases d with
    | nan => exact absurd rfl h
    | infinite negative => exact beq_self_eq_true negative
    | finite negative m e => exact beq_self_eq_true _
  case h_3 points => exact beq_self_eq_true points
  case h_4 b => cases b <;> rfl
  case h_5 => cases h

namespace Pattern

/-- The mark for any arguments is not among the patterns, or stands alone there. This is what
compiling checks after the arguments have been resolved. -/
def Unmixed (ps : List Pattern) : Prop :=
  ps.length ≤ 1 ∨ ∀ p ∈ ps, p.isAnyArguments = false

/-- The pattern is of a form that a text can have. -/
abbrev Formed (p : Pattern) : Prop :=
  Expr.Formed Constant.Formed Unmixed p

end Pattern

namespace Grammar

/-- The spelling of a literal that is spelled as the grammar asks. Strings may still have escapes
that mean nothing; these fail when the literal is given its value. -/
def Spelling.Legible : Spelling → Prop
  | .double text => DoubleText text
  | .integer text => IntegerText text
  | .string _ | .boolean _ => True

/-- The surface expression is of a form that can be read. -/
abbrev Legible (e : Surface) : Prop :=
  Expr.Formed Spelling.Legible (fun _ => True) e

/-- The surface expression is of a form that can be read as an argument, where the mark for any
arguments is one. -/
def LegibleArgument (e : Surface) : Prop :=
  e.isAnyArguments = true ∨ Legible e

namespace Reader

variable {α β : Type}

/-- Whatever is read, from whatever text and wherever the mark stands, has a property. Nothing is
said of texts that are not read. -/
def Yields (p : Reader α) (Q : α → Prop) : Prop :=
  ∀ mark s a rest mark', p mark s = .ok a rest mark' → Q a

/-- Whatever is read from the text has a property. This is needed where the property depends on what
else could not be read from the same text. -/
def YieldsAt (p : Reader α) (s : List Char) (Q : α → Prop) : Prop :=
  ∀ mark a rest mark', p mark s = .ok a rest mark' → Q a

lemma Yields.at {p : Reader α} {Q : α → Prop} (h : Yields p Q) (s : List Char) : YieldsAt p s Q :=
  fun mark a rest mark' heq => h mark s a rest mark' heq

lemma yields_of_at {p : Reader α} {Q : α → Prop} (h : ∀ s, YieldsAt p s Q) : Yields p Q :=
  fun mark s a rest mark' heq => h s mark a rest mark' heq

/-! ## Readers on one text -/

section At
variable {p q : Reader α} {s : List Char} {P Q : α → Prop}

lemma YieldsAt.mono (h : YieldsAt p s P) (hPQ : ∀ a, P a → Q a) : YieldsAt p s Q :=
  fun mark a rest mark' heq => hPQ a (h mark a rest mark' heq)

/-- What is read behind has the property for whatever may be read in front. The text behind is not
known, so the second reader has to yield it on all texts. -/
lemma YieldsAt.bind {f : α → Reader β} {R : β → Prop} (h : YieldsAt p s Q)
    (hf : ∀ a, Q a → Yields (f a) R) :
    YieldsAt (p >>= f) s R := by
  intro mark b rest mark' heq
  change andThen p f mark s = .ok b rest mark' at heq
  unfold andThen at heq
  split at heq
  case h_1 a t mark'' hp => exact hf a (h _ _ _ _ hp) _ _ _ _ _ heq
  case h_2 => cases heq
  case h_3 => cases heq

/-- Counting what is left takes nothing from the text. -/
lemma YieldsAt.left_bind {f : Nat → Reader β} {R : β → Prop} (h : YieldsAt (f s.length) s R) :
    YieldsAt (left >>= f) s R :=
  fun mark b rest mark' heq => h mark b rest mark' heq

lemma not_reads_of_fail {mark mark' : Nat} (h : p mark s = .fail mark') (a : α) (rest : List Char) :
    ¬ Reads p s a rest := by
  intro hreads
  obtain ⟨mark'', hok⟩ := hreads mark
  rw [h] at hok
  cases hok

/-- Looking ahead takes nothing from the text, and tells that something is not read from it. A name
is found not to be reserved in this way. -/
theorem YieldsAt.butNot_bind {f : Unit → Reader β} {R : β → Prop}
    (h : (∀ a rest, ¬ Reads p s a rest) → YieldsAt (f ()) s R) : YieldsAt (butNot p >>= f) s R := by
  intro mark b rest mark' heq
  change andThen (butNot p) f mark s = .ok b rest mark' at heq
  unfold andThen butNot at heq
  cases hp : p mark s with
  | ok a t mark'' =>
    rw [hp] at heq
    cases heq
  | fail mark'' =>
    rw [hp] at heq
    exact h (not_reads_of_fail hp) _ _ _ _ heq
  | deep =>
    rw [hp] at heq
    cases heq

/-- The second alternative is tried on a text from which the first is not read. That a name is not
the mark for any expression comes from the order of the alternatives, through this. -/
lemma YieldsAt.orElse (hp : YieldsAt p s Q) (hq : (∀ a rest, ¬ Reads p s a rest) → YieldsAt q s Q) :
    YieldsAt (orElse p q) s Q := by
  intro mark a rest mark' heq
  unfold Reader.orElse at heq
  split at heq
  case h_1 mark'' hfail => exact hq (not_reads_of_fail hfail) _ _ _ _ heq
  case h_2 => exact hp _ _ _ _ heq

lemma yieldsAt_firstOf {ps : List (Reader α)} (h : ∀ p ∈ ps, YieldsAt p s Q) :
    YieldsAt (firstOf ps) s Q := by
  induction ps with
  | nil => exact fun _ _ _ _ heq => nomatch heq
  | cons p ps ih =>
    exact (h p (List.mem_cons_self ..)).orElse fun _ => ih fun q hq =>
      h q (List.mem_cons_of_mem p hq)

lemma YieldsAt.rule (h : YieldsAt p s Q) : YieldsAt (rule p) s Q := by
  intro mark a rest mark' heq
  unfold Reader.rule at heq
  split at heq
  case h_1 => cases heq
  case h_2 => exact h _ _ _ _ heq

lemma yieldsAt_lexeme {f : List Char → Option (α × List Char)}
    (h : ∀ {a rest}, f s = some (a, rest) → Q a) :
    YieldsAt (lexeme f) s Q := by
  intro mark a rest mark' heq
  unfold lexeme at heq
  split at heq
  case h_1 b t hf =>
    obtain ⟨rfl, -, -⟩ := Reply.ok.inj heq
    exact h hf
  case h_2 => cases heq

end At

/-! ## Readers on all texts -/

lemma yields_true (p : Reader α) : Yields p fun _ => True :=
  fun _ _ _ _ _ _ => trivial

lemma Yields.mono {p : Reader α} {Q R : α → Prop} (h : Yields p Q)
    (hQR : ∀ a, Q a → R a) : Yields p R :=
  yields_of_at fun s => (h.at s).mono hQR

lemma yields_pure {Q : α → Prop} {a : α} (h : Q a) : Yields (pure a) Q := by
  intro mark s b rest mark' heq
  obtain ⟨rfl, -, -⟩ := Reply.ok.inj heq
  exact h

lemma Yields.bind {p : Reader α} {f : α → Reader β} {Q : α → Prop} {R : β → Prop} (h : Yields p Q)
    (hf : ∀ a, Q a → Yields (f a) R) : Yields (p >>= f) R :=
  yields_of_at fun s => (h.at s).bind hf

/-- What is read in front does not matter. -/
lemma Yields.after {p : Reader α} {f : α → Reader β} {R : β → Prop} (hf : ∀ a, Yields (f a) R) :
    Yields (p >>= f) R :=
  (yields_true p).bind fun a _ => hf a

lemma Yields.orElse {p q : Reader α} {Q : α → Prop} (hp : Yields p Q) (hq : Yields q Q) :
    Yields (orElse p q) Q :=
  yields_of_at fun s => (hp.at s).orElse fun _ => hq.at s

lemma yields_firstOf {Q : α → Prop} {ps : List (Reader α)} (h : ∀ p ∈ ps, Yields p Q) :
    Yields (firstOf ps) Q :=
  yields_of_at fun s => yieldsAt_firstOf fun p hp => (h p hp).at s

lemma Yields.optional {p : Reader α} {Q : α → Prop} (h : Yields p Q) :
    Yields (optional p) fun o => ∀ a ∈ o, Q a := by
  intro mark s o rest mark' heq
  unfold Reader.optional at heq
  split at heq
  case h_1 a t mark'' hp =>
    obtain ⟨rfl, -, -⟩ := Reply.ok.inj heq
    intro b hb
    obtain rfl : a = b := Option.some.inj hb
    exact h _ _ _ _ _ hp
  case h_2 =>
    obtain ⟨rfl, -, -⟩ := Reply.ok.inj heq
    exact nofun
  case h_3 => cases heq

/-- A repetition yields a list of items that have the property of its items. -/
lemma Yields.many {p : Reader α} {Q : α → Prop} (h : Yields p Q) :
    Yields (many p) fun as => ∀ a ∈ as, Q a := by
  intro mark s
  -- along the recursion of `many`; the item that reads nothing and ends the repetition, in the last
  -- case, is an item of the list too
  fun_induction Reader.many p mark s with
  | case1 =>
    intro as rest mark' heq
    cases heq
  | case2 =>
    intro as rest mark' heq
    obtain ⟨rfl, -, -⟩ := Reply.ok.inj heq
    exact fun a ha => absurd ha List.not_mem_nil
  | case3 mark s a t mark'' hp hlt as rest mark''' hmany ih =>
    intro bs rest' mark' heq
    obtain ⟨rfl, -, -⟩ := Reply.ok.inj heq
    intro b hb
    rcases List.mem_cons.mp hb with rfl | hb
    · exact h _ _ _ _ _ hp
    · exact ih _ _ _ hmany b hb
  | case4 mark s a t mark'' hp hlt hno ih =>
    intro bs rest' mark' heq
    exact absurd heq (hno bs rest' mark')
  | case5 mark s a t mark'' hp hge =>
    intro bs rest' mark' heq
    obtain ⟨rfl, -, -⟩ := Reply.ok.inj heq
    intro b hb
    obtain rfl := List.mem_singleton.mp hb
    exact h _ _ _ _ _ hp

lemma Yields.rule {p : Reader α} {Q : α → Prop} (h : Yields p Q) : Yields (rule p) Q :=
  yields_of_at fun s => (h.at s).rule

lemma yields_lexeme {f : List Char → Option (α × List Char)} {Q : α → Prop}
    (h : ∀ {s a rest}, f s = some (a, rest) → Q a) : Yields (lexeme f) Q :=
  yields_of_at fun _ => yieldsAt_lexeme h

end Reader

open Reader
open Text (isNameChar)

/-! ## Leaves -/

lemma YieldsAt.leaf {α : Type} {p : Reader α} {node : α → Extent → Surface} {s : List Char}
    {P : α → Prop} {Q : Surface → Prop} (h : YieldsAt p s P) (hnode : ∀ a x, P a → Q (node a x)) :
    YieldsAt (leaf p node) s Q :=
  YieldsAt.rule
    (YieldsAt.left_bind (h.bind fun a ha => Yields.after fun _ => yields_pure (hnode a _ ha)))

lemma Yields.leaf {α : Type} {p : Reader α} {node : α → Extent → Surface} {P : α → Prop}
    {Q : Surface → Prop} (h : Yields p P) (hnode : ∀ a x, P a → Q (node a x)) :
    Yields (leaf p node) Q :=
  yields_of_at fun s => YieldsAt.leaf (h.at s) hnode

/-- A name that is read is a whole word at the front of the text, and no character that could go on
with it follows. -/
theorem isWord_of_nameToken? {s name rest : List Char} (h : nameToken? s = some (name, rest)) :
    IsWord (String.ofList name) ∧ s = name ++ rest ∧ Halts isNameChar rest := by
  unfold nameToken? at h
  split at h
  · cases h
  · split at h
    case isTrue c cs hc =>
      obtain ⟨rfl, rfl⟩ := Prod.mk.inj (Option.some.inj h)
      refine ⟨⟨c, _, String.toList_ofList, hc, fun d hd => List.mem_takeWhile_imp hd⟩, ?_, ?_⟩
      · rw [List.cons_append, List.takeWhile_append_dropWhile]
      · intro d hd
        have hhead := List.head?_dropWhile_not isNameChar cs
        rw [hd] at hhead
        simpa using hhead
    case isFalse => cases h

/-- What is read as a name is one, and it stands at the front of the text. The second part is kept
so that the name can be compared with what else could have been read there. -/
lemma yieldsAt_identifier (s : List Char) :
    YieldsAt identifier s fun name =>
      IsName name ∧ ∃ rest, s = name.toList ++ rest ∧ Halts isNameChar rest := by
  refine YieldsAt.rule (YieldsAt.butNot_bind fun hfree => ?_)
  have hname : YieldsAt (rule (lexeme nameToken?)) s fun name =>
      IsName (String.ofList name) ∧ ∃ rest, s = name ++ rest ∧ Halts isNameChar rest := by
    refine YieldsAt.rule (yieldsAt_lexeme ?_)
    intro name rest h
    obtain ⟨hword, hs, hend⟩ := isWord_of_nameToken? h
    refine ⟨⟨hword, fun hreserved => ?_⟩, rest, hs, hend⟩
    -- A reserved word would have been found by looking ahead.
    have hall : ∀ w ∈ reservedWords, ∀ c ∈ w.toList, isNameChar c = true := by decide
    have htoken := wordToken?_append hall hword.all hend
    rw [String.toList_ofList, ← hs, if_pos hreserved] at htoken
    exact hfree _ _ (reads_lexeme htoken).rule
  refine hname.bind fun name h => yields_pure ?_
  rwa [String.toList_ofList]

lemma yields_identifier : Yields identifier IsName :=
  yields_of_at fun s => (yieldsAt_identifier s).mono fun _ h => h.1

lemma yields_anyOfType : Yields anyOfType Legible := by
  refine Yields.leaf (yields_true _) fun type x _ => ?_
  split <;> trivial

lemma yields_literal : Yields literal Legible := by
  refine Yields.rule (yields_firstOf fun p hp => ?_)
  rcases List.mem_cons.mp hp with rfl | hp
  · exact Yields.leaf (yields_lexeme doubleText_of_doubleToken?) fun _ _ h => h
  rcases List.mem_cons.mp hp with rfl | hp
  · exact Yields.leaf (yields_lexeme integerText_of_integerToken?) fun _ _ h => h
  · obtain rfl := List.mem_singleton.mp hp
    exact Yields.leaf (yields_true _) fun _ _ _ => trivial

lemma yields_keyword : Yields keyword Legible := by
  refine Yields.leaf (yields_true _) fun w x _ => ?_
  split <;> trivial

lemma yields_wildcard : Yields wildcard Legible :=
  Yields.leaf (yields_true _) fun _ _ _ => trivial

lemma reads_mark {s : List Char} (hs : Halts isNameChar s) :
    Reads wildcard ('_' :: s) (.wildcard ⟨s.length + 1, s.length⟩) s :=
  Reads.leaf ((reads_word "_" s).bind (fails_nameChar hs).butNot)

/-- Where the mark for any expression is not read, a name is not that mark. -/
lemma yieldsAt_unmarked {s : List Char} (hmark : ∀ a rest, ¬ Reads wildcard s a rest) :
    YieldsAt identifier s fun name => IsName name ∧ name ≠ "_" := by
  refine (yieldsAt_identifier s).mono fun name ⟨hname, rest, hs, hend⟩ => ⟨hname, ?_⟩
  rintro rfl
  have hs : s = '_' :: rest := hs
  subst hs
  exact hmark _ _ (reads_mark hend)

lemma yieldsAt_reference {s : List Char} (hmark : ∀ a rest, ¬ Reads wildcard s a rest) :
    YieldsAt reference s Legible :=
  YieldsAt.leaf (yieldsAt_unmarked hmark) fun _ _ h => h

/-! ## Brackets

From here on `expression` reads what stands in brackets, and what it reads is legible. -/

section
variable {expression : Reader Surface} (hexpr : Yields expression Legible)
include hexpr

/-- An argument that is read is the mark for any arguments or an expression. -/
lemma yields_argument : Yields (argument expression) LegibleArgument := by
  have hmark : Yields anyArguments LegibleArgument :=
    Yields.leaf (yields_true _) fun _ _ _ => .inl rfl
  exact Yields.rule (hmark.orElse (hexpr.mono fun _ h => .inr h))

lemma yields_argumentList :
    Yields (argumentList expression) fun es => ∀ e ∈ es, LegibleArgument e := by
  have hfurther : Yields (furtherArgument expression) LegibleArgument :=
    Yields.after fun _ => Yields.after fun _ => Yields.after fun _ => yields_argument hexpr
  refine Yields.rule ((yields_argument hexpr).bind fun e he => hfurther.many.bind fun es hes =>
    yields_pure ?_)
  intro e' he'
  rcases List.mem_cons.mp he' with rfl | he'
  · exact he
  · exact hes e' he'

lemma yields_arguments :
    Yields (arguments expression) (Expr.FormedArguments Spelling.Legible fun _ => True) := by
  refine Yields.rule (Yields.after fun _ => Yields.after fun _ => Yields.after fun _ =>
    (yields_argumentList hexpr).optional.bind fun args hargs => Yields.after fun _ =>
      Yields.after fun _ => yields_pure ?_)
  rw [Expr.formedArguments_iff]
  cases args with
  | none => exact nofun
  | some es => exact hargs es rfl

lemma yields_grouped : Yields (grouped expression) Legible :=
  Yields.rule (Yields.after fun _ => Yields.after fun _ => hexpr.bind fun _ h =>
    Yields.after fun _ => Yields.after fun _ => yields_pure h)

lemma yields_creation : Yields (creation expression) Legible := by
  have hparts : Yields (do
      word "new"
      butNot nameChar
      skip
      let typeName ← identifier
      let args ← arguments expression
      pure (typeName, args)) fun parts =>
        IsName parts.1 ∧ Expr.FormedArguments Spelling.Legible (fun _ => True) parts.2 :=
    Yields.after fun _ => Yields.after fun _ => Yields.after fun _ =>
      yields_identifier.bind fun _ hname =>
      (yields_arguments hexpr).bind fun _ hargs => yields_pure ⟨hname, hargs⟩
  exact Yields.leaf hparts fun _ _ h => ⟨h.1, trivial, h.2⟩

lemma yieldsAt_call {s : List Char} (hmark : ∀ a rest, ¬ Reads wildcard s a rest) :
    YieldsAt (call expression) s Legible := by
  have hparts : YieldsAt (do
      let name ← identifier
      let args ← arguments expression
      pure (name, args)) s fun parts =>
        (IsName parts.1 ∧ parts.1 ≠ "_") ∧
            Expr.FormedArguments Spelling.Legible (fun _ => True) parts.2 :=
    (yieldsAt_unmarked hmark).bind fun _ hname => (yields_arguments hexpr).bind fun _ hargs =>
      yields_pure ⟨hname, hargs⟩
  exact YieldsAt.leaf hparts fun _ _ h => ⟨h.1, trivial, h.2⟩

end

/-! ## Selectors and prefix operators -/

/-- Putting something behind a legible expression keeps it legible, as often as it is done.
Selectors and tails are put behind an operand in this way. -/
lemma legible_foldl {γ : Type} {attach : Surface → γ → Surface} {P : γ → Prop}
    (h : ∀ e x, Legible e → P x → Legible (attach e x)) {xs : List γ} (hxs : ∀ x ∈ xs, P x)
    {e : Surface} (he : Legible e) :
    Legible (xs.foldl attach e) := by
  induction xs generalizing e with
  | nil => exact he
  | cons x xs ih =>
    exact ih (fun y hy => hxs y (List.mem_cons_of_mem x hy))
      (h e x he (hxs x (List.mem_cons_self ..)))

/-- A selector whose parts are legible. -/
def Selector.Legible : Selector → Prop
  | .field name _ => IsName name
  | .method name args _ => IsName name ∧ Expr.FormedArguments Spelling.Legible (fun _ => True) args
  | .index e _ => Grammar.Legible e

lemma Selector.legible_attach (e : Surface) (x : Selector) (he : Grammar.Legible e)
    (hx : x.Legible) :
    Grammar.Legible (Selector.attach e x) := by
  cases x with
  | field name after => exact ⟨he, hx⟩
  | method name args after => exact ⟨he, hx.1, trivial, hx.2⟩
  | index i after => exact ⟨he, hx⟩

section

variable {nested : Nested} (hnested : ∀ opening, Yields (nested.expression opening) Legible)
include hnested

/-- A primary is legible whichever form it has. The last two forms are told text by text, since a
name is not the mark for any expression only because the form in front of them has failed. -/
lemma yields_primary : Yields (primary nested) Legible := by
  refine Yields.rule (yields_of_at fun s => ?_)
  have hnames (hmark : ∀ a rest, ¬ Reads wildcard s a rest) :
      YieldsAt (firstOf [call (nested.expression .call), reference]) s Legible := by
    refine yieldsAt_firstOf ?_
    simp only [List.forall_mem_cons, List.not_mem_nil, false_imp_iff, implies_true, and_true]
    exact ⟨yieldsAt_call (hnested .call) hmark, yieldsAt_reference hmark⟩
  exact ((yields_grouped (hnested .group)).at s).orElse fun _ =>
    ((yields_creation (hnested .creation)).at s).orElse fun _ =>
    (yields_anyOfType.at s).orElse fun _ => (yields_literal.at s).orElse fun _ =>
      (yields_keyword.at s).orElse fun _ => (yields_wildcard.at s).orElse hnames

lemma yields_selector : Yields (selector nested) Selector.Legible := by
  have hmember : Yields (member (nested.expression .member)) Selector.Legible := by
    refine Yields.rule (Yields.after fun _ => Yields.after fun _ =>
      yields_identifier.bind fun name hname =>
      (yields_arguments (hnested .member)).optional.bind fun args hargs => Yields.after fun after =>
        yields_pure ?_)
    cases args with
    | none => exact hname
    | some args => exact ⟨hname, hargs args rfl⟩
  have hindex : Yields (index nested) Selector.Legible :=
    Yields.rule (Yields.after fun _ => Yields.after fun _ => Yields.after fun _ =>
      (hnested .index).bind fun e he =>
      Yields.after fun _ => Yields.after fun _ => Yields.after fun _ => yields_pure he)
  exact Yields.rule (Yields.after fun _ => hmember.orElse hindex)

lemma yields_selected : Yields (selected nested) Legible := by
  refine Yields.rule (Yields.after fun before => (yields_primary hnested).bind fun head hhead =>
    (yields_selector hnested).many.bind fun selectors hselectors => ?_)
  have hresult : Legible (selectors.foldl Selector.attach head) :=
    legible_foldl Selector.legible_attach hselectors hhead
  refine Yields.after fun step => ?_
  cases step with
  | none => exact yields_pure hresult
  | some up => exact Yields.after fun after => yields_pure hresult

lemma yields_prefixed {operand : Reader Surface} (hoperand : Yields operand Legible) :
    Yields (prefixed operand nested) Legible := by
  refine Yields.rule (Yields.after fun before => Yields.after fun step => ?_)
  cases step with
  | some up =>
    exact Yields.after fun _ => hoperand.bind fun e he => Yields.after fun after => yields_pure he
  | none =>
    refine Yields.after fun op => ?_
    cases op with
    | some op =>
      exact Yields.after fun _ => hoperand.bind fun e he => Yields.after fun after => yields_pure he
    | none => exact yields_selected hnested

end

/-! ## Binary operators and nesting -/

/-- A tail whose parts are legible. -/
def Tail.Legible : Tail → Prop
  | .operator _ rhs _ => Grammar.Legible rhs
  | .typeTest typeName _ => IsName typeName

lemma Tail.legible_attach (e : Surface) (x : Tail) (he : Grammar.Legible e) (hx : x.Legible) :
    Grammar.Legible (Tail.attach e x) := by
  cases x with
  | operator op rhs after => exact ⟨he, hx⟩
  | typeTest typeName after => exact ⟨he, hx⟩

lemma yields_chain {operand : Reader Surface} {tail : Reader Tail} (ho : Yields operand Legible)
    (ht : Yields tail Tail.Legible) : Yields (chain operand tail) Legible :=
  Yields.rule (ho.bind fun _ he => ht.many.bind fun _ htails =>
    yields_pure (legible_foldl Tail.legible_attach htails he))

lemma yields_operatorTail {operand : Reader Surface} (op : Reader BinaryOperator)
    (ho : Yields operand Legible) :
    Yields (operatorTail op operand) Tail.Legible :=
  Yields.rule (Yields.after fun _ => Yields.after fun _ => Yields.after fun _ => ho.bind fun _ he =>
    Yields.after fun _ => yields_pure he)

lemma yields_typeTestTail : Yields typeTestTail Tail.Legible :=
  Yields.rule (Yields.after fun _ => Yields.after fun _ => Yields.after fun _ =>
    Yields.after fun _ =>
    yields_identifier.bind fun _ hname => Yields.after fun _ => yields_pure hname)

/-- Expressions are legible if their operands are. Each level is a chain over the next tighter
one. -/
lemma yields_expressionOver {operand : Reader Surface} (ho : Yields operand Legible) :
    Yields (expressionOver operand) Legible := by
  have hproduct : Yields (multiplicative operand) Legible :=
    yields_chain ho (yields_operatorTail _ ho)
  have hsum : Yields (additive operand) Legible :=
    yields_chain hproduct (yields_operatorTail _ hproduct)
  have hshift : Yields (shift operand) Legible := yields_chain hsum (yields_operatorTail _ hsum)
  have hrelational : Yields (relational operand) Legible :=
    yields_chain hshift (Yields.rule (yields_typeTestTail.orElse (yields_operatorTail _ hshift)))
  exact yields_chain hrelational (yields_operatorTail _ hrelational)

/-- Operands are legible however much room there is for them. -/
lemma yields_operandWithin (room : Room Opening) : Yields (operandWithin room) Legible := by
  -- on the room: what stands in brackets or behind a sign is read with less of it
  induction room with
  | none => exact nofun
  | more inside ih =>
    rw [operandWithin_more]
    exact yields_prefixed (fun o => yields_expressionOver (ih o)) (ih .sign)

lemma yields_contextSuffix : Yields contextSuffix fun suffix => suffix.1 ≠ .any := by
  have hword : Yields contextWord fun context => context ≠ .any := by
    refine Yields.rule (yields_lexeme ?_)
    intro s context rest h
    obtain ⟨⟨w, t⟩, -, heq⟩ := Option.map_eq_some_iff.mp h
    obtain ⟨rfl, -⟩ := Prod.mk.inj heq
    split <;> exact nofun
  exact Yields.rule (Yields.after fun _ => Yields.after fun _ => Yields.after fun _ =>
    hword.bind fun _ hcontext => Yields.after fun _ => Yields.after fun _ => yields_pure hcontext)

/-- Whatever text is read, the expression is legible, and a suffix asks for a context. -/
lemma yields_whole (room : Room Opening) :
    Yields (whole room) fun r => Legible r.1 ∧ ∀ suffix ∈ r.2, suffix.1 ≠ .any := by
  have hexpr : Yields (expression room) Legible := yields_expressionOver (yields_operandWithin room)
  exact Yields.rule (Yields.after fun _ => hexpr.bind fun _ he => Yields.after fun _ =>
    yields_contextSuffix.optional.bind fun _ hsuffix => Yields.after fun _ => Yields.after fun _ =>
      yields_pure ⟨he, hsuffix⟩)

end Grammar

/-! ## Integers

A literal has no sign, so that its value is not negative. -/

namespace Literal

open Text (trimEnd)

lemma mem_of_mem_trimEnd {p : Char → Bool} {s : List Char} {c : Char}
    (h : c ∈ trimEnd p s) : c ∈ s :=
  List.mem_reverse.mp ((List.dropWhile_sublist p).mem (List.mem_reverse.mp h))

/-- Digits without a minus sign have a value that is not negative, as no other sign makes it so. -/
lemma readInteger?_nonneg {radix : Nat} {s : List Char} {i : Int} (hs : '-' ∉ s)
    (h : readInteger? radix s = some i) :
    0 ≤ i := by
  -- What is trimmed away is no sign, so there is none in front.
  have hsign : (splitSign (trimBlank s)).1 = false := by
    unfold splitSign
    split
    case h_1 rest heq =>
      have hmem : '-' ∈ trimBlank s := heq ▸ List.mem_cons_self ..
      exact absurd ((List.dropWhile_sublist _).mem (mem_of_mem_trimEnd hmem)) hs
    case h_2 => rfl
    case h_3 => rfl
  simp only [readInteger?, hsign, Bool.false_eq_true, if_false] at h
  split at h
  · cases h
  · obtain ⟨n, -, rfl⟩ : ∃ n, digitsValue? radix (dropMark radix (splitSign (trimBlank s)).2) =
        some n ∧ (n : Int) = i := by
      simpa [Option.bind_eq_some_iff] using h
    exact Int.natCast_nonneg n

lemma integer?_nonneg {s : List Char} {i : Int} (hs : '-' ∉ s)
    (h : integer? s = some i) : 0 ≤ i := by
  have hdigits : '-' ∉ trimEnd (fun c => c == 'l' || c == 'L') (withoutUnderscores s) :=
    fun hmem => hs (List.mem_filter.mp (mem_of_mem_trimEnd hmem)).1
  unfold integer? at h
  dsimp only at h
  split at h
  case h_1 c rest heq =>
    rw [heq, List.mem_cons, not_or] at hdigits
    have hrest := fun hmem => hdigits.2 (List.mem_cons_of_mem c hmem)
    split at h
    · exact readInteger?_nonneg hrest h
    · split at h
      · exact readInteger?_nonneg hrest h
      · exact readInteger?_nonneg hdigits.2 h
  case h_2 => exact readInteger?_nonneg hdigits h

end Literal

/-- An integer literal has no quote in it and no character that could go down. So where it stands in
a text, neither the strings of the text nor its nesting are changed by it. -/
theorem Grammar.IntegerText.not_mem {t : List Char} (h : IntegerText t) {c : Char}
    (hc : c ∈ ['"', '(', '[', '+', '-', '!']) : c ∉ t := by
  -- none of these characters is in any class that the digits or the marks come from
  have hclasses : ∀ c ∈ ['"', '(', '[', '+', '-', '!'],
      Grammar.isHexChar c = false ∧ Grammar.isBinaryChar c = false ∧ Text.isDigit c = false ∧
        Grammar.isNumeralChar c = false ∧ c ∉ ['0', 'x', 'X', 'b', 'B'] := by
    decide
  obtain ⟨hhex, hbinary, hdigit, hnumeral, hmarks⟩ := hclasses c hc
  have hno {class_ : Char → Bool} {digits : List Char} (hclass : class_ c = false)
      (hall : ∀ d ∈ digits, class_ d = true) : c ∉ digits := fun hmem => by
    rw [hall _ hmem] at hclass
    cases hclass
  simp only [List.mem_cons, List.not_mem_nil, or_false, not_or] at hmarks
  cases h with
  | hexadecimal hmark _ hdigits =>
    rcases hmark with rfl | rfl <;> simp [hno hhex hdigits, hmarks]
  | binary hmark _ hdigits =>
    rcases hmark with rfl | rfl <;> simp [hno hbinary hdigits, hmarks]
  | plain hw =>
    obtain ⟨d, ds, rfl, hd, hds⟩ := hw
    have hne : c ≠ d := by
      rintro rfl
      rw [hd] at hdigit
      cases hdigit
    simp [hne, hno hnumeral hds]

/-! ## Resolving -/

/-- What a computation that succeeds has gone through: its first step has succeeded, and what
follows it too. -/
lemma exists_of_bind_eq_ok {ε α β : Type} {x : Except ε α} {f : α → Except ε β} {b : β}
    (h : (x >>= f) = .ok b) :
    ∃ a, x = .ok a ∧ f a = .ok b := by
  cases x with
  | error e => cases h
  | ok a => exact ⟨a, rfl, h⟩

/-- A computation that fails has failed in its first step or behind it. -/
theorem error_of_bind_eq_error {ε α β : Type} {x : Except ε α} {f : α → Except ε β} {e : ε}
    (h : (x >>= f) = .error e) :
    x = .error e ∨ ∃ a, x = .ok a ∧ f a = .error e := by
  cases x with
  | error e' =>
    have he : (.error e' : Except ε β) = .error e := h
    exact .inl (congrArg _ (Except.error.inj he))
  | ok a => exact .inr ⟨a, rfl, h⟩

/-- A computation whose result passes a check has succeeded. With it, that a text compiles can be
decided by running it, without writing out what it compiles to. -/
theorem exists_of_any_toOption {ε α : Type} {x : Except ε α} {check : α → Bool}
    (h : x.toOption.any check = true) :
    ∃ a, x = .ok a ∧ check a = true := by
  cases x with
  | error e => cases h
  | ok a => exact ⟨a, rfl, h⟩

namespace Pattern

/-- The value that a spelled literal is given is one that a literal of a pattern can have. -/
lemma constant_formed {text : List Char} {x : Extent} {lit : Spelling} {c : Constant}
    (hl : lit.Legible) (h : constant text x lit = .ok c) : c.Formed := by
  cases lit with
  -- The grammar has let through only what has a value.
  | double spelling =>
    obtain ⟨d, hd, hne⟩ := Literal.floating_of_text hl
    rw [constant, hd] at h
    obtain rfl := Except.ok.inj h
    exact hne
  | integer spelling =>
    rw [constant] at h
    split at h
    case h_1 n hn =>
      obtain rfl := Except.ok.inj h
      exact Literal.integer?_nonneg (Grammar.IntegerText.not_mem hl (by decide)) hn
    case h_2 => cases h
  | string spelling =>
    rw [constant] at h
    split at h
    case h_1 points _ =>
      obtain rfl := Except.ok.inj h
      trivial
    case h_2 => cases h
  | boolean b =>
    obtain rfl := Except.ok.inj h
    trivial

/-- Resolving takes the mark for any arguments to itself, and nothing else to it. -/
lemma isAnyArguments_resolve {text : List Char} {e : Surface} {p : Pattern}
    (h : resolve text e = .ok p) :
    p.isAnyArguments = e.isAnyArguments := by
  cases e <;> rw [resolve] at h
  -- The variants are grouped by the number of steps that resolving them takes.
  case wildcard | reference | anyLiteral | null | this | anyLambda | anyArguments | unknown =>
    obtain rfl := Except.ok.inj h
    rfl
  case literal | field | typeTest | unary | update =>
    obtain ⟨_, -, h⟩ := exists_of_bind_eq_ok h
    obtain rfl := Except.ok.inj h
    rfl
  case binary | element | ownMethod | call | creation =>
    obtain ⟨_, -, h⟩ := exists_of_bind_eq_ok h
    obtain ⟨_, -, h⟩ := exists_of_bind_eq_ok h
    obtain rfl := Except.ok.inj h
    rfl
  case method =>
    obtain ⟨_, -, h⟩ := exists_of_bind_eq_ok h
    obtain ⟨_, -, h⟩ := exists_of_bind_eq_ok h
    obtain ⟨_, -, h⟩ := exists_of_bind_eq_ok h
    obtain rfl := Except.ok.inj h
    rfl

lemma isAnyArguments_resolveList {text : List Char} {es : List Surface} {ps : List Pattern}
    (h : resolveList text es = .ok ps) :
    ps.map Expr.isAnyArguments = es.map Expr.isAnyArguments := by
  induction es generalizing ps with
  | nil =>
    obtain rfl := Except.ok.inj h
    rfl
  | cons e es ih =>
    rw [resolveList] at h
    obtain ⟨p, hp, h⟩ := exists_of_bind_eq_ok h
    obtain ⟨qs, hqs, h⟩ := exists_of_bind_eq_ok h
    obtain rfl := Except.ok.inj h
    rw [List.map_cons, List.map_cons, isAnyArguments_resolve hp, ih hqs]

/-- Arguments that pass the check do not mix the mark for any arguments with others. -/
lemma unmixed_of_checkArguments {text : List Char} {es : List Surface}
    {ps : List Pattern} {u : Unit} (h : resolveList text es = .ok ps)
    (hcheck : checkArguments text es = .ok u) : Unmixed ps := by
  have hmarks := isAnyArguments_resolveList h
  have hlength : ps.length = es.length := by
    have := congrArg List.length hmarks
    rwa [List.length_map, List.length_map] at this
  unfold checkArguments at hcheck
  split at hcheck
  -- One argument or none may be anything.
  case isTrue hle => exact .inl (hlength ▸ hle)
  case isFalse =>
    split at hcheck
    case h_1 => cases hcheck
    case h_2 hfind =>
      refine .inr fun p hp => ?_
      have hmem : p.isAnyArguments ∈ es.map Expr.isAnyArguments := hmarks ▸ List.mem_map_of_mem hp
      obtain ⟨e, he, heq⟩ := List.mem_map.mp hmem
      rw [← heq]
      exact Bool.eq_false_iff.mpr (List.find?_eq_none.mp hfind e he)

mutual

/-- A legible expression is resolved to a pattern of a form that a text can have. Only the lists of
arguments get something new, which their check gives. -/
lemma formed_of_resolve (text : List Char) :
    (e : Surface) → (p : Pattern) → Grammar.Legible e → resolve text e = .ok p → Formed p
  | .wildcard _, _, _, h | .anyLiteral _ _, _, _, h | .null _, _, _, h | .this _, _, _, h
  | .anyLambda _, _, _, h => by
    rw [resolve] at h
    obtain rfl := Except.ok.inj h
    trivial
  | .reference name _, _, hname, h => by
    rw [resolve] at h
    obtain rfl := Except.ok.inj h
    exact hname
  | .literal lit _, _, hlit, h => by
    rw [resolve] at h
    obtain ⟨c, hc, h⟩ := exists_of_bind_eq_ok h
    obtain rfl := Except.ok.inj h
    exact constant_formed hlit hc
  | .field receiver name _, _, ⟨hreceiver, hname⟩, h => by
    rw [resolve] at h
    obtain ⟨r, hr, h⟩ := exists_of_bind_eq_ok h
    obtain rfl := Except.ok.inj h
    exact ⟨formed_of_resolve text receiver r hreceiver hr, hname⟩
  -- The check behind the arguments is what keeps the mark for any arguments from standing among
  -- others.
  | .method receiver name args _, _, ⟨hreceiver, hname, _, hargs⟩, h => by
    rw [resolve] at h
    obtain ⟨r, hr, h⟩ := exists_of_bind_eq_ok h
    obtain ⟨ps, hps, h⟩ := exists_of_bind_eq_ok h
    obtain ⟨_, hcheck, h⟩ := exists_of_bind_eq_ok h
    obtain rfl := Except.ok.inj h
    exact ⟨formed_of_resolve text receiver r hreceiver hr, hname,
      unmixed_of_checkArguments hps hcheck,
      formed_of_resolveList text args ps hargs hps⟩
  | .call name args _, _, ⟨hname, _, hargs⟩, h
  | .creation name args _, _, ⟨hname, _, hargs⟩, h => by
    rw [resolve] at h
    obtain ⟨ps, hps, h⟩ := exists_of_bind_eq_ok h
    obtain ⟨_, hcheck, h⟩ := exists_of_bind_eq_ok h
    obtain rfl := Except.ok.inj h
    exact ⟨hname, unmixed_of_checkArguments hps hcheck,
      formed_of_resolveList text args ps hargs hps⟩
  | .typeTest target typeName _, _, ⟨htarget, hname⟩, h => by
    rw [resolve] at h
    obtain ⟨t, ht, h⟩ := exists_of_bind_eq_ok h
    obtain rfl := Except.ok.inj h
    exact ⟨formed_of_resolve text target t htarget ht, hname⟩
  | .unary _ operand _, _, hoperand, h | .update _ operand _, _, hoperand, h => by
    rw [resolve] at h
    obtain ⟨p, hp, h⟩ := exists_of_bind_eq_ok h
    obtain rfl := Except.ok.inj h
    exact formed_of_resolve text operand p hoperand hp
  | .binary _ lhs rhs _, _, ⟨hlhs, hrhs⟩, h | .element lhs rhs _, _, ⟨hlhs, hrhs⟩, h => by
    rw [resolve] at h
    obtain ⟨p, hp, h⟩ := exists_of_bind_eq_ok h
    obtain ⟨q, hq, h⟩ := exists_of_bind_eq_ok h
    obtain rfl := Except.ok.inj h
    exact ⟨formed_of_resolve text lhs p hlhs hp, formed_of_resolve text rhs q hrhs hq⟩

lemma formed_of_resolveList (text : List Char) :
    (es : List Surface) → (ps : List Pattern) →
      Expr.FormedArguments Grammar.Spelling.Legible (fun _ => True) es →
      resolveList text es = .ok ps → Expr.FormedArguments Constant.Formed Unmixed ps
  | [], _, _, h => by
    obtain rfl := Except.ok.inj h
    trivial
  | e :: es, _, ⟨he, hes⟩, h => by
    rw [resolveList] at h
    obtain ⟨p, hp, h⟩ := exists_of_bind_eq_ok h
    obtain ⟨ps, hps, h⟩ := exists_of_bind_eq_ok h
    obtain rfl := Except.ok.inj h
    refine ⟨?_, formed_of_resolveList text es ps hes hps⟩
    rcases he with hmark | he
    · exact .inl ((isAnyArguments_resolve hp).trans hmark)
    · exact .inr (formed_of_resolve text e p he hp)

end

/-- What compiling a text has gone through: the text was read, its expression resolved to that of
the kind, and the suffix, if there was one, gave the context. -/
lemma exists_of_compileIn {room : Room Opening} {text : String} {k : Kind}
    (h : compileIn room text = .ok k) :
    ∃ e suffix rest mark, Grammar.whole room text.toList.length text.toList =
      .ok (e, suffix) rest mark ∧
      resolve text.toList e = .ok k.expression ∧
        suffix.getD (.any, false) = (k.context, k.negated) := by
  have hchars : compileChars room text.toList = .ok k := by
    unfold compileIn at h
    cases hc : compileChars room text.toList with
    | error e =>
      rw [hc] at h
      cases h
    | ok k' =>
      rw [hc] at h
      obtain rfl : k' = k := Except.ok.inj h
      rfl
  -- A text that is not read has no kind, so only a reading is left.
  unfold compileChars at hchars
  cases hreply : Grammar.whole room text.toList.length text.toList with
  | deep =>
    rw [hreply] at hchars
    cases hchars
  | fail mark =>
    rw [hreply] at hchars
    cases hchars
  | ok r rest mark =>
    obtain ⟨e, suffix⟩ := r
    rw [hreply, ofReply] at hchars
    obtain ⟨p, hp, hk⟩ := exists_of_bind_eq_ok hchars
    refine ⟨e, suffix, rest, mark, rfl, ?_⟩
    split at hk
    · obtain rfl := Except.ok.inj hk
      exact ⟨hp, rfl⟩
    · obtain rfl := Except.ok.inj hk
      exact ⟨hp, rfl⟩

/-- What a text compiles to is of a form that a text can have, however much room there was for
reading it. -/
theorem formed_of_compileIn {room : Room Opening} {text : String} {k : Kind}
    (h : compileIn room text = .ok k) : Formed k.expression := by
  obtain ⟨e, suffix, rest, mark, hread, hresolve, -⟩ := exists_of_compileIn h
  exact formed_of_resolve text.toList e k.expression
    (Grammar.yields_whole _ _ _ _ _ _ hread).1 hresolve

/-- Only a context that is asked for is negated. -/
theorem context_of_compileIn {room : Room Opening} {text : String} {k : Kind}
    (h : compileIn room text = .ok k) (hnegated : k.negated = true) :
    k.context ≠ .any := by
  obtain ⟨e, suffix, rest, mark, hread, -, hcontext⟩ := exists_of_compileIn h
  have hsuffix := (Grammar.yields_whole _ _ _ _ _ _ hread).2
  cases suffix with
  | none =>
    rw [← (Prod.mk.inj hcontext).2] at hnegated
    cases hnegated
  | some suffix =>
    rw [← (Prod.mk.inj hcontext).1]
    exact hsuffix suffix rfl

end Pattern

end ShapeLint
