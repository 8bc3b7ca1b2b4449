import Mathlib.Data.List.Forall2
import Mathlib.Logic.Relation
import ShapeLint.Proofs.Matching
import ShapeLint.Rule.Basic

/-!
# Widening a pattern

A pattern is widened by putting marks for parts of it: the mark for any expression for any part, the
mark for any literal for a literal of that type, the mark for any arguments for all arguments of a
call. What a pattern matches, a wider one matches too, and it takes no more room to see that.

For a rule, wider patterns can only flag more and wider justifications can only excuse more. But
where a node is not matched, the test of the wider pattern may go on after that of the narrower one
has ended, and descend too far. The statements about rules therefore say that the answer is not
turned around, and that there is one if the patterns are not too deep to be tested.
-/

namespace ShapeLint

open Relation (ReflTransGen)
open List (Forall₂)

namespace Pattern

mutual

/-- The second pattern is the first one with marks put for some of its parts, wherever the two
stand. Marks may be put for several parts at once, and for parts of parts; a part is a mark itself
or keeps its form. -/
inductive Widens : Pattern → Pattern → Prop where
  /-- The mark for any expression, put for any pattern. -/
  | wildcard {p : Pattern} {y : Span} : Widens p (.wildcard y)
  /-- The mark for any literal, put for a literal of its type. -/
  | anyLiteral {c : Constant} {x y : Span} : Widens (.literal c x) (.anyLiteral c.type y)
  -- Patterns without parts stay as they are.
  | reference {name : String} {x y : Span} : Widens (.reference name x) (.reference name y)
  | literal {c : Constant} {x y : Span} : Widens (.literal c x) (.literal c y)
  | literals {type : LiteralType} {x y : Span} : Widens (.anyLiteral type x) (.anyLiteral type y)
  | null {x y : Span} : Widens (.null x) (.null y)
  | this {x y : Span} : Widens (.this x) (.this y)
  | anyLambda {x y : Span} : Widens (.anyLambda x) (.anyLambda y)
  | anyArguments {x y : Span} : Widens (.anyArguments x) (.anyArguments y)
  | unknown {name : String} {x y : Span} : Widens (.unknown name x) (.unknown name y)
  -- Of the others the parts are widened.
  | field {p q : Pattern} {name : String} {x y : Span} :
      Widens p q → Widens (.field p name x) (.field q name y)
  | method {p q : Pattern} {name : String} {ps qs : List Pattern} {x y : Span} :
      Widens p q → WidensArguments ps qs → Widens (.method p name ps x) (.method q name qs y)
  | ownMethod {name : String} {ps qs : List Pattern} {x y : Span} :
      WidensArguments ps qs → Widens (.ownMethod name ps x) (.ownMethod name qs y)
  | call {name : String} {ps qs : List Pattern} {x y : Span} :
      WidensArguments ps qs → Widens (.call name ps x) (.call name qs y)
  | creation {name : String} {ps qs : List Pattern} {x y : Span} :
      WidensArguments ps qs → Widens (.creation name ps x) (.creation name qs y)
  | typeTest {p q : Pattern} {name : String} {x y : Span} :
      Widens p q → Widens (.typeTest p name x) (.typeTest q name y)
  | unary {o : UnaryOperator} {p q : Pattern} {x y : Span} :
      Widens p q → Widens (.unary o p x) (.unary o q y)
  | binary {o : BinaryOperator} {p q p' q' : Pattern} {x y : Span} :
      Widens p q → Widens p' q' → Widens (.binary o p p' x) (.binary o q q' y)
  | update {o : UpdateOperator} {p q : Pattern} {x y : Span} :
      Widens p q → Widens (.update o p x) (.update o q y)
  | element {p q p' q' : Pattern} {x y : Span} :
      Widens p q → Widens p' q' → Widens (.element p p' x) (.element q q' y)

/-- The second arguments are the first ones widened: all of them by one mark, or each of them by
itself. Arguments that may be any already are not widened one by one, as the mark for any expression
takes less than the mark for any arguments. -/
inductive WidensArguments : List Pattern → List Pattern → Prop where
  | any {ps : List Pattern} {y : Span} : WidensArguments ps [.anyArguments y]
  | each {ps qs : List Pattern} : isAnyList ps = false → WidensAll ps qs → WidensArguments ps qs

/-- The second patterns are the first ones widened, one by one. -/
inductive WidensAll : List Pattern → List Pattern → Prop where
  | nil : WidensAll [] []
  | cons {p q : Pattern} {ps qs : List Pattern} :
      Widens p q → WidensAll ps qs → WidensAll (p :: ps) (q :: qs)

end

/-! ## A wider pattern matches more -/

/-- A part that is there is matched by the wider pattern; one that is missing was not matched
before. -/
lemma any_holds_mono {p q : Pattern} (h : ∀ n, holds p n = true → holds q n = true)
    {part : Option Node} (hpart : part.any (holds p) = true) : part.any (holds q) = true := by
  rw [Option.any_eq_true] at hpart ⊢
  obtain ⟨n, hn, hp⟩ := hpart
  exact ⟨n, hn, h n hp⟩

mutual

/-- What a pattern matches, a wider one matches. The induction is on how the pattern was widened. -/
lemma holds_of_widens :
    {p q : Pattern} → Widens p q → (n : Node) → holds p n = true → holds q n = true
  | _, _, .wildcard, _, _ => rfl
  | _, _, .anyLiteral, _, h => (Bool.and_eq_true_iff.mp h).1
  | _, _, .reference, _, h | _, _, .literal, _, h | _, _, .literals, _, h | _, _, .null, _, h
  | _, _, .this, _, h | _, _, .anyLambda, _, h | _, _, .anyArguments, _, h
  | _, _, .unknown, _, h => h
  -- Where one part is widened, the node's part that matched it still does.
  | _, _, .field hpart, n, h | _, _, .typeTest hpart, n, h | _, _, .unary hpart, n, h
  | _, _, .update hpart, n, h => by
    rw [holds, Bool.and_eq_true] at h ⊢
    exact ⟨h.1, any_holds_mono (holds_of_widens hpart) h.2⟩
  | _, _, .binary hleft hright, n, h | _, _, .element hleft hright, n, h => by
    rw [holds, Bool.and_eq_true, Bool.and_eq_true] at h ⊢
    exact ⟨⟨h.1.1, any_holds_mono (holds_of_widens hleft) h.1.2⟩,
      any_holds_mono (holds_of_widens hright) h.2⟩
  | _, _, .method hpart hargs, n, h => by
    rw [holds, Bool.and_eq_true, Bool.and_eq_true] at h ⊢
    exact ⟨⟨h.1.1, any_holds_mono (holds_of_widens hpart) h.1.2⟩,
      holdsArguments_of_widens hargs h.2⟩
  | _, _, .ownMethod hargs, n, h | _, _, .call hargs, n, h | _, _, .creation hargs, n, h => by
    rw [holds, Bool.and_eq_true] at h ⊢
    exact ⟨h.1, holdsArguments_of_widens hargs h.2⟩

/-- Arguments that were taken are still taken, be it by the mark for any arguments or one by one. -/
lemma holdsArguments_of_widens {ns : List Node} : {ps qs : List Pattern} → WidensArguments ps qs →
    (isAnyList ps || holdsAll ps ns) = true → (isAnyList qs || holdsAll qs ns) = true
  | _, _, .any, _ => rfl
  | _, _, .each hany hall, h => by
    rw [hany, Bool.false_or] at h
    rw [holdsAll_of_widens hall ns h, Bool.or_true]

lemma holdsAll_of_widens : {ps qs : List Pattern} → WidensAll ps qs → (ns : List Node) →
    holdsAll ps ns = true → holdsAll qs ns = true
  | _, _, .nil, _, h => h
  | _, _, .cons _ _, [], h => nomatch h
  | _, _, .cons hfirst hrest, n :: ns, h => by
    rw [holdsAll, Bool.and_eq_true] at h ⊢
    exact ⟨holds_of_widens hfirst n h.1, holdsAll_of_widens hrest ns h.2⟩

end

mutual

/-- A wider pattern goes down no further than the one it comes from, so the room for that one will
do. -/
lemma fitsIn_of_widens : {p q : Pattern} → Widens p q → (room : Room Descent) →
    fitsIn room p = true → fitsIn room q = true
  -- Without any room the narrower pattern did not fit either.
  | p, _, _, .none, h => by
    rw [fitsIn.eq_def] at h
    cases h
  | _, _, .wildcard, .more _, _ | _, _, .anyLiteral, .more _, _ | _, _, .reference, .more _, _
  | _, _, .literal, .more _, _ | _, _, .literals, .more _, _ | _, _, .null, .more _, _
  | _, _, .this, .more _, _ | _, _, .anyLambda, .more _, _ | _, _, .anyArguments, .more _, _
  | _, _, .unknown, .more _, _ => by rw [fitsIn]
  | _, _, .field hpart, .more inside, h | _, _, .typeTest hpart, .more inside, h
  | _, _, .unary hpart, .more inside, h | _, _, .update hpart, .more inside, h => by
    rw [fitsIn] at h ⊢
    exact fitsIn_of_widens hpart (inside .part) h
  | _, _, .binary hleft hright, .more inside, h | _, _, .element hleft hright, .more inside, h => by
    rw [fitsIn, Bool.and_eq_true] at h ⊢
    exact ⟨fitsIn_of_widens hleft (inside .part) h.1, fitsIn_of_widens hright (inside .part) h.2⟩
  | _, _, .method hpart hargs, .more inside, h => by
    rw [fitsIn, Bool.and_eq_true] at h ⊢
    exact ⟨fitsIn_of_widens hpart (inside .part) h.1,
      fitArguments_of_widens hargs (inside .argument) h.2⟩
  | _, _, .ownMethod hargs, .more inside, h | _, _, .call hargs, .more inside, h
  | _, _, .creation hargs, .more inside, h => by
    rw [fitsIn] at h ⊢
    exact fitArguments_of_widens hargs (inside .argument) h

lemma fitArguments_of_widens :
    {ps qs : List Pattern} → WidensArguments ps qs → (room : Room Descent) →
    (isAnyList ps || fitAll room ps) = true → (isAnyList qs || fitAll room qs) = true
  | _, _, .any, _, _ => rfl
  | _, _, .each hany hall, room, h => by
    rw [hany, Bool.false_or] at h
    rw [fitAll_of_widens hall room h, Bool.or_true]

lemma fitAll_of_widens : {ps qs : List Pattern} → WidensAll ps qs → (room : Room Descent) →
    fitAll room ps = true → fitAll room qs = true
  | _, _, .nil, _, h => h
  | _, _, .cons hfirst hrest, room, h => by
    rw [fitAll, Bool.and_eq_true] at h ⊢
    exact ⟨fitsIn_of_widens hfirst room h.1, fitAll_of_widens hrest room h.2⟩

end

/-- What a pattern matches, the pattern widened any number of times matches in the same room. -/
lemma test_of_widens {p q : Pattern} (h : ReflTransGen Widens p q) {room : Room Descent} {n : Node}
    (hp : p.test room n = .ok true) : q.test room n = .ok true := by
  induction h with
  | refl => exact hp
  | tail _ hstep ih =>
    obtain ⟨hholds, hfits⟩ := test_eq_true_iff.mp ih
    exact test_eq_true_iff.mpr ⟨holds_of_widens hstep n hholds, fitsIn_of_widens hstep room hfits⟩

end Pattern

/-! ## Wider kinds -/

namespace Kind

/-- The second kind asks for a wider pattern in the same context. -/
structure Widens (k l : Kind) : Prop where
  expression : ReflTransGen Pattern.Widens k.expression l.expression
  context : l.context = k.context
  negated : l.negated = k.negated

/-- Tests of the kind do not fail: all parts of its pattern can be tested, and there is room for
it. -/
structure Testable (k : Kind) : Prop where
  known : k.expression.Known
  fits : k.expression.fitsIn Pattern.testRoom = true

/-- A visit that a kind matches is matched by a wider kind, since the context is asked for in the
same way. -/
lemma Widens.matchesVisit {k l : Kind} (h : k.Widens l) {v : Visit}
    (hk : k.matchesVisit v = .ok true) :
    l.matchesVisit v = .ok true := by
  have hnode : k.expression.matchesNode v.node = .ok true := by
    rw [Kind.matchesVisit] at hk
    split at hk
    case h_1 hnode => exact hnode
    case h_2 => exact hk
  have hnode' : l.expression.matchesNode v.node = .ok true :=
    Pattern.test_of_widens h.expression hnode
  rw [Kind.matchesVisit, hnode] at hk
  rw [Kind.matchesVisit, hnode', h.context, h.negated]
  exact hk

/-- A kind that can be tested has an answer at every visit. -/
lemma Testable.matchesVisit {k : Kind} (h : k.Testable) (v : Visit) :
    ∃ b, k.matchesVisit v = .ok b := by
  have hnode : k.expression.matchesNode v.node = .ok (k.expression.holds v.node) :=
    (Pattern.test_tells k.expression Pattern.testRoom v.node).eq_ok h.fits h.known
  rw [Kind.matchesVisit, hnode]
  split
  · exact ⟨_, rfl⟩
  · exact ⟨_, rfl⟩

end Kind

/-! ## Rules with wider kinds -/

namespace Rule

/-- Where some kind matches, the answer for wider kinds is not that none does. It may still be a
failure: the wider of an earlier kind is tested first, and may need more room than there is. -/
lemma someMatch_ne_false {v : Visit} {ks ls : List Kind} (h : Forall₂ Kind.Widens ks ls)
    (hmatch : someMatch v ks = .ok true) : someMatch v ls ≠ .ok false := by
  induction h with
  | nil => cases hmatch
  | @cons k l ks ls hkl _ ih =>
    rw [someMatch] at hmatch ⊢
    split at hmatch
    case h_1 =>
      -- The first kind does not match. The wider one may match, fail or leave it to the others.
      split
      · exact ih hmatch
      · assumption
    case h_2 =>
      rw [hkl.matchesVisit hmatch]
      exact nofun

/-- Kinds that can be tested have an answer at every visit. -/
lemma exists_someMatch {ks : List Kind} (h : ∀ k ∈ ks, k.Testable) (v : Visit) :
    ∃ b, someMatch v ks = .ok b := by
  induction ks with
  | nil => exact ⟨false, rfl⟩
  | cons k ks ih =>
    rw [List.forall_mem_cons] at h
    obtain ⟨b, hb⟩ := h.1.matchesVisit v
    rw [someMatch, hb]
    cases b with
    | false => exact ih h.2
    | true => exact ⟨true, rfl⟩

/-- Among wider kinds that can be tested, some kind matches where one did before. -/
lemma someMatch_of_widens {v : Visit} {ks ls : List Kind} (h : Forall₂ Kind.Widens ks ls)
    (hls : ∀ l ∈ ls, l.Testable) (hmatch : someMatch v ks = .ok true) :
    someMatch v ls = .ok true := by
  obtain ⟨b, hb⟩ := exists_someMatch hls v
  cases b with
  | false => exact absurd hb (someMatch_ne_false h hmatch)
  | true => exact hb

/-- A rule flags a visit if one of its patterns matches and none of its justifications does. -/
lemma applies_eq_true_iff {r : Rule} {v : Visit} :
    r.applies v = .ok true ↔
      someMatch v r.patterns = .ok true ∧ someMatch v r.justifications = .ok false := by
  unfold applies
  rcases someMatch v r.patterns with failure | _ | _
  · simp
  · simp
  · rcases someMatch v r.justifications with failure | _ | _ <;> simp [Except.map]

/-- A rule lets a visit pass if no pattern matches, or one does and a justification too. -/
lemma applies_eq_false_iff {r : Rule} {v : Visit} :
    r.applies v = .ok false ↔
      someMatch v r.patterns = .ok false ∨
        someMatch v r.patterns = .ok true ∧ someMatch v r.justifications = .ok true := by
  unfold applies
  rcases someMatch v r.patterns with failure | _ | _
  · simp
  · simp
  · rcases someMatch v r.justifications with failure | _ | _ <;> simp [Except.map]

/-- A pattern widened any number of times matches what it matched. So a rule with wider patterns
still flags what it flagged, and a rule with wider justifications still lets pass what it let pass,
unless a test fails. -/
theorem applies_of_widened :
    (∀ p q : Pattern, ReflTransGen Pattern.Widens p q →
      ∀ room n, p.test room n = .ok true → q.test room n = .ok true) ∧
    ∀ (r : Rule) (ks : List Kind) (v : Visit),
      (Forall₂ Kind.Widens r.patterns ks → r.applies v = .ok true →
        { r with patterns := ks }.applies v ≠ .ok false ∧
          ((∀ k ∈ ks, k.Testable) → { r with patterns := ks }.applies v = .ok true)) ∧
      (Forall₂ Kind.Widens r.justifications ks → r.applies v = .ok false →
        { r with justifications := ks }.applies v ≠ .ok true ∧
          ((∀ k ∈ ks, k.Testable) → { r with justifications := ks }.applies v = .ok false)) := by
  refine ⟨fun p q h room n => Pattern.test_of_widens h,
    fun r ks v => ⟨fun h hr => ?_, fun h hr => ?_⟩⟩
  · obtain ⟨hpatterns, hjustifications⟩ := applies_eq_true_iff.mp hr
    constructor
    · intro hfalse
      -- A node is flagged no more if no pattern matches or a justification does, and neither can
      -- come from wider patterns.
      rcases applies_eq_false_iff.mp hfalse with hnone | ⟨-, hexcused⟩
      · exact someMatch_ne_false h hpatterns hnone
      · cases hjustifications.symm.trans hexcused
    · intro hks
      exact applies_eq_true_iff.mpr ⟨someMatch_of_widens h hks hpatterns, hjustifications⟩
  · constructor
    · intro htrue
      obtain ⟨hpatterns, hjustifications⟩ := applies_eq_true_iff.mp htrue
      rcases applies_eq_false_iff.mp hr with hnone | ⟨-, hexcused⟩
      · cases hnone.symm.trans hpatterns
      · exact someMatch_ne_false h hexcused hjustifications
    · intro hks
      rcases applies_eq_false_iff.mp hr with hnone | ⟨hpatterns, hexcused⟩
      · exact applies_eq_false_iff.mpr (.inl hnone)
      · exact applies_eq_false_iff.mpr (.inr ⟨hpatterns, someMatch_of_widens h hks hexcused⟩)

/-- Sending 1 to a queue. -/
def sendOne : Pattern := .method (.reference "queue" {}) "send" [.literal ⟨.int, .int 1⟩ {}] {}

/-- Sending anything to anything. -/
def sendAny : Pattern := .method (.wildcard {}) "send" [.anyArguments {}] {}

/-- A call that sends 1 to a queue. -/
def sending : Node where
  kind := NodeKind.methodCall
  value := .ofString "send"
  children :=
    [{ kind := NodeKind.name, value := .ofString "queue", role := some Role.object },
      { kind := NodeKind.int, value := .int 1, role := some Role.argument }]

/-- A rule against sending 1 to a queue, unless the result is thrown away. -/
def sendRule : Rule where
  id := "send"
  message := ""
  patterns := [{ expression := sendOne }]
  justifications := [{ expression := sendOne, context := .discarded }]

/-- The rule with its pattern and then its justification widened in two steps. -/
theorem applies_of_widened_send :
    sendOne.test Pattern.testRoom sending = .ok true ∧
      sendAny.test Pattern.testRoom sending = .ok true ∧
    sendRule.applies ⟨sending, []⟩ = .ok true ∧
    { sendRule with patterns := [{ expression := sendAny }] }.applies ⟨sending, []⟩ = .ok true ∧
    sendRule.applies ⟨sending, [{ kind := NodeKind.expressionStatement }]⟩ = .ok false ∧
    { sendRule with justifications := [{ expression := sendAny, context := .discarded }] }.applies
      ⟨sending, [{ kind := NodeKind.expressionStatement }]⟩ = .ok false := by
  have hstep :
      Pattern.Widens sendOne (.method (.reference "queue" {}) "send" [.anyLiteral .int {}] {}) :=
    .method .reference (.each rfl (.cons .anyLiteral .nil))
  -- The argument is widened to any integer, and then receiver and arguments to any.
  have hwidens : ReflTransGen Pattern.Widens sendOne sendAny :=
    (ReflTransGen.single hstep).tail (.method .wildcard .any)
  have hformed : sendAny.Formed := ⟨trivial, by decide, .inl (Nat.le_refl 1), .inl rfl, trivial⟩
  have hfits : sendAny.fitsIn Pattern.testRoom = true := by decide +kernel
  have hmatch : sendOne.test Pattern.testRoom sending = .ok true := by decide +kernel
  have hflagged : sendRule.applies ⟨sending, []⟩ = .ok true := by decide +kernel
  have hexcused :
      sendRule.applies ⟨sending, [{ kind := NodeKind.expressionStatement }]⟩ = .ok false := by
    decide +kernel
  obtain ⟨htest, hrule⟩ := applies_of_widened
  have hpatterns := (hrule sendRule [{ expression := sendAny }] ⟨sending, []⟩).1
    (.cons ⟨hwidens, rfl, rfl⟩ .nil) hflagged
  have hjustifications :=
    (hrule sendRule [{ expression := sendAny, context := .discarded }]
      ⟨sending, [{ kind := NodeKind.expressionStatement }]⟩).2
        (.cons ⟨hwidens, rfl, rfl⟩ .nil) hexcused
  exact ⟨hmatch, htest _ _ hwidens _ sending hmatch,
    hflagged, hpatterns.2 (List.forall_mem_singleton.mpr ⟨hformed.known, hfits⟩),
    hexcused, hjustifications.2 (List.forall_mem_singleton.mpr ⟨hformed.known, hfits⟩)⟩

end Rule

end ShapeLint
