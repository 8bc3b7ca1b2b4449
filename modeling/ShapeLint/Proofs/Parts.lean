import ShapeLint.Proofs.Image

/-!
# The parts of compiled patterns

`Pattern.Formed` says what a compiled pattern looks like by recursion. Here the same is said of each
part of it, wherever it stands. An expression has operands and arguments, which have such parts
themselves, and `Expr.Within` is to stand anywhere in an expression. What a text compiles to is
`Sound` at each of its parts (`sound_of_compile`): the mark for any arguments stands alone among
arguments and nowhere else, each call of a method has a receiver, no name is a reserved word, and
each literal has a value of its type.
-/

namespace ShapeLint

open Grammar (IsName Opening)

/-! ## Parts of expressions -/

section
variable {Lit Loc : Type}

/-- The parts of an expression that are no arguments, from left to right. -/
def Expr.operands : Expr Lit Loc → List (Expr Lit Loc)
  | .field part _ _ | .method part _ _ _ | .typeTest part _ _ | .unary _ part _
  | .update _ part _ => [part]
  | .binary _ lhs rhs _ => [lhs, rhs]
  | .element array index _ => [array, index]
  | _ => []

/-- The arguments of an expression. -/
def Expr.arguments : Expr Lit Loc → List (Expr Lit Loc)
  | .method _ _ args _ | .ownMethod _ args _ | .call _ args _ | .creation _ args _ => args
  | _ => []

/-- The name that an expression has: that of a value, a member, a function or a type. -/
def Expr.name? : Expr Lit Loc → Option String
  | .reference name _ | .field _ name _ | .method _ name _ _ | .ownMethod name _ _ | .call name _ _
  | .creation name _ _ | .typeTest _ name _ => some name
  | _ => none

/-- The expression is the other one or stands in it, as an operand or an argument, at any depth. -/
inductive Expr.Within (e : Expr Lit Loc) : Expr Lit Loc → Prop where
  | self : Within e e
  | operand {part whole : Expr Lit Loc} : part ∈ whole.operands → Within e part → Within e whole
  | argument {part whole : Expr Lit Loc} : part ∈ whole.arguments → Within e part → Within e whole

/-- A property that goes down to operands and arguments holds of whatever stands in an expression.
-/
lemma Expr.Within.induct {P : Expr Lit Loc → Prop}
    (hoperand : ∀ e, P e → ∀ part ∈ e.operands, P part)
    (hargument : ∀ e, P e → ∀ part ∈ e.arguments, P part) {e whole : Expr Lit Loc}
    (h : e.Within whole) (hwhole : P whole) :
    P e := by
  induction h with
  | self => exact hwhole
  | operand hpart _ ih => exact ih (hoperand _ hwhole _ hpart)
  | argument hpart _ ih => exact ih (hargument _ hwhole _ hpart)

end

namespace Pattern

/-! ## Compiled patterns are sound at each part -/

/-- What can be said of a part of a compiled pattern by looking at that part and the ones directly
below it. -/
structure Sound (e : Pattern) : Prop where
  /-- The mark for any arguments is no operand. -/
  operands : ∀ part ∈ e.operands, part.isAnyArguments = false
  /-- The mark for any arguments is the only argument. -/
  arguments : ∀ part ∈ e.arguments, part.isAnyArguments = true → e.arguments = [part]
  /-- A method is called on an object. -/
  receiver : ∀ name args loc, e ≠ .ownMethod name args loc
  /-- There is a way to test for the shape. -/
  known : ∀ name loc, e ≠ .unknown name loc
  /-- A name is a word that is not reserved. -/
  named : ∀ name ∈ e.name?, IsName name
  /-- The mark for any expression is no name of a value. -/
  reference : ∀ loc, e ≠ .reference "_" loc
  /-- The mark for any expression is no name of a function. -/
  call : ∀ args loc, e ≠ .call "_" args loc
  /-- The value of a literal is of its type. -/
  literal : ∀ c loc, e = .literal c loc → c.Formed

lemma Formed.not_mark {e : Pattern} (h : Formed e) : e.isAnyArguments = false := by
  cases e with
  | anyArguments => cases h
  | _ => rfl

/-- The operands of a formed pattern are formed. -/
lemma Formed.operand {e : Pattern} (h : Formed e) : ∀ part ∈ e.operands, Formed part := by
  cases e with
  | field | method | typeTest =>
    intro part hpart
    obtain rfl := List.mem_singleton.mp hpart
    exact h.1
  | unary | update =>
    intro part hpart
    obtain rfl := List.mem_singleton.mp hpart
    exact h
  | binary | element =>
    intro part hpart
    rcases List.mem_cons.mp hpart with rfl | hpart
    · exact h.1
    · obtain rfl := List.mem_singleton.mp hpart
      exact h.2
  | _ => exact nofun

lemma Formed.arguments {e : Pattern} (h : Formed e) :
    Unmixed e.arguments ∧ Expr.FormedArguments Constant.Formed Unmixed e.arguments := by
  cases e with
  | method => exact h.2.2
  | call | creation => exact h.2
  | ownMethod => cases h
  | _ => exact ⟨.inl (Nat.zero_le 1), trivial⟩

/-- Each argument of a formed pattern is the mark, or formed. -/
lemma Formed.argument {e : Pattern} (h : Formed e) :
    ∀ part ∈ e.arguments, part.isAnyArguments = true ∨ Formed part :=
  (Expr.formedArguments_iff _ _).mp h.arguments.2

/-- A mark among arguments that are not mixed is the only one, and the only argument. -/
theorem Unmixed.eq_singleton {ps : List Pattern} (h : Unmixed ps) {p : Pattern} (hp : p ∈ ps)
    (hmark : p.isAnyArguments = true) : ps = [p] := by
  rcases h with hlength | hnone
  · obtain ⟨q, rfl⟩ :=
      List.length_eq_one_iff.mp (Nat.le_antisymm hlength (List.length_pos_of_mem hp))
    rw [List.mem_singleton.mp hp]
  · rw [hnone p hp] at hmark
    cases hmark

/-- A formed pattern is sound at itself. -/
lemma Formed.sound {e : Pattern} (h : Formed e) : Sound e where
  operands part hpart := (h.operand part hpart).not_mark
  arguments _ hpart hmark := h.arguments.1.eq_singleton hpart hmark
  receiver := by
    rintro name args loc rfl
    exact h
  known := by
    rintro name loc rfl
    exact h
  named := by
    intro name hname
    cases e with
    | reference =>
      obtain rfl := Option.some.inj hname
      exact h.1
    | call =>
      obtain rfl := Option.some.inj hname
      exact h.1.1
    | field | typeTest =>
      obtain rfl := Option.some.inj hname
      exact h.2
    | method =>
      obtain rfl := Option.some.inj hname
      exact h.2.1
    | creation =>
      obtain rfl := Option.some.inj hname
      exact h.1
    | ownMethod => cases h
    | _ => cases hname
  reference := by
    rintro loc rfl
    exact h.2 rfl
  call := by
    rintro args loc rfl
    exact h.1.2 rfl
  literal := by
    rintro c loc rfl
    exact h

lemma sound_of_mark {e : Pattern} (h : e.isAnyArguments = true) : Sound e := by
  cases e with
  | anyArguments => exact ⟨nofun, nofun, nofun, nofun, nofun, nofun, nofun, nofun⟩
  | _ => cases h

/-- What stands in a formed pattern is the mark, or formed. -/
lemma Formed.within {e p : Pattern} (hp : Formed p) (h : e.Within p) :
    e.isAnyArguments = true ∨ Formed e := by
  -- Nothing stands in the mark itself, so that the property goes down through it.
  refine h.induct (P := fun e => e.isAnyArguments = true ∨ Formed e) ?_ ?_ (.inr hp)
  · rintro e (hmark | he) part hpart
    · cases e with
      | anyArguments => cases hpart
      | _ => cases hmark
    · exact .inr (he.operand part hpart)
  · rintro e (hmark | he) part hpart
    · cases e with
      | anyArguments => cases hpart
      | _ => cases hmark
    · exact he.argument part hpart

/-- What a text compiles to is not the mark for any arguments, is sound at each of its parts, and
asks for a context where it negates one. This holds in whatever room the text is read. -/
theorem sound_of_compile {room : Room Opening} {text : String} {k : Kind}
    (h : compileIn room text = .ok k) :
    k.expression.isAnyArguments = false ∧ (∀ e : Pattern, e.Within k.expression → Sound e) ∧
      (k.negated = true → k.context ≠ .any) := by
  have hformed := formed_of_compileIn h
  refine ⟨hformed.not_mark, fun e he => ?_, context_of_compileIn h⟩
  rcases hformed.within he with hmark | he
  · exact sound_of_mark hmark
  · exact he.sound

/-- The mark for any expression names a type here, and the mark for any arguments stands in the
receiver of an element. -/
theorem sound_of_compile_nested : ∃ k,
    compile "new _(...).m(_x, 0x1F, f(true))[this] instanceof B [!discarded]" = .ok k ∧
      k.negated = true ∧ k.expression.isAnyArguments = false ∧
      (∀ e : Pattern, e.Within k.expression → Sound e) ∧ k.context ≠ .any := by
  obtain ⟨k, hk, hnegated⟩ := exists_of_any_toOption
    (show (compile "new _(...).m(_x, 0x1F, f(true))[this] instanceof B [!discarded]").toOption.any
        (·.negated) = true by
      decide +kernel)
  obtain ⟨hmark, hsound, hcontext⟩ := sound_of_compile hk
  exact ⟨k, hk, hnegated, hmark, hsound, hcontext hnegated⟩

end Pattern

end ShapeLint
