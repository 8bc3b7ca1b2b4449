import ShapeLint.Proofs.Pointing

/-!
# Why a pattern text is refused

A text is refused because it cannot be read, because a literal in it has no value, or because the
mark for any arguments stands beside others (`Refused`). Each of these has a code of its own, and
nothing else can go wrong: a floating point literal that is spelled as the grammar asks always has a
value, an integer or string literal without one is reported, and a string literal is never taken for
a text block (`Settled`).

The spellings that the tokens allow decide this, and every literal that is read from a text has such
a spelling.
-/

namespace ShapeLint.Pattern

open Grammar (Opening Extent Spelling Surface StringText StringBody whole)

/-! ## Literals -/

/-- The literal is reported as one without a value, and the report shows its spelling. -/
def Reported (text : List Char) (x : Extent) (lit : Spelling) (token : List Char) : Prop :=
  ∃ err, constant text x lit = .error err ∧ err.code = .invalidLiteral ∧ err.token = token

/-- The literal has the value of its spelling, or the spelling has none and the literal is reported.
Which of the two it is is decided by the spelling, and no other failure is possible. -/
def Settled (text : List Char) (x : Extent) : Spelling → Prop
  | .double w =>
    ∃ d, Literal.floating w = .ok d ∧ constant text x (.double w) = .ok ⟨.double, .double d⟩
  | .integer w =>
    (∃ n, Literal.integer? w = some n ∧ constant text x (.integer w) = .ok ⟨.int, .int n⟩) ∨
      (Literal.integer? w = none ∧ Reported text x (.integer w) w)
  | .string w =>
    Literal.isTextBlock w = false ∧
      ((∃ points, Literal.string w = .ok points ∧
        constant text x (.string w) = .ok ⟨.string, .text points⟩) ∨
        ((∃ bad, Literal.string w = .error bad) ∧ Reported text x (.string w) w))
  | .boolean b => constant text x (.boolean b) = .ok ⟨.boolean, .bool b⟩

section
variable {w : List Char} (text : List Char) (x : Extent)

/-- A floating point literal always has a value. -/
lemma settled_double (h : Grammar.DoubleText w) : Settled text x (.double w) := by
  obtain ⟨d, hd, -⟩ := Literal.floating_of_text h
  exact ⟨d, hd, by rw [constant, hd]⟩

/-- An integer has no value if a digit is not one of its radix, or if it has too many of them. -/
lemma settled_integer (w : List Char) : Settled text x (.integer w) := by
  rw [Settled, Reported, constant]
  cases Literal.integer? w with
  | some n => exact .inl ⟨n, rfl, rfl⟩
  | none => exact .inr ⟨rfl, _, rfl, rfl, rfl⟩

/-- A quote in a string literal is escaped, so that no three quotes stand at its front. -/
lemma isTextBlock_of_stringText (h : StringText w) : Literal.isTextBlock w = false := by
  obtain ⟨body, rfl, hbody⟩ := h
  cases hbody with
  | nil => rfl
  | @plain c _ hc _ =>
    have hquote : c ≠ '"' := fun h => hc (h ▸ List.mem_cons_self ..)
    simp [Literal.isTextBlock, hquote]
  | escaped _ _ => rfl

/-- A string literal has no value if one of its escapes means nothing. -/
lemma settled_string (h : StringText w) : Settled text x (.string w) := by
  refine ⟨isTextBlock_of_stringText h, ?_⟩
  rw [Reported, constant]
  cases hvalue : Literal.string w with
  | ok points => exact .inl ⟨points, rfl, rfl⟩
  | error bad => exact .inr ⟨⟨bad, rfl⟩, _, rfl, rfl, rfl⟩

/-- Every literal is settled, whatever spells it. -/
lemma settled_of_spells {lit : Spelling} (h : lit.Spells w) : Settled text x lit := by
  cases lit with
  | double spelling =>
    obtain ⟨rfl, hw⟩ := h
    exact settled_double text x hw
  | integer spelling => exact settled_integer text x spelling
  | string spelling =>
    obtain ⟨rfl, hw⟩ := h
    exact settled_string text x hw
  | boolean b => rfl

end

/-- A settled literal fails only as one without a value. -/
lemma Settled.code {text : List Char} {x : Extent} {lit : Spelling} {err : CompileError}
    (h : Settled text x lit) (herr : constant text x lit = .error err) :
    err.code = .invalidLiteral := by
  have hreported : ∀ {token}, Reported text x lit token → err.code = .invalidLiteral := by
    rintro token ⟨err', herr', hcode, -⟩
    obtain rfl := Except.error.inj (herr.symm.trans herr')
    exact hcode
  -- No value comes with an error, so only the refusals are left below.
  have hvalue : ∀ {c}, constant text x lit ≠ .ok c := by
    intro c hc
    cases herr.symm.trans hc
  cases lit with
  | double w =>
    obtain ⟨_, -, hok⟩ := h
    exact absurd hok hvalue
  | integer w =>
    rcases h with ⟨_, -, hok⟩ | ⟨-, hrep⟩
    · exact absurd hok hvalue
    · exact hreported hrep
  | string w =>
    rcases h with ⟨-, ⟨_, -, hok⟩ | ⟨-, hrep⟩⟩
    · exact absurd hok hvalue
    · exact hreported hrep
  | boolean b => exact absurd h hvalue

/-- Every literal that is read from a text is settled. -/
lemma settled_of_whole {room : Room Opening} {s rest : List Char} {e : Surface}
    {suffix : Option (Context × Bool)} {mark mark' : Nat}
    (h : whole room mark s = .ok (e, suffix) rest mark') {lit : Spelling} {x : Extent}
    (hlit : Expr.Within (.literal lit x) e) : Settled s x lit := by
  obtain ⟨_, w, _, -, -, hspells⟩ := (Grammar.laid_of_whole h _ hlit).spelled rfl
  exact settled_of_spells s x hspells

/-! ## Refusals -/

/-- What is refused, and with which code. A text that can be read is refused for something that
stands in it, and that is what the failure reports. -/
inductive Refused (room : Room Opening) (text : List Char) : CompileError → Prop where
  /-- The text cannot be read. -/
  | unreadable {err : CompileError} :
      (∀ read rest mark, whole room text.length text ≠ .ok read rest mark) →
      err.code = .patternSyntax → Refused room text err
  /-- A literal in it has no value. -/
  | literal {err : CompileError} {e : Surface} {suffix : Option (Context × Bool)}
      {rest : List Char} {mark : Nat} {lit : Spelling} {x : Extent} :
      whole room text.length text = .ok (e, suffix) rest mark → Expr.Within (.literal lit x) e →
      constant text x lit = .error err → err.code = .invalidLiteral → Refused room text err
  /-- The mark for any arguments stands beside others in it. -/
  | arguments {err : CompileError} {e part any : Surface} {suffix : Option (Context × Bool)}
      {rest : List Char} {mark : Nat} :
      whole room text.length text = .ok (e, suffix) rest mark → part.Within e →
      1 < part.arguments.length → any ∈ part.arguments → any.isAnyArguments = true →
      err.code = .misplacedRepeatedParameter → Refused room text err

/-- Every failure is one of these. -/
lemma refused_of_compileChars {room : Room Opening} {text : List Char} {err : CompileError}
    (h : compileChars room text = .error err) : Refused room text err := by
  unfold compileChars at h
  cases hread : whole room text.length text with
  | deep =>
    rw [hread] at h
    obtain rfl := Except.error.inj h
    exact .unreadable (by simp [hread]) rfl
  | fail mark =>
    rw [hread] at h
    obtain rfl := Except.error.inj h
    exact .unreadable (by simp [hread]) rfl
  | ok read rest mark =>
    obtain ⟨e, suffix⟩ := read
    rw [hread, ofReply] at h
    rcases error_of_bind_eq_error h with herror | ⟨p, -, hnone⟩
    · rcases exists_of_resolve_error text e herror with
        ⟨lit, x, hwithin, hlit⟩ | ⟨part, hwithin, hargs⟩
      · -- a literal that was read is settled, so its failure has the code of one without a value
        exact .literal hread hwithin hlit ((settled_of_whole hread hwithin).code hlit)
      · obtain ⟨hlength, hcode, any, hany, hmark⟩ := exists_of_checkArguments_error hargs
        exact .arguments hread hwithin hlength hany hmark (by rw [CompileError.code, hcode])
    · split at hnone <;> cases hnone

/-- **A text compiles or is refused.** Whatever text is taken for a floating point literal has a
value, one that is taken for an integer or a string literal has a value or is reported, and no
string literal is taken for a text block; this holds of every literal that is read from the text. So
the text has a kind, or there is a fault of the pattern whose code says why. -/
theorem compile_or_refused (room : Room Opening) (t : String) :
    (∀ (s w rest text : List Char) (x : Extent),
      (Grammar.doubleToken? s = some (w, rest) → Settled text x (.double w)) ∧
        (Grammar.integerToken? s = some (w, rest) → Settled text x (.integer w)) ∧
        (Grammar.stringToken? s = some (w, rest) → Settled text x (.string w))) ∧
      (∀ (e : Surface) (suffix : Option (Context × Bool)) (rest : List Char) (mark : Nat),
        whole room t.toList.length t.toList = .ok (e, suffix) rest mark →
          ∀ (lit : Spelling) (x : Extent), Expr.Within (.literal lit x) e →
            Settled t.toList x lit) ∧
      ((∃ k, compileIn room t = .ok k) ∨
        ∃ f err, compileIn room t = .error f ∧ f.kind = .pattern t (String.ofList err.token) none ∧
          f.diagnostic.code = err.code ∧ Refused room t.toList err) := by
  refine ⟨fun s w rest text x => ⟨fun h => ?_, fun _ => settled_integer text x w, fun h => ?_⟩,
    fun e suffix rest mark hread lit x hlit => settled_of_whole hread hlit, ?_⟩
  · exact settled_double text x (Grammar.doubleText_of_doubleToken? h)
  · exact settled_string text x (Grammar.stringText_of_stringToken? h).1
  cases hcompile : compileIn room t with
  | ok k => exact .inl ⟨k, rfl⟩
  | error f =>
    obtain ⟨err, herr, rfl⟩ := exists_of_compileIn_error hcompile
    obtain ⟨before, after, hpoints⟩ := exists_points herr
    -- No text makes the one failure that is not reported as one of the pattern.
    rw [CompileError.fault_of_ne hpoints.cause_ne]
    refine .inr ⟨_, err, rfl, ?_, rfl, refused_of_compileChars herr⟩
    rw [CompileError.patternFault, String.ofList_toList]
    rfl

/-- A floating point literal without digits behind its point has a value, and a call with an escape
that means nothing in its second argument is refused. -/
theorem compile_or_refused_badEscape :
    Grammar.doubleToken? "1_0.e2f + x".toList = some ("1_0.e2f".toList, " + x".toList) ∧
      Settled [] ⟨0, 0⟩ (.double "1_0.e2f".toList) ∧
      ∃ f err, compile "f(1_0.e2f, \"\\q\")" = .error f ∧ f.diagnostic.code = err.code ∧
        Refused Grammar.stackRoom "f(1_0.e2f, \"\\q\")".toList err := by
  have htoken : Grammar.doubleToken? "1_0.e2f + x".toList =
      some ("1_0.e2f".toList, " + x".toList) := by decide +kernel
  have hfails : (compile "f(1_0.e2f, \"\\q\")").isOk = false := by decide +kernel
  obtain ⟨htokens, -, ⟨k, hk⟩ | ⟨f, err, hf, -, hcode, hrefused⟩⟩ :=
    compile_or_refused Grammar.stackRoom "f(1_0.e2f, \"\\q\")"
  · rw [compile, hk] at hfails
    cases hfails
  · exact ⟨htoken, (htokens _ _ _ [] ⟨0, 0⟩).1 htoken, f, err, hf, hcode, hrefused⟩

end ShapeLint.Pattern
