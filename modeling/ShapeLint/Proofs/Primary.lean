import ShapeLint.Proofs.Follow

/-!
# How primaries are read

Each form of a primary is tried in turn, so a form is read where all earlier ones fail. What the
forms start with keeps them apart: a parenthesis, a colon, a digit, a point or a quote; and among
the words, `new`, the words that are values, and the mark for any expression are told from names by
where the word ends.

What is nested in a primary is left open. What is read of it enters by `Leads`, so that one
statement says how a primary is read and that it is nested too deeply only where something in it is.
-/

namespace ShapeLint.Grammar

open Reader
open Text (isBlank isDigit isNameStart isNameChar)

/-! ## Names -/

lemma fails_nameChar {s : List Char} (hs : Halts isNameChar s) : Fails nameChar s := by
  refine Fails.rule (fails_lexeme ?_)
  cases s with
  | nil => rfl
  | cons c s => simp [hs c rfl]

lemma reads_nameChar {c : Char} (hc : isNameChar c = true) (s : List Char) :
    Reads nameChar (c :: s) () s :=
  Reads.rule (reads_lexeme (by simp [hc]))

/-- A word is not read whole from another one: it is not there, or the other one goes on behind it.
So `new` is not read from `newer`, nor the mark for any expression from a name that begins with
it. -/
lemma word_of_ne {w name : String} (hw : ∀ c ∈ w.toList, isNameChar c = true)
    (hn : ∀ c ∈ name.toList, isNameChar c = true) (hne : w ≠ name) {s : List Char}
    (hs : Halts isNameChar s) :
    Fails (word w) (name.toList ++ s) ∨
      ∃ rest, Reads (word w) (name.toList ++ s) () rest ∧ Fails (butNot nameChar) rest := by
  cases h : afterWord? w.toList (name.toList ++ s) with
  | none => exact .inl (fails_word h)
  | some rest =>
    have heq := afterWord?_eq_some h
    refine .inr ⟨rest, heq ▸ reads_word w rest, ?_⟩
    -- If the word ended where the name does, the two would be the same.
    cases rest with
    | nil =>
      exact absurd
        ((word_fits_iff hw hn hs).mp (by simp [heq, endsWord, ← String.length_toList])) hne
    | cons c rest =>
      by_cases hc : isNameChar c = true
      · exact (reads_nameChar hc rest).butNot
      · exact absurd
          ((word_fits_iff hw hn hs).mp (by simp [heq, endsWord, hc, ← String.length_toList])) hne

/-- A name is read whole. That it is not reserved is found out before, by looking for a reserved
word that ends where the name does. -/
lemma reads_identifier {name : String} (h : IsName name) {s : List Char} (hs : Halts isNameChar s) :
    Reads identifier (name.toList ++ s) name s := by
  have hfree : wordToken? reservedWords (name.toList ++ s) = none := by
    rw [wordToken?_append (by decide) h.1.all hs, if_neg h.2]
  have hname := nameToken?_append h.1 hs
  refine Reads.rule ((fails_lexeme hfree).rule.butNot.bind ((reads_lexeme hname).rule.bind ?_))
  rw [String.ofList_toList]
  exact reads_pure name s

/-- What does not start like a name is none, whether a reserved word stands there or not. -/
lemma fails_identifier {c : Char} (hc : isNameStart c = false) (s : List Char) :
    Fails identifier (c :: s) := by
  have hname : nameToken? (c :: s) = none := by rw [nameToken?, hc, if_neg Bool.false_ne_true]
  cases h : wordToken? reservedWords (c :: s) with
  | none => exact ((fails_lexeme h).rule.butNot.bind_fails (fails_lexeme hname).rule.bind).rule
  | some found => exact (reads_lexeme h).rule.butNot.bind.rule

/-! ## Leaves -/

section Leaves

variable {α : Type} {p : Reader α} {node : α → Extent → Surface}

/-- A leaf is read as what is in it is, and its node has the extent from where it starts to where it
ends. -/
lemma Reader.Leads.leaf {s rest : List Char} {a : α} (h : Leads p s (pure a) rest) :
    Leads (leaf p node) s (pure (node a ⟨s.length, rest.length⟩)) rest :=
  ((reads_left s).becomes.trans_leads (h.bind.trans_becomes (reads_left rest).becomes)).rule

lemma Reader.Reads.leaf {s rest : List Char} {a : α} (h : Reads p s a rest) :
    Reads (leaf p node) s (node a ⟨s.length, rest.length⟩) rest :=
  ((reads_left s).becomes.trans (h.becomes.trans (reads_left rest).becomes)).reads
    (reads_pure _ _) |>.rule

lemma Reader.Fails.leaf {s : List Char} (h : Fails p s) : Fails (leaf p node) s :=
  ((reads_left s).bind_fails h.bind).rule

end Leaves

/-! ## What keeps the forms apart -/

section Forms

variable {expression : Reader Surface} {nested : Nested}

lemma fails_grouped {c : Char} (hc : '(' ≠ c) (s : List Char) :
    Fails (grouped expression) (c :: s) :=
  (fails_word_cons (by rfl) hc).bind.rule

lemma fails_creation {c : Char} (hc : 'n' ≠ c) (s : List Char) :
    Fails (creation expression) (c :: s) :=
  (fails_word_cons (by rfl) hc).bind.leaf

/-- No word but `new` creates an instance. -/
lemma fails_creation_of_ne {name : String} (hn : IsWord name) (hne : "new" ≠ name) {s : List Char}
    (hs : Halts isNameChar s) : Fails (creation expression) (name.toList ++ s) := by
  rcases word_of_ne (by decide) hn.all hne hs with h | ⟨rest, h, hend⟩
  · exact h.bind.leaf
  · exact (h.bind_fails hend.bind).leaf

lemma fails_anyOfType {c : Char} (hc : ':' ≠ c) (s : List Char) : Fails anyOfType (c :: s) :=
  (fails_word_cons (by rfl) hc).bind.leaf

/-- A floating point literal starts with a digit or a point. -/
lemma doubleToken?_of_head {c : Char} (hd : isDigit c = false) (hp : c ≠ '.') (s : List Char) :
    doubleToken? (c :: s) = none := by
  have hnum : numeral? (c :: s) = none := by rw [numeral?, hd, if_neg Bool.false_ne_true]
  have hpoint : point? (c :: s) = none := point?_of_halts (halts_cons (by simpa using hp) s)
  unfold doubleToken?
  dsimp only
  rw [followed_eq_none_left hnum, followed_eq_none_left hpoint, followed_eq_none_left hnum,
    followed_eq_none_left hnum]
  rfl

lemma integerToken?_of_head {c : Char} (hd : isDigit c = false) (s : List Char) :
    integerToken? (c :: s) = none := by
  have hnum : numeral? (c :: s) = none := by rw [numeral?, hd, if_neg Bool.false_ne_true]
  have hmark : ∀ lower upper class_, markedToken? lower upper class_ (c :: s) = none := by
    intro lower upper class_
    unfold markedToken?
    split
    · rename_i heq
      obtain ⟨rfl, -⟩ := List.cons.inj heq
      exact absurd hd (by decide)
    · rfl
  rw [integerToken?, hmark, hmark, hnum]
  rfl

/-- A literal that is no word starts with a digit, a point or a quote. -/
lemma fails_literal {c : Char} (hd : isDigit c = false) (hp : c ≠ '.') (hq : c ≠ '"')
    (s : List Char) :
    Fails literal (c :: s) := by
  have hstring : stringToken? (c :: s) = none := by
    unfold stringToken?
    split
    · rename_i heq
      exact absurd (List.cons.inj heq).1 hq
    · rfl
  exact ((fails_lexeme (doubleToken?_of_head hd hp s)).leaf.orElse
    ((fails_lexeme (integerToken?_of_head hd s)).leaf.orElse
      ((fails_lexeme hstring).leaf.orElse (fails_firstOf_nil _)))).rule

/-- No digit starts a name, in whatever script it is. Names start with one of a few characters, so
this can be decided although there are digits in many scripts. -/
lemma isDigit_of_isNameStart {c : Char} (h : isNameStart c = true) : isDigit c = false := by
  -- all characters that start a name are among the first ones, and those can be gone through
  have hlt : c.toNat < 128 := by
    simp only [isNameStart, Bool.or_eq_true, beq_iff_eq] at h
    obtain (halpha | rfl) | rfl := h
    · obtain hupper | hlower := Bool.or_eq_true_iff.1 halpha
      · exact Nat.lt_of_le_of_lt (UInt32.le_iff_toNat_le.1 (of_decide_eq_true hupper).2) (by decide)
      · exact Nat.lt_of_le_of_lt (UInt32.le_iff_toNat_le.1
          (of_decide_eq_true (Bool.and_eq_true_iff.1 hlower).2)) (by decide)
    · decide
    · decide
  have hall : ∀ n < 128, isNameStart (Char.ofNat n) = true → isDigit (Char.ofNat n) = false := by
    decide +kernel
  have hc := hall c.toNat hlt
  rw [Char.ofNat_toNat] at hc
  exact hc h

/-- No word starts as another form does: with a parenthesis, a colon, a point or a quote. -/
lemma ne_of_isNameStart {c : Char} (h : isNameStart c = true) :
    '(' ≠ c ∧ ':' ≠ c ∧ '.' ≠ c ∧ '"' ≠ c := by
  refine ⟨?_, ?_, ?_, ?_⟩ <;> rintro rfl <;> exact absurd h (by decide)

/-- Where a word stands other than `new`, the forms that are no words fail, and it is left to those
that are. -/
lemma becomes_words {name : String} (hn : IsWord name) (hne : "new" ≠ name) {s : List Char}
    (hs : Halts isNameChar s) :
    Becomes (firstOf [grouped (nested.expression .group), creation (nested.expression .creation),
        anyOfType, literal, keyword, wildcard, call (nested.expression .call), reference])
      (name.toList ++ s)
      (firstOf [keyword, wildcard, call (nested.expression .call), reference])
      (name.toList ++ s) := by
  have hnew : Fails (creation (nested.expression .creation)) (name.toList ++ s) :=
    fails_creation_of_ne hn hne hs
  obtain ⟨c, cs, hname, hc, -⟩ := hn
  obtain ⟨hparen, hcolon, hpoint, hquote⟩ := ne_of_isNameStart hc
  rw [hname] at hnew ⊢
  exact (fails_grouped hparen _).orElse_becomes.trans (hnew.orElse_becomes.trans
    ((fails_anyOfType hcolon _).orElse_becomes.trans
      (fails_literal (isDigit_of_isNameStart hc) (Ne.symm hpoint)
        (Ne.symm hquote) _).orElse_becomes))

/-- Where a name stands, the words that are values and the mark for any expression fail too. What is
left is a call or a reference, which only what follows the name can tell apart. -/
lemma becomes_names {name : String} (hn : IsName name) (hmark : name ≠ "_") {s : List Char}
    (hs : Halts isNameChar s) :
    Becomes (firstOf [grouped (nested.expression .group), creation (nested.expression .creation),
        anyOfType, literal, keyword, wildcard, call (nested.expression .call), reference])
      (name.toList ++ s)
      (firstOf [call (nested.expression .call), reference]) (name.toList ++ s) := by
  have hfree : ∀ w ∈ reservedWords, w ≠ name := fun w hw h => hn.2 (h ▸ hw)
  -- All words that are values are reserved, and the name is not.
  have hkeyword : Fails keyword (name.toList ++ s) := by
    refine Fails.leaf (fails_lexeme ?_)
    rw [wordToken?_append (by decide) hn.1.all hs, if_neg]
    intro hmem
    exact hn.2 ((by decide : ∀ w ∈ ["true", "false", "null", "this"], w ∈ reservedWords) name hmem)
  have hwildcard : Fails wildcard (name.toList ++ s) := by
    rcases word_of_ne (by decide) hn.1.all (Ne.symm hmark) hs with h | ⟨rest, h, hend⟩
    · exact h.bind.leaf
    · exact (h.bind_fails hend).leaf
  exact (becomes_words hn.1 (hfree "new" (by decide)) hs).trans
    (hkeyword.orElse_becomes.trans hwildcard.orElse_becomes)

/-! ## Each form -/

/-- An expression in parentheses is read as the expression by itself, and the parentheses leave
nothing behind. -/
lemma leads_grouped {a b t s : List Char} {e : Surface} (ha : Gap a) (hb : Gap b) (ht : Solid t)
    (h : Leads (nested.expression .group) (t ++ (b ++ ')' :: s)) (pure e) (b ++ ')' :: s)) :
    Leads (primary nested) ('(' :: (a ++ (t ++ (b ++ ')' :: s)))) (pure e) s := by
  refine Leads.rule (Leads.orElse (Leads.rule ?_))
  refine (reads_word "(" _).becomes.trans_leads
    ((ha.reads_skip (ht.append _)).becomes.trans_leads ?_)
  refine h.bind.trans_becomes ?_
  exact (hb.reads_skip ⟨_, _, rfl, by decide⟩).becomes.trans (reads_word ")" s).rule.becomes

lemma IsWord.solid {w : String} (h : IsWord w) (s : List Char) : Solid (w.toList ++ s) := by
  obtain ⟨c, cs, hw, hc, -⟩ := h
  rw [hw]
  exact ⟨c, cs ++ s, rfl, inky_isNameChar.not_blank (isNameChar_of_isNameStart hc)⟩

/-- The creation of an instance is read with its name and its arguments, as far as there is room for
them. -/
lemma leads_creation {name : String} (hn : IsName name) {g u s : List Char} (hg : Gap g)
    {args : List Surface} (hu : Apart u)
    (h : Leads (arguments (nested.expression .creation)) u (pure args) s) :
    ∃ x, Leads (primary nested) ("new".toList ++ (g ++ (name.toList ++ u)))
      (pure (.creation name args x)) s := by
  refine ⟨_, Leads.rule ((fails_grouped (by decide) _).orElse_becomes.trans_leads
    (Leads.orElse (Leads.leaf (a := (name, args)) ?_)))⟩
  refine (reads_word "new" _).becomes.trans_leads ?_
  refine (fails_nameChar (inky_isNameChar.halts (hg.apart _))).butNot.becomes.trans_leads ?_
  refine (hg.reads_skip (hn.1.solid u)).becomes.trans_leads ?_
  exact (reads_identifier hn (inky_isNameChar.halts hu)).becomes.trans_leads h.bind

/-- The words that stand between colons, in the order in which they are looked for. -/
def typeWords : List String :=
  ["int", "double", "string", "boolean", "bool", "lambda"]

/-- The node that a word between colons stands for. Two of the words stand for any truth value. -/
def typeNode (w : String) (x : Extent) : Surface :=
  match w with
  | "int" => .anyLiteral .int x
  | "double" => .anyLiteral .double x
  | "string" => .anyLiteral .string x
  | "lambda" => .anyLambda x
  | _ => .anyLiteral .boolean x

lemma leadingWord?_append {w : String} (hw : w ∈ typeWords) (s : List Char) :
    leadingWord? typeWords (w.toList ++ ':' :: s) = some (w, ':' :: s) := by
  simp only [typeWords, List.mem_cons, List.not_mem_nil, or_false] at hw
  rcases hw with rfl | rfl | rfl | rfl | rfl | rfl <;> rfl

/-- A word between colons is read as the node that it stands for. -/
lemma reads_typeNode {w : String} (hw : w ∈ typeWords) (s : List Char) :
    ∃ x, Reads (primary nested) (':' :: (w.toList ++ ':' :: s)) (typeNode w x) s := by
  refine ⟨_, Reads.rule
    ((fails_grouped (by decide) _).orElse_reads ((fails_creation (by decide) _).orElse_reads
    (Reads.orElse (Reads.leaf (a := w) ?_))))⟩
  refine (reads_word ":" _).bind ((reads_lexeme (leadingWord?_append hw s)).rule.bind ?_)
  exact (reads_word ":" s).bind (reads_pure w s)

lemma reads_anyLiteral {type : LiteralType} {w : String} (hw : w ∈ type.words) (s : List Char) :
    ∃ x, Reads (primary nested) (':' :: (w.toList ++ ':' :: s)) (.anyLiteral type x) s := by
  cases type <;> simp only [LiteralType.words, List.mem_cons, List.not_mem_nil, or_false] at hw
  case boolean => rcases hw with rfl | rfl <;> exact reads_typeNode (by decide) s
  all_goals
    subst hw
    exact reads_typeNode (by decide) s

lemma reads_anyLambda (s : List Char) :
    ∃ x, Reads (primary nested) (":lambda:".toList ++ s) (.anyLambda x) s :=
  reads_typeNode (w := "lambda") (by decide) s

/-- A literal is read where no earlier form starts. The later forms do not matter. -/
lemma reads_literal {c : Char} {t s u : List Char} {e : Surface} (ht : t = c :: u)
    (hc : c ∉ ['(', 'n', ':']) (h : Reads literal t e s) : Reads (primary nested) t e s := by
  simp only [List.mem_cons, List.not_mem_nil, or_false, not_or] at hc
  obtain ⟨hparen, hnew, hcolon⟩ := hc
  subst ht
  exact Reads.rule ((fails_grouped (Ne.symm hparen) _).orElse_reads
    ((fails_creation (Ne.symm hnew) _).orElse_reads
      ((fails_anyOfType (Ne.symm hcolon) _).orElse_reads h.orElse)))

lemma not_mem_of_isDigit {c : Char} (h : isDigit c = true) : c ∉ ['(', 'n', ':'] := by
  simp only [List.mem_cons, List.not_mem_nil, or_false]
  rintro (rfl | rfl | rfl) <;> exact absurd h (by decide)

lemma NumeralText.head {w : List Char} (h : NumeralText w) (s : List Char) :
    ∃ c t, w ++ s = c :: t ∧ isDigit c = true := by
  obtain ⟨c, cs, rfl, hc, -⟩ := h
  exact ⟨c, cs ++ s, rfl, hc⟩

lemma IntegerText.head {t : List Char} (h : IntegerText t) (s : List Char) :
    ∃ c u, t ++ s = c :: u ∧ isDigit c = true := by
  cases h with
  | hexadecimal | binary => exact ⟨'0', _, rfl, by decide⟩
  | plain hw => exact hw.head s

/-- A floating point literal starts with a digit, or with a point and a digit. In the second case
nothing but the digit tells it from the marks that begin with a point. -/
lemma DoubleText.head {t : List Char} (h : DoubleText t) (s : List Char) :
    ∃ c u, t ++ s = c :: u ∧
      (isDigit c = true ∨ c = '.' ∧ ∃ d v, u = d :: v ∧ isDigit d = true) := by
  cases h with
  | @pointInFront w e x hw =>
    obtain ⟨d, v, hv, hd⟩ := hw.head (e ++ x ++ s)
    exact ⟨'.', d :: v,
      by rw [← hv, List.cons_append, List.append_assoc], .inr ⟨rfl, d, v, rfl, hd⟩⟩
  | pointBehind hw | exponent hw | suffix hw =>
    rw [List.append_assoc]
    obtain ⟨d, v, hv, hd⟩ := hw.head (_ ++ s)
    exact ⟨d, v, hv, .inl hd⟩

lemma reads_double {t s : List Char} (h : DoubleText t) (hs : Apart s) :
    ∃ x, Reads (primary nested) (t ++ s) (.literal (.double t) x) s := by
  have hread : Reads literal (t ++ s) _ s :=
    Reads.rule (Reads.orElse (Reads.leaf (reads_lexeme (doubleToken?_append h hs))))
  obtain ⟨c, u, hcu, hc⟩ := h.head s
  refine ⟨_, reads_literal hcu ?_ hread⟩
  rcases hc with hc | ⟨rfl, -⟩
  · exact not_mem_of_isDigit hc
  · decide

/-- An integer literal is read as such, since it is not taken for a floating point literal. -/
lemma reads_integer {t s : List Char} (h : IntegerText t) (hs : Apart s) :
    ∃ x, Reads (primary nested) (t ++ s) (.literal (.integer t) x) s := by
  have hno : Fails (leaf (lexeme doubleToken?) fun text => .literal (.double text)) (t ++ s) :=
    (fails_lexeme (h.doubleToken?_append hs)).leaf
  have hread : Reads literal (t ++ s) _ s :=
    Reads.rule (hno.orElse_reads
      (Reads.orElse (Reads.leaf (reads_lexeme (integerToken?_append h hs)))))
  obtain ⟨c, u, hcu, hc⟩ := h.head s
  exact ⟨_, reads_literal hcu (not_mem_of_isDigit hc) hread⟩

lemma reads_string {t : List Char} (h : StringText t) (s : List Char) :
    ∃ x, Reads (primary nested) (t ++ s) (.literal (.string t) x) s := by
  have htoken := reads_lexeme (stringToken?_append h s)
  obtain ⟨body, ht, -⟩ := h
  have hhead : t ++ s = '"' :: (body ++ ['"'] ++ s) := by rw [ht, List.cons_append]
  have hdouble :
      Fails (leaf (lexeme doubleToken?) fun text => .literal (.double text)) (t ++ s) := by
    rw [hhead]
    exact (fails_lexeme (doubleToken?_of_head (by decide) (by decide) _)).leaf
  have hinteger :
      Fails (leaf (lexeme integerToken?) fun text => .literal (.integer text)) (t ++ s) := by
    rw [hhead]
    exact (fails_lexeme (integerToken?_of_head (by decide) _)).leaf
  have hread : Reads literal (t ++ s) _ s :=
    Reads.rule (hdouble.orElse_reads (hinteger.orElse_reads (Reads.orElse htoken.leaf)))
  exact ⟨_, reads_literal hhead (by decide) hread⟩

/-- The node that a word which is a value stands for: the null literal, the current object or a
truth value. -/
def valueNode (w : String) (x : Extent) : Surface :=
  match w with
  | "null" => .null x
  | "this" => .this x
  | w => .literal (.boolean (w == "true")) x

lemma isWord_of_value : ∀ w ∈ ["true", "false", "null", "this"], IsWord w := by
  decide

/-- A word that is a value is read as that value, since it is neither `new` nor a name. -/
lemma reads_valueNode {w : String} (hw : w ∈ ["true", "false", "null", "this"]) {s : List Char}
    (hs : Apart s) :
    ∃ x, Reads (primary nested) (w.toList ++ s) (valueNode w x) s := by
  have hword := isWord_of_value w hw
  have hnew : "new" ≠ w := by
    rintro rfl
    exact absurd hw (by decide)
  have hend := inky_isNameChar.halts hs
  have htoken : wordToken? ["true", "false", "null", "this"] (w.toList ++ s) = some (w, s) := by
    rw [wordToken?_append (by decide) hword.all hend, if_pos hw]
  exact ⟨_, Reads.rule
    ((becomes_words hword hnew hend).reads (Reads.orElse (Reads.leaf (reads_lexeme htoken))))⟩

lemma reads_wildcard {s : List Char} (hs : Apart s) :
    ∃ x, Reads (primary nested) ('_' :: s) (.wildcard x) s := by
  have hword : IsWord "_" := by decide
  have hend := inky_isNameChar.halts hs
  have hkeyword : Fails keyword ("_".toList ++ s) := by
    refine Fails.leaf (fails_lexeme ?_)
    rw [wordToken?_append (by decide) hword.all hend, if_neg (by decide)]
  refine ⟨_, Reads.rule
    ((becomes_words hword (by decide) hend).reads (hkeyword.orElse_reads (Reads.orElse
    (Reads.leaf (a := ()) ?_))))⟩
  exact (reads_word "_" s).bind (fails_nameChar hend).butNot

/-- A name with arguments behind it is a call, as far as there is room for the arguments. -/
lemma leads_call {name : String} (hn : IsName name) (hmark : name ≠ "_") {u s : List Char}
    {args : List Surface} (hu : Apart u)
    (h : Leads (arguments (nested.expression .call)) u (pure args) s) :
    ∃ x, Leads (primary nested) (name.toList ++ u) (pure (.call name args x)) s := by
  have hend := inky_isNameChar.halts hu
  refine ⟨_, Leads.rule
    ((becomes_names hn hmark hend).trans_leads (Leads.orElse (Leads.leaf (a := (name, args)) ?_)))⟩
  exact (reads_identifier hn hend).becomes.trans_leads h.bind

/-- A name without arguments behind it is a reference. The call is tried first and has to fail,
which it does where no parenthesis follows. -/
lemma reads_reference {name : String} (hn : IsName name) (hmark : name ≠ "_") {s : List Char}
    (hs : Apart s) (h : Fails (arguments (nested.expression .call)) s) :
    ∃ x, Reads (primary nested) (name.toList ++ s) (.reference name x) s := by
  have hend := inky_isNameChar.halts hs
  have hname := reads_identifier hn hend
  have hcall : Fails (call (nested.expression .call)) (name.toList ++ s) :=
    (hname.bind_fails h.bind).leaf
  exact ⟨_, Reads.rule
    ((becomes_names hn hmark hend).reads (hcall.orElse_reads (Reads.orElse hname.leaf)))⟩

/-! ## Arguments -/

/-- Arguments in parentheses are read if the list between the parentheses is, or if there is
none. -/
lemma leads_arguments {a b c v s : List Char} {args : Option (List Surface)}
    (ha : Gap a) (hb : Gap b) (hc : ∀ d ∈ c, isBlank d = true) (hv : Solid v)
    (h : Leads (optional (argumentList expression)) v (pure args) (c ++ ')' :: s)) :
    Leads (arguments expression) (a ++ '(' :: (b ++ v)) (pure (args.getD [])) s := by
  refine Leads.rule ((ha.reads_skip ⟨_, _, rfl, by decide⟩).becomes.trans_leads ?_)
  refine (reads_word "(" _).becomes.trans_leads ((hb.reads_skip hv).becomes.trans_leads ?_)
  refine h.bind.trans_becomes ?_
  exact (reads_skip hc (halts_cons (by decide) s)).becomes.trans (reads_word ")" s).rule.becomes

lemma leads_argument {t rest : List Char} {e : Surface} (ht : Fails (word "...") t)
    (h : Leads expression t (pure e) rest) : Leads (argument expression) t (pure e) rest :=
  (ht.leaf.orElse_becomes.trans_leads h).rule

lemma leads_furtherArgument {a b t rest : List Char} {e : Surface} (ha : Gap a) (hb : Gap b)
    (hsolid : Solid t) (ht : Fails (word "...") t) (h : Leads expression t (pure e) rest) :
    Leads (furtherArgument expression) (a ++ ',' :: (b ++ t)) (pure e) rest := by
  refine (ha.reads_skip ⟨_, _, rfl, by decide⟩).becomes.trans_leads ?_
  refine (reads_word "," _).becomes.trans_leads ((hb.reads_skip hsolid).becomes.trans_leads ?_)
  exact leads_argument ht h

lemma fails_furtherArgument {c : List Char} (hc : Gap c) (s : List Char) :
    Fails (furtherArgument expression) (c ++ ')' :: s) :=
  (hc.reads_skip ⟨_, _, rfl, by decide⟩).bind_fails (fails_word_cons (by rfl) (by decide)).bind

/-- Nothing but a closing parenthesis is no argument. It is read as an expression to find that out,
and if there is no room for that reading sinks. -/
theorem leads_noArguments {s : List Char}
    (h : Fails expression (')' :: s) ∨ Sinks expression (')' :: s)) :
    Leads (optional (argumentList expression)) (')' :: s) (pure none) (')' :: s) := by
  have hmark : Fails anyArguments (')' :: s) := (fails_word_cons (by rfl) (by decide)).leaf
  rcases h with h | h
  · exact (hmark.orElse h).rule.bind.rule.optional.leads
  · exact (hmark.orElse_becomes.sinks h).rule.bind.rule.optional.leads

lemma reads_anyArguments {c : List Char} (hc : Gap c) (s : List Char) :
    ∃ x, Reads (argumentList expression) ("...".toList ++ (c ++ ')' :: s)) [.anyArguments x]
      (c ++ ')' :: s) := by
  have hmark : Reads (argument expression) ("...".toList ++ (c ++ ')' :: s)) _ (c ++ ')' :: s) :=
    Reads.rule (Reads.orElse (Reads.leaf (reads_word "..." _)))
  exact ⟨_, Reads.rule
    (hmark.becomes.reads ((fails_furtherArgument hc s).many.becomes.reads (reads_pure _ _)))⟩

end Forms

/-! ## Operands -/

section Chains

variable {operand : Reader Surface} {s : List Char}

lemma Reader.Fails.chain {tail : Reader Tail} (h : Fails operand s) :
    Fails (chain operand tail) s :=
  h.bind.rule

lemma Reader.Sinks.chain {tail : Reader Tail} (h : Sinks operand s) :
    Sinks (chain operand tail) s :=
  h.bind.rule

lemma Reader.Fails.expressionOver (h : Fails operand s) : Fails (expressionOver operand) s :=
  h.chain.chain.chain.chain.chain

lemma Reader.Sinks.expressionOver (h : Sinks operand s) : Sinks (expressionOver operand) s :=
  h.chain.chain.chain.chain.chain

end Chains

/-- No form of a primary starts with a closing parenthesis. All forms are tried, in their order. -/
lemma fails_primary_close (nested : Nested) (s : List Char) :
    Fails (primary nested) (')' :: s) := by
  have hkeyword : Fails keyword (')' :: s) :=
    (fails_lexeme (wordToken?_of_halts isWord_of_value (halts_cons (by decide) s))).leaf
  have hname := fails_identifier (c := ')') (by decide) s
  exact ((fails_grouped (by decide) s).orElse ((fails_creation (by decide) s).orElse
    ((fails_anyOfType (by decide) s).orElse
      ((fails_literal (by decide) (by decide) (by decide) s).orElse
      (hkeyword.orElse ((fails_word_cons (by rfl) (by decide)).bind.leaf.orElse
        (hname.bind.leaf.orElse (hname.leaf.orElse (fails_firstOf_nil _))))))))).rule

lemma fails_prefixed_close (operand : Reader Surface) (nested : Nested) (s : List Char) :
    Fails (prefixed operand nested) (')' :: s) := by
  have hstep := fails_updateOperator_of_head (c := ')') (by decide) (by decide) s
  have hsign := fails_unaryOperator_of_head (c := ')') (by decide) (by decide) (by decide) s
  refine Fails.rule
    ((reads_left _).bind_fails (hstep.optional.bind_fails (hsign.optional.bind_fails ?_)))
  exact Fails.rule (Reads.bind_fails (reads_left _) (Fails.bind (fails_primary_close _ s)))

lemma sinks_expression_none (s : List Char) : Sinks (expression .none) s :=
  (sinks_operandWithin_none s).expressionOver

/-- No expression starts with a closing parenthesis, where there is room to find that out. -/
theorem fails_expression_close (room : Room Opening) (s : List Char) :
    Fails (expression room) (')' :: s) ∨ Sinks (expression room) (')' :: s) := by
  cases room with
  | none => exact .inr (sinks_expression_none _)
  | more inside =>
    have hoperand : Fails (operandWithin (.more inside)) (')' :: s) :=
      fails_prefixed_close _ (nestedWithin inside) s
    exact .inl hoperand.expressionOver

end ShapeLint.Grammar
