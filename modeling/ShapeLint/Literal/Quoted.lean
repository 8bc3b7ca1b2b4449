import ShapeLint.Text.Blank
import ShapeLint.Text.CodePoint
import ShapeLint.Text.Lines

/-!
# String literals and text blocks

The value of a quoted literal is its body with the escapes replaced. A text block is a body between
three quotes: what follows the opening quotes on their line is dropped, then the indentation that
all its lines share, and then the escapes are replaced.
-/

namespace ShapeLint.Literal

open ShapeLint.Text (CodePoint isSpace isIndent trimEnd splitFeeds joinFeeds)

/-- An escape that means nothing: the character after the backslash. -/
structure BadEscape where
  char : Char
deriving DecidableEq, Inhabited

/-- The message for an escape that means nothing. -/
def BadEscape.message (e : BadEscape) : String :=
  "invalid escape sequence \\".push e.char

/-- The character named by a one-letter escape. -/
def simpleEscape? : Char → Option Char
  | 'b' => some '\x08'
  | 't' => some '\t'
  | 'n' => some '\n'
  | 'f' => some '\x0c'
  | 'r' => some '\r'
  | 's' => some ' '
  | '"' => some '"'
  | '\'' => some '\''
  | '\\' => some '\\'
  | _ => none

/-- The value of an ASCII hexadecimal digit. -/
def hexDigit? (c : Char) : Option Nat :=
  if '0' ≤ c ∧ c ≤ '9' then some (c.toNat - 0x30)
  else if 'a' ≤ c ∧ c ≤ 'f' then some (c.toNat - 0x57)
  else if 'A' ≤ c ∧ c ≤ 'F' then some (c.toNat - 0x37)
  else none

/-- The value of an octal digit. -/
def octalDigit? (c : Char) : Option Nat :=
  if '0' ≤ c ∧ c ≤ '7' then some (c.toNat - 0x30) else none

/-- The code point with a number, zero where there is none. -/
def codePoint (n : Nat) : CodePoint :=
  if h : n < 0x110000 then ⟨n, h⟩ else ⟨0, by decide⟩

/-- A Unicode escape after its backslash: one or more `u` and four hexadecimal digits. -/
def unicodeEscape? (s : List Char) : Option (CodePoint × List Char) :=
  match s with
  | 'u' :: rest =>
    match rest.dropWhile (· == 'u') with
    | a :: b :: c :: d :: rest =>
      match hexDigit? a, hexDigit? b, hexDigit? c, hexDigit? d with
      | some a, some b, some c, some d => some (codePoint (((a * 16 + b) * 16 + c) * 16 + d), rest)
      | _, _, _, _ => none
    | _ => none
  | _ => none

/-- The octal digits at the front of a text, at most as many as given, after a number read so far.
-/
def takeOctal (acc : Nat) : Nat → List Char → Nat × List Char
  | 0, s => (acc, s)
  | _ + 1, [] => (acc, [])
  | n + 1, c :: rest =>
    match octalDigit? c with
    | some d => takeOctal (acc * 8 + d) n rest
    | none => (acc, c :: rest)

/-- An octal escape after its backslash: up to three digits, or up to two if the first is above
three, so that its value fits a byte. -/
def octalEscape? : List Char → Option (CodePoint × List Char)
  | c :: rest =>
    (octalDigit? c).map fun d =>
      let (n, rest) := takeOctal d (if d ≤ 3 then 2 else 1) rest
      (codePoint n, rest)
  | [] => none

/-- One escape after its backslash: what it stands for, which is nothing for a line feed, and the
rest. A letter `u` without four digits behind it is no escape. -/
def escape (c : Char) (rest : List Char) : Except BadEscape (Option CodePoint × List Char) :=
  match unicodeEscape? (c :: rest) with
  | some (p, rest) => .ok (some p, rest)
  | none =>
    match octalEscape? (c :: rest) with
    | some (p, rest) => .ok (some p, rest)
    | none =>
      if c = '\n' then .ok (none, rest)
      else
        match simpleEscape? c with
        | some d => .ok (some (CodePoint.ofChar d), rest)
        | none => .error ⟨c⟩

theorem length_unicodeEscape? {s : List Char} {p : CodePoint} {rest : List Char}
    (h : unicodeEscape? s = some (p, rest)) : rest.length < s.length := by
  unfold unicodeEscape? at h
  split at h
  · rename_i t
    split at h
    · rename_i a b c d r hd
      have hl : (t.dropWhile (· == 'u')).length ≤ t.length :=
        (List.dropWhile_sublist _).length_le
      rw [hd] at hl
      simp only [List.length_cons] at hl ⊢
      split at h
      · simp only [Option.some.injEq, Prod.mk.injEq] at h
        rw [← h.2]
        omega
      · cases h
    · cases h
  · cases h

theorem length_takeOctal (acc n : Nat) (s : List Char) :
    (takeOctal acc n s).2.length ≤ s.length := by
  fun_induction takeOctal acc n s with
  | case1 => exact Nat.le_refl _
  | case2 => exact Nat.le_refl _
  | case3 acc n c rest d hd ih => exact Nat.le_trans ih (Nat.le_succ _)
  | case4 => exact Nat.le_refl _

theorem length_octalEscape? {s : List Char} {p : CodePoint} {rest : List Char}
    (h : octalEscape? s = some (p, rest)) : rest.length < s.length := by
  cases s with
  | nil => cases h
  | cons c t =>
    simp only [octalEscape?, Option.map_eq_some_iff] at h
    obtain ⟨d, _, h⟩ := h
    have hl := length_takeOctal d (if d ≤ 3 then 2 else 1) t
    simp only [Prod.mk.injEq] at h
    rw [← h.2]
    simp only [List.length_cons]
    omega

theorem length_escape {c : Char} {s : List Char} {p : Option CodePoint} {rest : List Char}
    (h : escape c s = .ok (p, rest)) : rest.length ≤ s.length := by
  unfold escape at h
  split at h
  next q r hq =>
    have hl := length_unicodeEscape? hq
    simp only [Except.ok.injEq, Prod.mk.injEq, List.length_cons] at h hl
    rw [← h.2]
    omega
  next =>
    split at h
    next q r hq =>
      have hl := length_octalEscape? hq
      simp only [Except.ok.injEq, Prod.mk.injEq, List.length_cons] at h hl
      rw [← h.2]
      omega
    next =>
      split at h
      · simp only [Except.ok.injEq, Prod.mk.injEq] at h
        exact h.2 ▸ Nat.le_refl _
      · split at h
        · simp only [Except.ok.injEq, Prod.mk.injEq] at h
          exact h.2 ▸ Nat.le_refl _
        · cases h

/-- A body with its escapes replaced. A backslash at the very end stands for itself. -/
def unescape : List Char → Except BadEscape (List CodePoint)
  | [] => .ok []
  | '\\' :: c :: rest =>
    match _h : escape c rest with
    | .error e => .error e
    | .ok (p, rest') => (unescape rest').map (p.toList ++ ·)
  | c :: rest => (unescape rest).map (CodePoint.ofChar c :: ·)
termination_by s => s.length
decreasing_by
  · have := length_escape _h
    simp only [List.length_cons]
    omega
  · simp only [List.length_cons]
    omega

/-! ## Text blocks -/

/-- Whether a line has nothing but white space. -/
def isBlankLine (line : List Char) : Bool :=
  line.all isSpace

/-- How many spaces and tabs a line starts with. -/
def indentOf (line : List Char) : Nat :=
  (line.takeWhile isIndent).length

/-- The lines that decide how much indentation is shared: those with something on them, and the
last. -/
def significantLines (ls : List (List Char)) : List (List Char) :=
  ls.filter (fun line => !isBlankLine line) ++
    match ls.getLast? with
    | some last => if isBlankLine last then [last] else []
    | none => []

/-- The indentation that the significant lines share: the least of theirs. A space and a tab count
alike. -/
def sharedIndent (ls : List (List Char)) : Nat :=
  ((significantLines ls).map indentOf).min?.getD 0

/-- A body without the indentation that its lines share and without spaces and tabs at the ends of
lines. Escapes are replaced afterwards, so those at an end that are written as escapes stay. -/
def stripIndent (body : List Char) : List Char :=
  let ls := splitFeeds body
  let indent := sharedIndent ls
  joinFeeds (ls.map fun line => trimEnd isIndent (line.drop indent))

/-- What follows the first line feed of a text, or all of it if there is none. -/
def afterFirstFeed (s : List Char) : List Char :=
  match s.dropWhile (· != '\n') with
  | [] => s
  | _ :: rest => rest

/-- A text without so many characters at each end. -/
def dropEnds (n : Nat) (s : List Char) : List Char :=
  (s.take (s.length - n)).drop n

/-- Whether a literal starts with three quotes. -/
def isTextBlock : List Char → Bool
  | '"' :: '"' :: '"' :: _ => true
  | _ => false

/-- The value of a quoted literal or text block. The quotes are taken off without being looked
at. -/
def string (s : List Char) : Except BadEscape (List CodePoint) :=
  if isTextBlock s then unescape (stripIndent (afterFirstFeed (dropEnds 3 s)))
  else unescape (dropEnds 1 s)

end ShapeLint.Literal
