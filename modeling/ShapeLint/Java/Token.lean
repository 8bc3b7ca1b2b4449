import ShapeLint.Java.Numeral
import ShapeLint.Java.Source
import ShapeLint.Text.Blank
import ShapeLint.Text.Word

/-!
# Java tokens

A source is cut into words, literals and symbols; white space and comments only divide them. A
symbol reaches as far as it can, except that angle brackets that close stay apart: whether two of
them are one shift operator or the ends of two type argument lists is for the grammar to say. The
first place at which no token starts ends the tokens.
-/

namespace ShapeLint.Java

/-- What kind of token it is: an identifier or a keyword, a literal with its type, or a symbol. -/
inductive TokenKind where
  | word
  | literal (type : String)
  | symbol
deriving DecidableEq, Inhabited

/-- A token: its kind and its text, with the offsets of its first byte and of the byte after its
last. -/
structure Token where
  kind : TokenKind
  text : String
  start : Nat
  stop : Nat
deriving Inhabited

/-- What stands for a byte that belongs to no character: a control character of one byte, which
starts no token. -/
def substitute : Char := '\x1a'

/-- The characters of a source, in which each byte that belongs to no character is replaced. -/
def Source.chars (s : Source) : List Char :=
  (Text.utf8Pieces s.bytes).flatMap fun piece =>
    match piece.char? with
    | some c => [c]
    | none => List.replicate piece.width substitute

/-- The number of bytes of a text. -/
def byteLength : List Char → Nat
  | [] => 0
  | c :: s => c.utf8Size + byteLength s

/-! ## Quoted literals

Each of these gives the number of characters up to and with the end of what is quoted, which starts
after the opening quotes. -/

/-- The rest of a character literal, which must not be empty; the flag says whether something was
read. -/
def charLength : Bool → List Char → Option Nat
  | _, '\\' :: _ :: s => (charLength true s).map (· + 2)
  | _, '\n' :: _ => none
  | filled, '\'' :: _ => if filled then some 1 else none
  | _, _ :: s => (charLength true s).map (· + 1)
  | _, [] => none

/-- Whether an escape that starts with these characters, after the backslash, is one. What it means
is not looked at here. -/
def startsEscape : List Char → Bool
  | 'u' :: '{' :: s =>
    (s.takeWhile Numeral.isHex).length > 0 && (s.dropWhile Numeral.isHex).head? == some '}'
  | 'u' :: s => (s.take 4).length == 4 && (s.take 4).all Numeral.isHex
  | 'x' :: s => (s.take 2).length == 2 && (s.take 2).all Numeral.isHex
  | _ :: _ => true
  | [] => false

/-- The rest of a string literal. -/
def stringLength : List Char → Option Nat
  | '"' :: _ => some 1
  | '\\' :: c :: s => if startsEscape (c :: s) then (stringLength s).map (· + 2) else none
  | _ :: s => (stringLength s).map (· + 1)
  | [] => none

/-- The rest of a text block. -/
def textBlockLength : List Char → Option Nat
  | '"' :: '"' :: '"' :: _ => some 3
  | '\\' :: _ :: s => (textBlockLength s).map (· + 2)
  | _ :: s => (textBlockLength s).map (· + 1)
  | [] => none

/-- The type and the length of the quoted literal at the start of a text. Three quotes start a text
block, so that an empty string is never followed by another quote. -/
def quotedLength : List Char → Option (String × Nat)
  | '"' :: '"' :: '"' :: s => (textBlockLength s).map fun n => ("string_literal", n + 3)
  | '"' :: s => (stringLength s).map fun n => ("string_literal", n + 1)
  | '\'' :: s => (charLength false s).map fun n => ("character_literal", n + 1)
  | _ => none

/-! ## Comments -/

/-- The rest of a block comment, up to the first place at which it is closed. -/
def blockCommentLength : List Char → Option Nat
  | '*' :: '/' :: _ => some 2
  | _ :: s => (blockCommentLength s).map (· + 1)
  | [] => none

/-- The length of the comment at the start of a text. -/
def commentLength : List Char → Option Nat
  | '/' :: '/' :: s => some (2 + (s.takeWhile (· != '\n')).length)
  | '/' :: '*' :: s => (blockCommentLength s).map (· + 2)
  | _ => none

/-! ## Words and symbols -/

/-- The symbols, each before those that it starts with. -/
def symbols : List String :=
  ["...", "->", "::", "++", "--", "&&", "||", "==", "!=", "<<=", "<<", "<=", "+=", "-=", "*=", "/=",
    "%=", "&=", "|=", "^=",
    "(", ")", "\x7b", "\x7d", "[", "]", ";", ",", ".", "@", "=", ">", "<", "!", "~", "?", ":", "+",
      "-", "*", "/", "&", "|",
    "^", "%"]

/-- Words that are read as one symbol with what stands before them. -/
def joinedWords : List String :=
  ["@interface", "non-sealed"]

/-- Whether a text starts with a word that ends there. -/
def startsWithWord (word : String) (s : List Char) : Bool :=
  word.toList.isPrefixOf s && !Text.isIdentifierPart ((s.drop word.length).headD ' ')

/-- The kind and the length of the token at the start of a text. Words come before numerals, and
these before symbols, since a numeral may start with a point. -/
def tokenLength (s : List Char) : Option (TokenKind × Nat) :=
  match s with
  | [] => none
  | c :: rest =>
    match joinedWords.find? (startsWithWord · s) with
    | some word => some (.symbol, word.length)
    | none =>
      if Text.isIdentifierStart c
        then some (.word, 1 + (rest.takeWhile Text.isIdentifierPart).length)
      else
        match (Numeral.read? s).or (quotedLength s) with
        | some (type, n) => some (.literal type, n)
        | none => (symbols.find? (·.toList.isPrefixOf s)).map fun symbol => (.symbol, symbol.length)

/-! ## All tokens -/

/-- The tokens of a source in order, with the offset of the first comment if there is one in front
of them, and the offset at which no token starts if there is one. The source starts at that
comment. -/
structure Tokens where
  tokens : List Token := []
  comment? : Option Nat := none
  bad? : Option Nat := none
deriving Inhabited

/-- Puts a token in front of others, after which a comment is not in front. -/
def Tokens.push (ts : Tokens) (t : Token) : Tokens :=
  { ts with tokens := t :: ts.tokens, comment? := none }

/-- The tokens of a text that starts at an offset. Offsets count bytes, and the recursion is on the
characters that are left. -/
def tokensFrom (offset : Nat) (s : List Char) : Tokens :=
  match s with
  | [] => {}
  | c :: rest =>
    if Text.isBlank c then tokensFrom (offset + c.utf8Size) rest
    else
      match commentLength s with
      | some n =>
        { tokensFrom (offset + c.utf8Size + byteLength (rest.take (n - 1))) (rest.drop (n - 1)) with
          comment? := some offset }
      | none =>
        match tokenLength s with
        | none => { bad? := some offset }
        | some (kind, n) =>
          let stop := offset + c.utf8Size + byteLength (rest.take (n - 1))
          (tokensFrom stop (rest.drop (n - 1))).push
            ⟨kind, String.ofList (c :: rest.take (n - 1)), offset, stop⟩
termination_by s.length
decreasing_by all_goals simp only [List.length_drop, List.length_cons]; omega

/-- The mark of the byte order, which may stand in front of a source. -/
def byteOrderMark : Char := '\ufeff'

/-- The tokens of a source. The mark of the byte order is skipped, and counts for the offsets. -/
def Source.tokens (s : Source) : Tokens :=
  match s.chars with
  | c :: rest => if c == byteOrderMark then tokensFrom c.utf8Size rest else tokensFrom 0 (c :: rest)
  | [] => {}

end ShapeLint.Java
