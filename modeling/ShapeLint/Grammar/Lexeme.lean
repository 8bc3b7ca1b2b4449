import ShapeLint.Literal.Numeral
import ShapeLint.Text.Word

/-!
# Tokens of patterns

How names, words and literals are spelled at the front of a text. Each function gives the token and
what is left, or nothing if the text does not start with such a token. A token is as long as it can
be.
-/

namespace ShapeLint.Grammar

open ShapeLint.Text (isDigit isNameStart isNameChar)
open ShapeLint.Literal (isFloatSuffix)

/-- Whether no character of a name follows. -/
def endsWord : List Char → Bool
  | [] => true
  | c :: _ => !isNameChar c

/-- One of several words, not followed by a character of a name. The first that fits is taken. -/
def wordToken? (words : List String) (s : List Char) : Option (String × List Char) :=
  words.findSome? fun w =>
    if w.toList.isPrefixOf s && endsWord (s.drop w.length) then some (w, s.drop w.length) else none

/-- One of several words, whatever follows. A word that another one starts with must come behind
that one. -/
def leadingWord? (words : List String) (s : List Char) : Option (String × List Char) :=
  words.findSome? fun w => if w.toList.isPrefixOf s then some (w, s.drop w.length) else none

/-- A name. -/
def nameToken? : List Char → Option (List Char × List Char)
  | [] => none
  | c :: rest =>
    if isNameStart c then some (c :: rest.takeWhile isNameChar, rest.dropWhile isNameChar) else none

/-- A digit or an underscore. -/
def isNumeralChar (c : Char) : Bool :=
  isDigit c || c == '_'

/-- A digit and what follows it of digits and underscores. -/
def numeral? : List Char → Option (List Char × List Char)
  | [] => none
  | c :: rest =>
    if isDigit c
      then some (c :: rest.takeWhile isNumeralChar, rest.dropWhile isNumeralChar) else none

/-- A sign, if there is one. -/
def sign : List Char → List Char × List Char
  | '+' :: rest => (['+'], rest)
  | '-' :: rest => (['-'], rest)
  | s => ([], s)

/-- An exponent: its letter, a sign and digits. There are no underscores among these. -/
def exponent? : List Char → Option (List Char × List Char)
  | [] => none
  | c :: rest =>
    if c == 'e' || c == 'E' then
      let (mark, rest) := sign rest
      let digits := rest.takeWhile isDigit
      if digits.isEmpty then none else some (c :: mark ++ digits, rest.dropWhile isDigit)
    else none

/-- What a part reads, or nothing of the text if it is not there. -/
def optionally (p : List Char → Option (List Char × List Char)) (s : List Char) :
    List Char × List Char :=
  (p s).getD ([], s)

/-- A floating point suffix. -/
def floatSuffix? : List Char → Option (List Char × List Char)
  | [] => none
  | c :: rest => if isFloatSuffix c then some ([c], rest) else none

/-- Two parts, the second after the first. -/
def followed (p q : List Char → Option (List Char × List Char)) (s : List Char) :
    Option (List Char × List Char) :=
  match p s with
  | none => none
  | some (a, rest) =>
    match q rest with
    | none => none
    | some (b, rest) => some (a ++ b, rest)

/-- A part that may be missing. -/
def maybe (p : List Char → Option (List Char × List Char)) (s : List Char) :
    Option (List Char × List Char) :=
  some (optionally p s)

/-- A decimal point. -/
def point? : List Char → Option (List Char × List Char)
  | '.' :: rest => some (['.'], rest)
  | _ => none

/-- Digits and underscores, perhaps none. -/
def fraction? (s : List Char) : Option (List Char × List Char) :=
  some (s.takeWhile isNumeralChar, s.dropWhile isNumeralChar)

/-- A floating point literal: with a point after digits, with a point before them, with an exponent,
or with a suffix only. -/
def doubleToken? (s : List Char) : Option (List Char × List Char) :=
  let ending := followed (maybe exponent?) (maybe floatSuffix?)
  followed numeral? (followed point? (followed fraction? ending)) s
    <|> followed point? (followed numeral? ending) s
    <|> followed numeral? (followed exponent? (maybe floatSuffix?)) s
    <|> followed numeral? floatSuffix? s

/-- A hexadecimal digit or an underscore. -/
def isHexChar (c : Char) : Bool :=
  ('0' ≤ c && c ≤ '9') || ('a' ≤ c && c ≤ 'f') || ('A' ≤ c && c ≤ 'F') || c == '_'

/-- A binary digit or an underscore. -/
def isBinaryChar (c : Char) : Bool :=
  c == '0' || c == '1' || c == '_'

/-- Digits after a radix mark: a zero, one of two letters, and one or more characters of a class. -/
def markedToken? (lower upper : Char) (class_ : Char → Bool) :
    List Char → Option (List Char × List Char)
  | '0' :: c :: rest =>
    if c == lower || c == upper then
      let digits := rest.takeWhile class_
      if digits.isEmpty then none else some ('0' :: c :: digits, rest.dropWhile class_)
    else none
  | _ => none

/-- An integer literal: hexadecimal, binary, or digits. -/
def integerToken? (s : List Char) : Option (List Char × List Char) :=
  markedToken? 'x' 'X' isHexChar s <|> markedToken? 'b' 'B' isBinaryChar s <|> numeral? s

/-- The body of a string literal up to and with its closing quote. A quote behind a backslash does
not close it, and a line end may not stand in it. -/
def stringBody? : List Char → Option (List Char × List Char)
  | [] => none
  | ['\\'] => none
  | '\\' :: c :: rest =>
    if c = '\n' then none else (stringBody? rest).map fun (body, rest) => ('\\' :: c :: body, rest)
  | c :: rest =>
    if c = '"' then some (['"'], rest)
    else if c = '\r' ∨ c = '\n' then none
    else (stringBody? rest).map fun (body, rest) => (c :: body, rest)

/-- A string literal, quotes included. -/
def stringToken? : List Char → Option (List Char × List Char)
  | '"' :: rest => (stringBody? rest).map fun (body, rest) => ('"' :: body, rest)
  | _ => none

end ShapeLint.Grammar
