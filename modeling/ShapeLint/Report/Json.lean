/-!
# JSON text

The documents that reports are written in. Fields keep the order in which they are given.
`Json.render` writes a document over several lines, two spaces deeper on each level, with every
character beyond ASCII as an escape, in two halves where it needs two.
-/

namespace ShapeLint.Report

/-- A JSON document with integers for numbers. Fields of an object keep their order. -/
inductive Json where
  | null
  | bool (b : Bool)
  | num (n : Int)
  | str (s : String)
  | arr (items : List Json)
  | obj (fields : List (String × Json))
deriving Inhabited

namespace Json

/-- The escape of one sixteen-bit unit. -/
def unitEscape (n : Nat) : List Char :=
  let digits := Nat.toDigits 16 n
  '\\' :: 'u' :: List.replicate (4 - digits.length) '0' ++ digits

/-- A character as it stands between the quotes of a JSON text. One beyond sixteen bits is written
as two halves of a surrogate pair. -/
def escapeChar (c : Char) : List Char :=
  match c with
  | '"' => ['\\', '"']
  | '\\' => ['\\', '\\']
  | '\n' => ['\\', 'n']
  | '\r' => ['\\', 'r']
  | '\t' => ['\\', 't']
  | '\x08' => ['\\', 'b']
  | '\x0c' => ['\\', 'f']
  | c =>
    let n := c.toNat
    if 0x20 ≤ n ∧ n ≤ 0x7E then [c]
    else if n < 0x10000 then unitEscape n
    else unitEscape (0xD800 + (n - 0x10000) / 0x400) ++ unitEscape (0xDC00 + (n - 0x10000) % 0x400)

/-- A text between quotes. -/
def quote (s : String) : String :=
  String.ofList ('"' :: s.toList.flatMap escapeChar ++ ['"'])

/-- A line end followed by the indentation of a level. -/
def newline (level : Nat) : String :=
  String.ofList ('\n' :: List.replicate (2 * level) ' ')

/-- Items on lines of their own between two brackets, or the brackets alone if there is none. -/
def enclose (opening closing : String) (level : Nat) (items : List String) : String :=
  if items.isEmpty then opening ++ closing
  else
    opening ++ newline (level + 1) ++ ("," ++ newline (level + 1)).intercalate items ++
      newline level ++ closing

mutual

/-- A document at a level of indentation. -/
def renderAt (level : Nat) : Json → String
  | .null => "null"
  | .bool b => if b then "true" else "false"
  | .num n => toString n
  | .str s => quote s
  | .arr items => enclose "[" "]" level (renderItems (level + 1) items)
  | .obj fields => enclose "\x7b" "\x7d" level (renderFields (level + 1) fields)

/-- The items of a list, each as a text. -/
def renderItems (level : Nat) : List Json → List String
  | [] => []
  | item :: items => renderAt level item :: renderItems level items

/-- The fields of an object, each as a text. -/
def renderFields (level : Nat) : List (String × Json) → List String
  | [] => []
  | (key, value) :: fields =>
    (quote key ++ ": " ++ renderAt level value) :: renderFields level fields

end

/-- A document as text. -/
def render (j : Json) : String :=
  renderAt 0 j

/-- A list of texts. -/
def strings (items : List String) : Json :=
  .arr (items.map .str)

/-- A pair of numbers. -/
def pair (a b : Nat) : Json :=
  .arr [.num a, .num b]

end Json

end ShapeLint.Report
