import ShapeLint.Document
import ShapeLint.Literal.Numeral
import ShapeLint.Yaml.Node

/-!
# Loading YAML

What a node denotes. A plain scalar is nothing, a truth value, a number or a date if it is written
like one, and a text otherwise; a tag decides otherwise. The key `<<` puts the entries of other
mappings in front.
-/

namespace ShapeLint.Yaml

/-- Why a text denotes no document: it is malformed, a scalar is not written like what its tag or
its form asks for, or a truth value is none. -/
inductive LoadError where
  | malformed (p : Problem)
  | badScalar
  | badBool
deriving Inhabited

/-! ## Forms of plain scalars -/

/-- The words for truth values. -/
def boolWords : List (String × Bool) :=
  [("yes", true), ("no", false), ("true", true), ("false", false), ("on", true), ("off", false)]

/-- The spellings of a word: in small letters, with a capital, and in capitals. -/
def spellings (word : String) : List String :=
  [word, String.ofList (match word.toList with | c :: s => c.toUpper :: s | [] => []),
    String.ofList (word.toList.map Char.toUpper)]

/-- The truth value that a scalar denotes. -/
def bool? (s : String) : Option Bool :=
  (boolWords.find? fun (word, _) => (spellings word).contains s).map (·.2)

/-- Whether a scalar denotes nothing. -/
def isNull (s : String) : Bool :=
  s == "" || s == "~" || (spellings "null").contains s

/-- A text without its sign, and whether that is a minus. -/
def unsigned : List Char → Bool × List Char
  | '-' :: s => (true, s)
  | '+' :: s => (false, s)
  | s => (false, s)

/-- Whether a text starts with a digit and goes on with digits and underscores. -/
def isDigits (s : List Char) : Bool :=
  (s.head?.any Char.isDigit) && s.all fun c => c.isDigit || c == '_'

/-- Whether a text is not empty and all its characters pass a test. -/
def isRun (p : Char → Bool) (s : List Char) : Bool :=
  !s.isEmpty && s.all p

/-- Whether a text is a part of a number to base sixty. It has at most two digits. -/
def isSixtieth : List Char → Bool
  | [c] => c.isDigit
  | [c, d] => ('0' ≤ c && c ≤ '5') && d.isDigit
  | _ => false

/-- The pieces between the occurrences of a character. -/
def splitAt (separator : Char) : List Char → List (List Char)
  | [] => [[]]
  | c :: s =>
    if c == separator then [] :: splitAt separator s
    else
      match splitAt separator s with
      | [] => [[c]]
      | piece :: pieces => (c :: piece) :: pieces

/-- Whether a scalar is written like an integer. -/
def isInt (s : List Char) : Bool :=
  let s := (unsigned s).2
  match s with
  | '0' :: 'b' :: s => isRun (fun c => c == '0' || c == '1' || c == '_') s
  | '0' :: 'x' :: s => isRun (fun c => (Literal.hexDigit? c).isSome || c == '_') s
  | ['0'] => true
  | '0' :: s => isRun (fun c => ('0' ≤ c && c ≤ '7') || c == '_') s
  | s =>
    match splitAt ':' s with
    | first :: others => isDigits first && others.all isSixtieth
    | [] => false

/-- Whether a text is an exponent with its sign, or empty. -/
def isExponent : List Char → Bool
  | [] => true
  | e :: sign :: s => (e == 'e' || e == 'E') && (sign == '+' || sign == '-') && isRun Char.isDigit s
  | _ => false

/-- Whether a text is a fraction after its point, with an exponent. -/
def isFraction (s : List Char) : Bool :=
  isExponent (s.dropWhile fun c => c.isDigit || c == '_')

/-- Whether a scalar is written like a floating point number. -/
def isFloat (s : List Char) : Bool :=
  let (_, t) := unsigned s
  if (spellings "inf").any fun word => t == '.' :: word.toList then true
  else if [".nan", ".NaN", ".NAN"].any fun word => s == word.toList then true
  else
    match s with
    | '.' :: c :: rest => c.isDigit && isFraction rest
    | _ =>
      let whole := t.takeWhile (· != '.')
      match t.drop whole.length with
      | '.' :: fraction =>
        match splitAt ':' whole with
        | [first] => isDigits first && isFraction fraction
        | first :: others =>
          isDigits first && others.all isSixtieth && fraction.all fun c => c.isDigit || c == '_'
        | [] => false
      | _ => false

/-! ## Dates -/

/-- The number that digits denote. -/
def natOf (s : List Char) : Nat :=
  s.foldl (fun n c => 10 * n + (c.toNat - '0'.toNat)) 0

/-- Reads between a least and a greatest number of digits, as many as there are. -/
def digits? (least greatest : Nat) (s : List Char) : Option (Nat × List Char) :=
  let found := (s.take greatest).takeWhile Char.isDigit
  if found.length < least then none else some (natOf found, s.drop found.length)

/-- Reads a character. -/
def char? (c : Char) : List Char → Option (List Char)
  | d :: s => if c == d then some s else none
  | [] => none

/-- The number of days of a month. -/
def daysIn (year month : Nat) : Nat :=
  if month == 2 then if year % 4 == 0 && (year % 100 != 0 || year % 400 == 0) then 29 else 28
  else if [4, 6, 9, 11].contains month then 30 else 31

/-- Whether there is a date. -/
def isDate (d : Date) : Bool :=
  1 ≤ d.year && 1 ≤ d.month && d.month ≤ 12 && 1 ≤ d.day && d.day ≤ daysIn d.year d.month

/-- Reads a date with between a least number and two digits for month and day. -/
def readDate? (least : Nat) (s : List Char) : Option (Date × List Char) := do
  let (year, s) ← digits? 4 4 s
  let s ← char? '-' s
  let (month, s) ← digits? least 2 s
  let s ← char? '-' s
  let (day, s) ← digits? least 2 s
  return (⟨year, month, day⟩, s)

/-- Reads how far local time is ahead. -/
def readOffset? (s : List Char) : Option (Option Int) :=
  match s.dropWhile fun c => c == ' ' || c == '\t' with
  | [] => if s.isEmpty then some none else none
  | ['Z'] => some (some 0)
  | sign :: s =>
    if sign == '+' || sign == '-' then do
      let (hours, s) ← digits? 1 2 s
      let minutes ← match s with
        | [] => some 0
        | ':' :: s => (digits? 2 2 s).bind fun (n, s) => if s.isEmpty then some n else none
        | _ => none
      let seconds : Int := (hours * 60 + minutes) * 60
      return some (if sign == '-' then -seconds else seconds)
    else none

/-- Reads a fraction of a second as microseconds. -/
def readMicroseconds (s : List Char) : Nat × List Char :=
  match s with
  | '.' :: s =>
    let digits := s.takeWhile Char.isDigit
    (natOf ((digits ++ List.replicate 6 '0').take 6), s.drop digits.length)
  | s => (0, s)

/-- Reads a date with a time of day. -/
def moment? (s : List Char) : Option Moment := do
  let (date, s) ← readDate? 1 s
  let s ← match s with
    | 'T' :: s | 't' :: s => some s
    | c :: s =>
      if c == ' ' || c == '\t' then some (s.dropWhile fun c => c == ' ' || c == '\t') else none
    | [] => none
  let (hour, s) ← digits? 1 2 s
  let s ← char? ':' s
  let (minute, s) ← digits? 2 2 s
  let s ← char? ':' s
  let (second, s) ← digits? 2 2 s
  let (microsecond, s) := readMicroseconds s
  let offset? ← readOffset? s
  return { date, hour, minute, second, microsecond, offset? }

/-- Reads a date alone. -/
def date? (s : List Char) : Option Date :=
  match readDate? 2 s with
  | some (date, []) => some date
  | _ => none

/-- Whether there is a moment. -/
def isMoment (m : Moment) : Bool :=
  isDate m.date && m.hour < 24 && m.minute < 60 && m.second < 60

/-- The document for a date or a moment. -/
def timestamp (s : List Char) : Except LoadError Document :=
  match date? s, moment? s with
  | some d, _ => if isDate d then .ok (.date d) else .error .badScalar
  | none, some m => if isMoment m then .ok (.moment m) else .error .badScalar
  | none, none => .error .badScalar

/-! ## Values of scalars -/

/-- The number that numbers to base sixty denote. -/
def sixties (ns : List Int) : Int :=
  ns.foldl (fun total n => 60 * total + n) 0

/-- The integer that a text without underscores and sign denotes. -/
def magnitude? (s : List Char) : Option Int :=
  match s with
  | ['0'] => some 0
  | '0' :: 'b' :: s => Literal.integer? ('0' :: 'b' :: s)
  | '0' :: 'x' :: s => Literal.integer? ('0' :: 'x' :: s)
  | s =>
    match splitAt ':' s with
    | [digits] => if isRun Char.isDigit digits then Literal.integer? digits else none
    | parts =>
      if parts.all (isRun Char.isDigit)
        then some (sixties (parts.map fun p => (natOf p : Int))) else none

/-- The integer that a scalar denotes. -/
def int? (s : List Char) : Option Int :=
  let (isNegative, s) := unsigned (s.filter (· != '_'))
  (magnitude? s).map fun n => if isNegative then -n else n

/-- The floating point number that a scalar denotes. -/
def double? (s : List Char) : Option Double :=
  let (isNegative, s) := unsigned ((s.filter (· != '_')).map Char.toLower)
  let sign (d : Double) : Double := if isNegative then d.withSign true else d
  if s == ".inf".toList then some (sign (.infinite false))
  else if s == ".nan".toList then some .nan
  else
    match splitAt ':' s with
    | [text] =>
      (Literal.decimal? text).map sign
    | parts =>
      match parts.reverse with
      | last :: others =>
        let whole := last.takeWhile (· != '.')
        let fraction := (last.drop whole.length).drop 1
        let base := sixties ((others.reverse ++ [whole]).map fun p => (natOf p : Int))
        some (sign (Double.ofDecimal (base.toNat * Double.tenPow fraction.length + natOf fraction)
          (-(fraction.length : Int))))
      | [] => none

/-- The lead of the tags that are known. -/
def tagLead : String := "tag:yaml.org,2002:"

/-- A value, or a problem with the scalar. -/
def orBad {α : Type} (wrap : α → Document) : Option α → Except LoadError Document
  | some a => .ok (wrap a)
  | none => .error .badScalar

/-- A problem with the meaning of a node. -/
def meaningless (message : String) : LoadError :=
  .malformed ⟨message, 0, 0⟩

/-- The name of the type that a plain scalar is written like. The forms are tried in this order, and
what has none of them is a text. -/
def plainType (s : String) : String :=
  if (bool? s).isSome then "bool"
  else if isFloat s.toList then "float"
  else if isInt s.toList then "int"
  else if s == "<<" then "merge"
  else if isNull s then "null"
  else if (date? s.toList).isSome || (moment? s.toList).isSome then "timestamp"
  else if s == "=" then "value"
  else "str"

/-- The name of the type of a scalar, if its tag is known. -/
def scalarType? (tag? : Option String) (isPlain : Bool) (s : String) : Option String :=
  match tag? with
  | none => some (if isPlain then plainType s else "str")
  | some tag =>
    if tag.startsWith tagLead then some (String.ofList (tag.toList.drop tagLead.length)) else none

/-- The document that a scalar denotes. -/
def scalar (tag? : Option String) (isPlain : Bool) (s : String) : Except LoadError Document :=
  match scalarType? tag? isPlain s with
  | some "str" => .ok (.text s)
  | some "null" => .ok .null
  | some "bool" =>
    match boolWords.lookup (String.ofList (s.toList.map Char.toLower)) with
    | some b => .ok (.bool b)
    | none => .error .badBool
  | some "int" => orBad .int (int? s.toList)
  | some "float" => orBad .double (double? s.toList)
  | some "timestamp" => timestamp s.toList
  | _ => .error (meaningless "could not determine a constructor for the tag")

/-! ## Documents -/

/-- Whether a node is the key that puts other mappings in front. -/
def isMerge : Node → Bool
  | .scalar tag? isPlain s => scalarType? tag? isPlain s == some "merge"
  | _ => false

/-- The document that a key denotes. An equals sign is a text there. -/
def keyScalar : Node → Option Document
  | .scalar none true "=" => some (.text "=")
  | _ => none

/-- The entries of each mapping in a list. -/
def listedEntries : List Document → Except LoadError (List (List (Document × Document)))
  | [] => .ok []
  | .map entries :: items => (listedEntries items).map (entries :: ·)
  | _ :: _ => .error (meaningless "expected a mapping for merging")

/-- The entries that a document puts in front of others. Of several mappings, earlier ones count
more. -/
def mergedEntries : Document → Except LoadError (List (Document × Document))
  | .map entries => .ok entries
  | .list items => (listedEntries items).map fun maps => maps.reverse.flatten
  | _ => .error (meaningless "expected a mapping or list of mappings for merging")

/-- A mapping with entries, of which later ones count more. -/
def mapOf (entries : List (Document × Document)) : Document :=
  .map (entries.foldl (fun found (key, value) => Document.insert key value found) [])

/-- Whether the tag of a collection lets it be what it is. -/
def fitsTag (tag? : Option String) (type : String) : Bool :=
  match tag? with
  | none => true
  | some tag => tag == tagLead ++ type

mutual

/-- The document that a node denotes. -/
def construct : Node → Except LoadError Document
  | .scalar tag? isPlain s => scalar tag? isPlain s
  | .list tag? items =>
    if fitsTag tag? "seq" then (constructItems items).map .list
    else .error (meaningless "could not determine a constructor for the tag")
  | .map tag? entries =>
    if fitsTag tag? "map" then (constructEntries entries).map fun (merged, own) =>
      mapOf (merged ++ own)
    else .error (meaningless "could not determine a constructor for the tag")

/-- The documents that nodes denote. -/
def constructItems : List Node → Except LoadError (List Document)
  | [] => .ok []
  | n :: ns =>
    match construct n with
    | .error e => .error e
    | .ok d => (constructItems ns).map (d :: ·)

/-- The entries that pairs of nodes denote: those that other mappings put in front, and the
mapping's own. -/
def constructEntries :
    List (Node × Node) → Except LoadError (List (Document × Document) × List (Document × Document))
  | [] => .ok ([], [])
  | (key, value) :: entries =>
    match construct value with
    | .error e => .error e
    | .ok v =>
      if isMerge key then
        match mergedEntries v with
        | .error e => .error e
        | .ok found => (constructEntries entries).map fun (merged, own) => (found ++ merged, own)
      else
        match (keyScalar key).elim (construct key) .ok with
        | .error e => .error e
        | .ok k =>
          if k.isKey then (constructEntries entries).map fun (merged, own) =>
            (merged, (k, v) :: own)
          else .error (meaningless "found unhashable key")

end

/-- The document that a text denotes; nothing if the text holds none. -/
def load (s : List Char) : Except LoadError Document :=
  match parse s with
  | .error p => .error (.malformed p)
  | .ok none => .ok .null
  | .ok (some n) => construct n

end ShapeLint.Yaml
