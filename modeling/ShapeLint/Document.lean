import ShapeLint.Double.Shortest
import ShapeLint.Literal.Numeral
import ShapeLint.Text.Quoted

/-!
# Documents

A document is what a configuration file holds: nothing, truth values, numbers, texts, dates, lists
and mappings. A mapping keeps the order in which its keys came; a key that comes again takes the new
value at its old place. Messages name the type of a document and show it, unless an integer in it
has too many digits to be written.
-/

namespace ShapeLint

/-- A date, with month and day counted from one. -/
structure Date where
  year : Nat
  month : Nat
  day : Nat
deriving DecidableEq, Inhabited

/-- A date with a time of day, to the microsecond. -/
structure Moment where
  date : Date
  hour : Nat
  minute : Nat
  second : Nat
  microsecond : Nat
  /-- How many seconds local time is ahead, if it is known. -/
  offset? : Option Int
deriving DecidableEq, Inhabited

/-- What a configuration file holds. Keys of a mapping can be any documents but lists and
mappings. -/
inductive Document where
  | null
  | bool (b : Bool)
  | int (i : Int)
  | double (d : Double)
  | text (s : String)
  | date (d : Date)
  | moment (m : Moment)
  | list (items : List Document)
  | map (entries : List (Document × Document))
deriving Inhabited

namespace Document

/-- The name of the type of a document. -/
def typeName : Document → String
  | null => "NoneType"
  | bool _ => "bool"
  | int _ => "int"
  | double _ => "float"
  | text _ => "str"
  | date _ => "date"
  | moment _ => "datetime"
  | list _ => "list"
  | map _ => "dict"

/-! ## How documents are shown -/

/-- Numbers with commas between. -/
def commaSeparated (ns : List Nat) : String :=
  ", ".intercalate (ns.map toString)

/-- A date as it is shown. -/
def showDate (d : Date) : String :=
  "datetime.date(" ++ commaSeparated [d.year, d.month, d.day] ++ ")"

/-- How local time is shown. -/
def showOffset (offset : Int) : String :=
  if offset = 0 then "datetime.timezone.utc"
  else
    let days := offset.fdiv 86400
    let seconds := offset.fmod 86400
    let parts := (if days = 0 then [] else ["days=" ++ toString days])
      ++ (if seconds = 0 then [] else ["seconds=" ++ toString seconds])
    "datetime.timezone(datetime.timedelta(" ++ ", ".intercalate parts ++ "))"

/-- A date with a time as it is shown; seconds are left away if they and what follows are zero. -/
def showMoment (m : Moment) : String :=
  let tail :=
    if m.microsecond ≠ 0 then [m.second, m.microsecond] else if m.second ≠ 0 then [m.second] else []
  let zone := match m.offset? with
    | none => ""
    | some offset => ", tzinfo=" ++ showOffset offset
  "datetime.datetime(" ++ commaSeparated
    ([m.date.year, m.date.month, m.date.day, m.hour, m.minute] ++ tail) ++ zone ++ ")"

mutual

/-- A document as it is shown in messages. -/
def display : Document → String
  | null => "None"
  | bool b => if b then "True" else "False"
  | int i => toString i
  | double d => d.text
  | text s => Text.quoted s
  | date d => showDate d
  | moment m => showMoment m
  | list items => "[" ++ ", ".intercalate (displayItems items) ++ "]"
  | map entries => "\x7b" ++ ", ".intercalate (displayEntries entries) ++ "\x7d"

/-- Several documents as they are shown. -/
def displayItems : List Document → List String
  | [] => []
  | item :: items => display item :: displayItems items

/-- The entries of a mapping as they are shown. -/
def displayEntries : List (Document × Document) → List String
  | [] => []
  | (key, value) :: entries => (display key ++ ": " ++ display value) :: displayEntries entries

end

/-- Whether an integer has few enough digits to be written. -/
def isWritable (i : Int) : Bool :=
  i.natAbs < Double.tenPow Literal.maxDecimalDigits

mutual

/-- Whether a document can be shown: all integers in it can be written. -/
def isShowable : Document → Bool
  | int i => isWritable i
  | list items => areShowable items
  | map entries => entriesShowable entries
  | _ => true

/-- Whether several documents can be shown. -/
def areShowable : List Document → Bool
  | [] => true
  | item :: items => isShowable item && areShowable items

/-- Whether the entries of a mapping can be shown. -/
def entriesShowable : List (Document × Document) → Bool
  | [] => true
  | (key, value) :: entries => isShowable key && isShowable value && entriesShowable entries

end

/-! ## Mappings -/

/-- The number that a document is as a key; truth values count as numbers. -/
def number? : Document → Option (Int ⊕ Double)
  | bool b => some (.inl (if b then 1 else 0))
  | int i => some (.inl i)
  | double d => some (.inr d)
  | _ => none

/-- Whether two documents are the same key. Numbers are the same if they are equal, whatever their
types, and truth values count as numbers. -/
def sameKey (a b : Document) : Bool :=
  match a.number?, b.number? with
  | some (.inl i), some (.inl j) => i == j
  | some (.inl i), some (.inr d) => d.sameInt i
  | some (.inr d), some (.inl i) => d.sameInt i
  | some (.inr d), some (.inr e) => d.same e
  | _, _ =>
    match a, b with
    | null, null => true
    | text s, text t => s == t
    | date d, date e => d == e
    | moment m, moment n => m == n
    | _, _ => false

/-- Whether a document can be a key. -/
def isKey : Document → Bool
  | list _ => false
  | map _ => false
  | _ => true

/-- Entries with a value put under a key. A key that is there keeps its place and its own form. -/
def insert (key value : Document) : List (Document × Document) → List (Document × Document)
  | [] => [(key, value)]
  | (other, old) :: entries =>
    if sameKey other key then (other, value) :: entries
      else (other, old) :: insert key value entries

/-- The value under a key that is a text. -/
def lookup? (name : String) (entries : List (Document × Document)) : Option Document :=
  (entries.find? fun (key, _) =>
    match key with
    | text s => s == name
    | _ => false).map (·.2)

/-- Whether a document counts as nothing: nothing itself, zero, what is empty, and what is false. -/
def isBlank : Document → Bool
  | null => true
  | bool b => !b
  | int i => i == 0
  | double d => d.sameInt 0
  | text s => s.isEmpty
  | date _ => false
  | moment _ => false
  | list items => items.isEmpty
  | map entries => entries.isEmpty

end Document

end ShapeLint
