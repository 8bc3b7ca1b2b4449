import ShapeLint.Text.Digit

/-!
# Arguments of a command line

A command line is a list of arguments. Some are options, which start with a dash and may take a
value, the others fill slots in order. An option may be cut short as long as no other fits, a value
may be written together with its option, and several options of one letter may be written as one.
After two dashes, no argument is an option.

`Form.read` gives what is found in a list of arguments, in the order in which it counts. Slots are
filled as far as possible each time that arguments which are no options are met, so a slot for any
number of arguments is filled only once.
-/

namespace ShapeLint.Cli

/-- An option: what it is for, its names with their dashes, and whether it takes a value. -/
structure Flag (κ : Type) where
  key : κ
  names : List String
  takesValue : Bool := false

/-- A slot for arguments that are no options: it takes one argument, any number of them, or one and
everything behind it, options too. -/
inductive Slot where
  | one
  | many
  | rest
deriving DecidableEq, Inhabited

/-- What a command line may hold: options, and slots in order. -/
structure Form (κ : Type) where
  flags : List (Flag κ)
  slots : List Slot := []

/-- What is found in arguments: an option, with its value if it takes one; what fills the next slot;
an argument that is not expected; or that the arguments are wrong. -/
inductive Finding (κ : Type) where
  | flag (key : κ) (value? : Option String)
  | slot (values : List String)
  | extra (argument : String)
  | refused (reason : String)

/-- A value that is written together with its option, perhaps behind an equals sign. -/
structure Attached where
  text : List Char
  afterEquals : Bool

/-- What an argument is: no option, the two dashes behind which there are none, or an option that is
known or not. Of a known one its name is kept as it is in full. -/
inductive Mark (κ : Type) where
  | plain
  | divider
  | option (flag : Flag κ) (name : String) (attached? : Option Attached)
  | unknown

namespace Mark

variable {κ : Type}

/-- Whether an argument is an option. -/
def isOption : Mark κ → Bool
  | option _ _ _ | unknown => true
  | plain | divider => false

/-- Whether an argument is the divider. -/
def isDivider : Mark κ → Bool
  | divider => true
  | _ => false

end Mark

/-- An argument and what it is. -/
abbrev Marked (κ : Type) := String × Mark κ

namespace Form

variable {κ : Type} (f : Form κ)

/-! ## What an argument is -/

/-- The option with a name. -/
def flag? (name : String) : Option (Flag κ) :=
  f.flags.find? fun flag => flag.names.contains name

/-- A text up to its first equals sign, and what is behind that. -/
def splitEquals (s : List Char) : List Char × Option (List Char) :=
  let name := s.takeWhile (· != '=')
  match s.drop name.length with
  | _ :: value => (name, some value)
  | [] => (name, none)

/-- The options whose names start with a text, with that name. -/
def completions (lead : List Char) : List (Flag κ × String) :=
  f.flags.flatMap fun flag =>
    (flag.names.filter fun name => lead.isPrefixOf name.toList).map (flag, ·)

/-- The readings of an argument as an option that is cut short or has its value attached. Only
options with two dashes can be cut short. -/
def readings (s : List Char) : List (Mark κ) :=
  match s with
  | '-' :: '-' :: _ =>
    let (lead, value?) := splitEquals s
    (f.completions lead).map fun (flag, name) => .option flag name (value?.map (⟨·, true⟩))
  | dash :: letter :: value =>
    match f.flag? (String.ofList [dash, letter]) with
    | some flag => [.option flag (String.ofList [dash, letter]) (some ⟨value, false⟩)]
    | none => []
  | _ => []

/-- Whether a text is a negative number, which is no option. -/
def isNegativeNumber : List Char → Bool
  | '-' :: s =>
    match s.dropWhile Text.isDigit with
    | [] => !s.isEmpty
    | '.' :: fraction => !fraction.isEmpty && fraction.all Text.isDigit
    | _ => false
  | _ => false

/-- What an argument before the divider is. A name that fits exactly comes before all other
readings, and more than one of these is refused. -/
def mark (argument : String) : Except String (Mark κ) :=
  let s := argument.toList
  if s.head? != some '-' || s.length = 1 then .ok .plain
  else
    let (name, value?) := splitEquals s
    match f.flag? argument, value?, f.flag? (String.ofList name) with
    | some flag, _, _ => .ok (.option flag argument none)
    | none, some value, some flag => .ok (.option flag (String.ofList name) (some ⟨value, true⟩))
    | none, _, _ =>
      match f.readings s with
      | [] => .ok (if isNegativeNumber s || s.contains ' ' then .plain else .unknown)
      | [reading] => .ok reading
      | _ => .error ("ambiguous option: " ++ argument)

/-- What the arguments are. -/
def marks : List String → Except String (List (Marked κ))
  | [] => .ok []
  | argument :: arguments =>
    if argument = "--" then .ok ((argument, .divider) :: arguments.map (·, .plain))
    else
      match f.mark argument with
      | .error e => .error e
      | .ok m => (marks arguments).map ((argument, m) :: ·)

/-! ## Options -/

/-- The options in one argument, each without a value or with the one attached, and the last one if
its value is yet to be found. An option of one letter that takes no value is followed by others. -/
def cluster (flag : Flag κ) (name : String) :
    Bool → List Char → Except String (List (Finding κ) × Option (Flag κ))
  | afterEquals, text =>
    if flag.takesValue then .ok ([.flag flag.key (some (String.ofList text))], none)
    else if name.startsWith "--" then .error ("ignored explicit argument of " ++ name)
    else
      match text with
      | [] => .error ("ignored explicit argument of " ++ name)
      | letter :: more =>
        if afterEquals || letter == '-' then .error ("ignored explicit argument of " ++ name)
        else
          let short := String.ofList ['-', letter]
          match f.flag? short with
          | none => .ok ([.flag flag.key none, .extra (String.ofList ('-' :: text))], none)
          | some next =>
            match more with
            | [] => .ok ([.flag flag.key none], some next)
            | '=' :: value =>
              (cluster next short true value).map fun (found, last?) =>
                (.flag flag.key none :: found, last?)
            | value =>
              (cluster next short false value).map fun (found, last?) =>
                (.flag flag.key none :: found, last?)
termination_by _ text => text.length

/-- What is found for an option without an attached value, and how many of the arguments behind it
are taken for that. -/
def separate (flag : Flag κ) (behind : List (Marked κ)) : Except String (List (Finding κ) × Nat) :=
  if flag.takesValue then
    match behind with
    | (value, .plain) :: _ => .ok ([.flag flag.key (some value)], 1)
    | _ => .error ("expected one argument for " ++ "/".intercalate flag.names)
  else .ok ([.flag flag.key none], 0)

/-- What is found for an option, and how many of the arguments behind it are taken for that. -/
def option (flag : Flag κ) (name : String) (attached? : Option Attached)
    (behind : List (Marked κ)) :
    Except String (List (Finding κ) × Nat) :=
  match attached? with
  | none => separate flag behind
  | some attached =>
    match f.cluster flag name attached.afterEquals attached.text with
    | .error e => .error e
    | .ok (found, none) => .ok (found, 0)
    | .ok (found, some last) =>
      (separate last behind).map fun (more, taken) => (found ++ more, taken)

/-! ## Slots -/

/-- How many arguments a slot takes; none if it cannot be filled. Dividers in front of an argument
are taken with it. -/
def taken (slot : Slot) (arguments : List (Marked κ)) : Option Nat :=
  let dividers := (arguments.takeWhile (·.2.isDivider)).length
  match slot with
  | .many => some (arguments.takeWhile (!·.2.isOption)).length
  | .one =>
    match arguments.drop dividers with
    | (_, .plain) :: behind => some (dividers + 1 + (behind.takeWhile (·.2.isDivider)).length)
    | _ => none
  | .rest =>
    match arguments.drop dividers with
    | (_, .plain) :: _ => some arguments.length
    | _ => none

/-- What fills a slot: the arguments taken, without the first two dashes unless everything is taken.
-/
def values (slot : Slot) (arguments : List String) : List String :=
  if slot = .rest then arguments else arguments.erase "--"

/-- Fills slots in order as far as possible: what is found, the slots that are left and the
arguments that are left. -/
def fill : List Slot → List (Marked κ) → List (Finding κ) × List Slot × List (Marked κ)
  | [], arguments => ([], [], arguments)
  | slot :: slots, arguments =>
    match taken slot arguments with
    | none => ([], slot :: slots, arguments)
    | some n =>
      let (found, left, behind) := fill slots (arguments.drop n)
      (.slot (values slot ((arguments.take n).map (·.1))) :: found, left, behind)

/-! ## Arguments -/

/-- What is found at the end, where no option is left. A slot for one argument must have been
filled. -/
def readLast (slots : List Slot) (arguments : List (Marked κ)) : List (Finding κ) :=
  let (found, left, behind) := fill slots arguments
  found ++ behind.map (fun (argument, _) => .extra argument)
    ++ if left.contains .one then [.refused "an argument is required"] else []

/-- What is found in arguments, with the slots that are left. Arguments that are no options fill
slots; where none can be filled, they are not expected. The recursion is on the number of
arguments. -/
def readFrom (slots : List Slot) (arguments : List (Marked κ)) : List (Finding κ) :=
  if arguments.all (!·.2.isOption) then readLast slots arguments
  else
    match arguments with
    | [] => []
    | (_, .option flag name attached?) :: behind =>
      match f.option flag name attached? behind with
      | .error reason => [.refused reason]
      | .ok (found, n) => found ++ readFrom slots (behind.drop n)
    | (argument, .unknown) :: behind => .extra argument :: readFrom slots behind
    | (argument, m) :: behind =>
      let (found, left, rest) := fill slots ((argument, m) :: behind)
      if rest.length < behind.length + 1 then found ++ readFrom left rest
      else
        .extra argument :: (behind.takeWhile (!·.2.isOption)).map
          (fun (argument, _) => .extra argument)
          ++ readFrom slots (behind.dropWhile (!·.2.isOption))
termination_by arguments.length
decreasing_by
  all_goals
    have h : ∀ l : List (Marked κ), (l.dropWhile (!·.2.isOption)).length ≤ l.length :=
      fun l => (List.dropWhile_sublist _).length_le
    try simp only [List.length_cons, List.length_drop]
    first
      | omega
      | exact Nat.lt_succ_of_le (h _)

/-- What is found in arguments. -/
def read (arguments : List String) : List (Finding κ) :=
  match f.marks arguments with
  | .error reason => [.refused reason]
  | .ok marked => f.readFrom f.slots marked

end Form

end ShapeLint.Cli
