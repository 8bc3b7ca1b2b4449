import ShapeLint.Cli.Arguments
import ShapeLint.Literal.Numeral
import ShapeLint.Report.Basic

/-!
# Commands

What can be asked of the program: to check files against rules, to find a pattern, to test rules by
their examples, to write a configuration to start from, and to tell about itself. `parse` reads a
command from the arguments of a command line, which may also end the program at once: if help or the
version is asked for, or if they are wrong.
-/

namespace ShapeLint.Cli

/-- What an option is for: to show help, the version or more of the log; to name the configuration
file, the directory that excluded paths are seen from, the only rule to apply, the number of
workers, the file and the form of the report, or the greatest number of issues; or to write over a
file. -/
inductive Key where
  | help
  | version
  | verbose
  | config
  | root
  | rule
  | jobs
  | output
  | format
  | max
  | force
deriving DecidableEq, Inhabited

/-- Where a report goes, and its form. -/
structure Output where
  /-- The file; a dash, or nothing, stands for what the program prints. -/
  target? : Option String := none
  format : Report.Format := .text
deriving Inhabited

/-- The file in which the configuration is looked for. -/
def defaultConfig : String := "javasee.yml"

/-- How files are checked: which, against the rules of which configuration or against which one of
them, with how many workers, and where the report goes. -/
structure CheckOptions where
  /-- The paths to check; the root if there are none. -/
  paths : List String := []
  config : String := defaultConfig
  root? : Option String := none
  rule? : Option String := none
  jobs : Int := 1
  output : Output := {}
deriving Inhabited

/-- How a pattern is looked for: where, up to which number of issues, and where the report goes. -/
structure FindOptions where
  pattern : String
  /-- The paths to search; the directory at hand if there are none. -/
  paths : List String := []
  max? : Option Int := none
  output : Output := {}
deriving Inhabited

/-- What the program is asked to do: to check files against the rules of a configuration, to find a
pattern, to test the rules of a configuration by their examples, to write a configuration to start
from, or to show its version or help. -/
inductive Command where
  | check (options : CheckOptions)
  | find (options : FindOptions)
  | test (config : String)
  | init (config : String) (force : Bool)
  | version
  | help
deriving Inhabited

/-- A command, if there is one, and how many times more of the log is asked for. -/
structure Invocation where
  verbosity : Nat := 0
  command? : Option Command := none
deriving Inhabited

/-- What ends the program before any command: help is asked for, maybe that of a command, or the
version, or the arguments are wrong. -/
inductive Ending where
  | help (command? : Option String)
  | version
  | refused (reason : String)
deriving Inhabited

/-! ## Forms -/

/-- The option for help, which is always there. -/
def helpFlag : Flag Key := ⟨.help, ["-h", "--help"], false⟩

/-- The option for the configuration file. -/
def configFlag : Flag Key := ⟨.config, ["-c", "--config"], true⟩

/-- The options for the report. -/
def outputFlags : List (Flag Key) :=
  [⟨.output, ["-o", "--output"], true⟩, ⟨.format, ["-f", "--format"], true⟩]

/-- What the command line may hold, up to the command. -/
def topForm : Form Key :=
  { flags := [helpFlag, ⟨.version, ["--version"], false⟩, ⟨.verbose, ["-v", "--verbose"], false⟩]
    slots := [.rest] }

/-- What may stand behind each command. -/
def commandForms : List (String × Form Key) :=
  [("check",
    { flags := [helpFlag, configFlag, ⟨.root, ["--root"], true⟩, ⟨.rule, ["-r", "--rule"], true⟩,
        ⟨.jobs, ["-j", "--jobs"], true⟩] ++ outputFlags
      slots := [.many] }),
   ("find", { flags := [helpFlag, ⟨.max, ["--max"], true⟩] ++ outputFlags,
              slots := [.one, .many] }),
   ("test", { flags := [helpFlag, configFlag] }),
   ("init", { flags := [helpFlag, configFlag, ⟨.force, ["--force"], false⟩] }),
   ("version", { flags := [helpFlag] }),
   ("help", { flags := [helpFlag] })]

/-! ## Settings -/

/-- What was found in arguments so far: the values of options, what fills the slots, and the
arguments that are not expected. An option that comes again takes the place of the first. -/
structure Settings where
  verbosity : Nat := 0
  config : String := defaultConfig
  root? : Option String := none
  rule? : Option String := none
  jobs : Int := 1
  output : Output := {}
  max? : Option Int := none
  force : Bool := false
  slots : List (List String) := []
  extras : List String := []
deriving Inhabited

/-- The pieces between the underscores of a text. -/
def splitUnderscores : List Char → List (List Char)
  | [] => [[]]
  | '_' :: s => [] :: splitUnderscores s
  | c :: s =>
    match splitUnderscores s with
    | [] => [[c]]
    | piece :: pieces => (c :: piece) :: pieces

/-- The number that an argument denotes. Single underscores may stand between its digits. -/
def number? (argument : String) : Option Int :=
  let (_, digits) := Literal.splitSign (Literal.trimBlank argument.toList)
  if (splitUnderscores digits).any (·.isEmpty) then none
  else Literal.readInteger? 10 (Literal.withoutUnderscores argument.toList)

/-- Takes a number from an argument. -/
def withNumber (argument : String) (use : Int → Settings) : Except Ending Settings :=
  match number? argument with
  | some n => .ok (use n)
  | none => .error (.refused ("invalid int value: " ++ Text.quoted argument))

namespace Settings

/-- Takes note of an option; `command?` is the command that it stands behind. Help and the version
end the program at once, whatever follows. -/
def setFlag (s : Settings) (command? : Option String) (key : Key) (value : String) :
    Except Ending Settings :=
  match key with
  | .help => .error (.help command?)
  | .version => .error .version
  | .verbose => .ok { s with verbosity := s.verbosity + 1 }
  | .config => .ok { s with config := value }
  | .root => .ok { s with root? := some value }
  | .rule => .ok { s with rule? := some value }
  | .jobs => withNumber value fun n => { s with jobs := n }
  | .output => .ok { s with output := { s.output with target? := some value } }
  | .format =>
    match Report.Format.ofName value with
    | .ok format => .ok { s with output := { s.output with format } }
    | .error reason => .error (.refused reason)
  | .max => withNumber value fun n => { s with max? := some n }
  | .force => .ok { s with force := true }

/-- Takes note of what is found in arguments, up to what ends the program. -/
def note (command? : Option String) : List (Finding Key) → Settings → Except Ending Settings
  | [], s => .ok s
  | .flag key value? :: findings, s =>
    match s.setFlag command? key (value?.getD "") with
    | .error e => .error e
    | .ok s => note command? findings s
  | .slot values :: findings, s => note command? findings { s with slots := s.slots ++ [values] }
  | .extra argument :: findings, s =>
    note command? findings { s with extras := s.extras ++ [argument] }
  | .refused reason :: _, _ => .error (.refused reason)

/-- The command with a name. -/
def command? (s : Settings) : String → Option Command
  | "check" =>
    some (.check { paths := s.slots.headD [], config := s.config, root? := s.root?,
                   rule? := s.rule?, jobs := s.jobs
                   output := s.output })
  | "find" =>
    some (.find { pattern := (s.slots.headD []).headD "", paths := s.slots.getD 1 [], max? := s.max?
                  output := s.output })
  | "test" => some (.test s.config)
  | "init" => some (.init s.config s.force)
  | "version" => some .version
  | "help" => some .help
  | _ => none

/-- Refuses arguments that are not expected. They are told only after all else was found to be
right. -/
def complete (s : Settings) (extras : List String) (command? : Option Command) :
    Except Ending Invocation :=
  if extras.isEmpty then .ok { verbosity := s.verbosity, command? }
  else .error (.refused ("unrecognized arguments: " ++ " ".intercalate extras))

end Settings

/-- The command that arguments ask for. Those behind the command are read by the form of that
command. -/
def parse (arguments : List String) : Except Ending Invocation :=
  match Settings.note none (topForm.read arguments) {} with
  | .error e => .error e
  | .ok top =>
    match top.slots with
    | (name :: behind) :: _ =>
      match commandForms.lookup name with
      | none => .error (.refused ("invalid choice: " ++ Text.quoted name))
      | some form =>
        match Settings.note (some name) (form.read behind) {} with
        | .error e => .error e
        | .ok s => top.complete (top.extras ++ s.extras) (s.command? name)
    | _ => top.complete top.extras none

end ShapeLint.Cli
