/-!
# Log

What a run tells about its progress. An entry has a level, the part of the linter that it comes
from, and a message. Which entries are shown depends on how talkative the run is asked to be.
-/

namespace ShapeLint

/-- How important a log entry is: of interest when something is looked into, of interest in passing,
a possible mistake, or a failure. -/
inductive Level where
  | debug
  | info
  | warning
  | error
deriving DecidableEq, Inhabited

namespace Level

/-- The word for a level, cut or filled up to five characters. -/
def word : Level → String
  | debug => "DEBUG"
  | info => "INFO "
  | warning => "WARNI"
  | error => "ERROR"

/-- The rank of a level. -/
def rank : Level → Nat
  | debug => 0
  | info => 1
  | warning => 2
  | error => 3

/-- The least level that is shown when asked for more so many times. Asking more than twice shows no
more. -/
def threshold : Nat → Level
  | 0 => warning
  | 1 => info
  | _ => debug

end Level

/-- The parts of the linter that write to the log: the program as a whole, the compiler of patterns,
the rules, the configuration, the scripts, the parser of Java, and the analysis. -/
inductive LogSource where
  | program
  | compiler
  | rules
  | config
  | scripts
  | parser
  | analysis
deriving DecidableEq, Inhabited

/-- The name under which a part writes to the log. -/
def LogSource.name : LogSource → String
  | program => "javasee"
  | compiler => "javasee.compiler"
  | rules => "javasee.rules"
  | config => "javasee.config"
  | scripts => "javasee.scripts"
  | parser => "javasee.java_parser"
  | analysis => "javasee.analyzer"

/-- An entry of the log: how important it is, where it comes from, and what it says. -/
structure LogEntry where
  level : Level
  source : LogSource
  message : String
deriving DecidableEq, Inhabited

namespace LogEntry

/-- An entry as a line of text. -/
def line (e : LogEntry) : String :=
  "[" ++ e.level.word ++ "] " ++ e.source.name ++ ": " ++ e.message ++ "\n"

/-- Whether an entry is shown when asked for more so many times. -/
def isShown (verbosity : Nat) (e : LogEntry) : Bool :=
  (Level.threshold verbosity).rank ≤ e.level.rank

end LogEntry

end ShapeLint
