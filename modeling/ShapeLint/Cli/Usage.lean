/-!
# Help

What the program tells about its command line.
-/

namespace ShapeLint.Cli

/-- The version of the program. -/
def versionLine : String := "javasee 0.1.0\n"

/-- How the command line is written. -/
def usageLine : Option String → String
  | none => "usage: javasee [-h] [--version] [-v] <command> ...\n"
  | some "check" =>
    "usage: javasee check [-h] [-c FILE] [--root DIR] [-r ID] [-j N] [-o FILE] " ++
      "[-f \x7bjson,text\x7d] [PATH ...]\n"
  | some "find" =>
    "usage: javasee find [-h] [--max N] [-o FILE] [-f \x7bjson,text\x7d] PATTERN [PATH ...]\n"
  | some "test" => "usage: javasee test [-h] [-c FILE]\n"
  | some "init" => "usage: javasee init [-h] [-c FILE] [--force]\n"
  | some name => "usage: javasee " ++ name ++ " [-h]\n"

/-- What the program and its commands are for. -/
def helpText : String :=
  usageLine none ++ "
javasee - structural pattern linter for Java.

Flags expressions matching the patterns configured in
javasee.yml.

options:
  -h, --help     show this help message and exit
  --version      show program's version number and exit
  -v, --verbose  Increase verbosity (-v info, -vv debug).

commands:
  <command>
    check        Check Java files against the configured rules.
    find         Find expressions matching a pattern.
    test         Test rule patterns against their examples.
    init         Write a starter configuration file.
    version      Show version and exit.
    help         Show this help.

examples:
  javasee check src/ --format json
  javasee find '_.println(\"debug\")' src/
  javasee test --config javasee.yml
"

/-- The help for a command, or for all of them. -/
def helpFor : Option String → String
  | none => helpText
  | some name => usageLine (some name)

end ShapeLint.Cli
