import LiteralAudit.CommandLine

/-!
# What is said about usage

The texts for a command line that asks for help or that there is no command to run for.
-/

namespace LiteralAudit

/-- How the program is used. -/
def usageText : Text :=
  "Flag suspicious literals: YAML 1.1 legacy values and hardcoded design values\n\n" ++
  "Usage: literal-guard [OPTIONS] yaml [OPTIONS] <PATHS>...\n" ++
  "       literal-guard [OPTIONS] audit [OPTIONS] [PATH]\n\n" ++
  "Options:\n" ++
  "  -v, --verbose          Increase output verbosity\n" ++
  "  -q, --quiet            Do not print the report\n" ++
  "      --color <WHEN>     auto, always or never\n" ++
  "      --no-config        Skip loading the configuration file\n" ++
  "  -c, --config <FILE>    Path to the configuration file\n" ++
  "  -f, --format <FORMAT>  text or json\n" ++
  "  -o, --output <FILE>    Write the report to a file\n" ++
  "  -h, --help             Print help\n" ++
  "  -V, --version          Print the version\n\n" ++
  "Options of audit:\n" ++
  "      --tokens <FILE>    Design-token JSON document that extends the allowed values\n" ++
  "      --mode <MODE>      light or dark\n" ++
  "      --ext <LIST>       File extensions to audit, with commas between them\n" ++
  "  -x, --exclude <GLOB>   Paths to leave out; may be given several times\n" ++
  "      --max-listed <N>   Entries listed per category\n\n" ++
  "Exit codes:\n" ++
  "  0  No blocking issues\n" ++
  "  1  Blocking issues found\n" ++
  "  2  Configuration or runtime error\n"

namespace UsageFault

/-- What is wrong with a command line, if anything is. -/
def reason? : UsageFault → Option Text
  | .helpWanted | .versionWanted | .nothingGiven => none
  | .noCommand => some "a command is required: yaml or audit"
  | .unknownCommand => some "there is no such command"
  | .unknownArgument => some "unexpected argument"
  | .invalidValue => some "a value is missing or not possible"
  | .malformedValue => some "a value is malformed"
  | .notText => some "a value is not valid UTF-8"
  | .repeated => some "an option cannot be used multiple times"
  | .needlessValue => some "an option takes no value"
  | .missingArgument => some "a path is required"

/-- What is printed for a command line without a command to run. -/
def message (fault : UsageFault) : Text :=
  match fault, fault.reason? with
  | _, some reason => "error: " ++ reason ++ "\n\nFor more information, try '--help'.\n"
  | .versionWanted, none => "literal-guard 0.1.0\n"
  | _, none => usageText

end UsageFault

end LiteralAudit
