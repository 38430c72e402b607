import LiteralAudit.Path
import LiteralAudit.DesignTokens
import LiteralAudit.Report.Format

/-!
# Command lines

What a command line asks for: one of two commands with its options, and the options that both
share.
-/

namespace LiteralAudit

/-- When colors are used. -/
inductive ColorChoice where
  /-- When the output is a terminal. -/
  | auto
  /-- In every case. -/
  | always
  /-- In no case. -/
  | never
  deriving DecidableEq, Repr

/-- The name of a choice. -/
def ColorChoice.name : ColorChoice → Text
  | .auto => "auto"
  | .always => "always"
  | .never => "never"

/-- What is asked of the YAML check. -/
structure YamlRequest where
  /-- The files and directories to check. -/
  paths : List Path
  /-- The configuration file. -/
  config : Option Path
  /-- The format of the report. -/
  format : ReportFormat
  /-- The file that the report is written to. -/
  output : Option Path
  deriving DecidableEq, Repr

/-- What is asked of the design token audit. -/
structure AuditRequest where
  /-- The file or directory to audit. -/
  path : Path
  /-- The configuration file. -/
  config : Option Path
  /-- The token document. -/
  tokens : Option Path
  /-- The mode whose colors are allowed. -/
  mode : Option Theme
  /-- The extensions of the audited files. -/
  ext : Option (List Text)
  /-- Further globs to leave out. -/
  exclude : List Text
  /-- The format of the report. -/
  format : ReportFormat
  /-- The file that the report is written to. -/
  output : Option Path
  /-- How many entries of a category are listed. -/
  maxListed : Option Nat
  deriving DecidableEq, Repr

/-- A command with what is asked of it. -/
inductive Command where
  /-- The YAML check. -/
  | yaml (request : YamlRequest)
  /-- The design token audit. -/
  | audit (request : AuditRequest)
  deriving DecidableEq, Repr

/-- What a command line asks for. -/
structure CommandLine where
  /-- How much is said besides the report. -/
  verbose : Nat
  /-- Whether the report is not printed. -/
  quiet : Bool
  /-- When colors are used. -/
  color : ColorChoice
  /-- Whether no configuration is loaded. -/
  noConfig : Bool
  /-- The command. -/
  command : Command
  deriving DecidableEq, Repr

/-- Why there is no command to run. -/
inductive UsageFault where
  /-- Help is asked for. -/
  | helpWanted
  /-- The version is asked for. -/
  | versionWanted
  /-- Nothing is given at all. -/
  | nothingGiven
  /-- Options are given, but no command. -/
  | noCommand
  /-- A command that there is not. -/
  | unknownCommand
  /-- An option that there is not, or an argument too many. -/
  | unknownArgument
  /-- A value is missing, or none of those that are possible. -/
  | invalidValue
  /-- A value is not well formed. -/
  | malformedValue
  /-- A value is no text. -/
  | notText
  /-- An option is given twice. -/
  | repeated
  /-- A value is given for an option that takes none. -/
  | needlessValue
  /-- The command lacks an argument. -/
  | missingArgument
  deriving DecidableEq, Repr

/-- The exit code when there is no command to run. -/
def UsageFault.exitCode : UsageFault → Nat
  | .helpWanted | .versionWanted => 0
  | _ => 2

end LiteralAudit
