import LiteralAudit.IoFault
import LiteralAudit.Path
import LiteralAudit.Glob.Reading

/-!
# Failures of a run

What keeps a run from being set up or from delivering its report.  Failures of single files are
part of the report and not among them.
-/

namespace LiteralAudit

/-- Why a run fails. -/
inductive Failure where
  /-- The configuration is not usable. -/
  | configuration (reason : Text)
  /-- A file that is needed cannot be read. -/
  | unreadable (path : Path) (fault : IoFault)
  /-- There is nothing at the path to audit. -/
  | pathMissing (path : Path)
  /-- A glob is malformed. -/
  | invalidGlob (glob : Text) (fault : GlobFault)
  /-- Globs are well formed, but they cannot be matched together. -/
  | refusedGlobs (reason : Text)
  /-- A token document is not usable. -/
  | unusableTokens (path : Path) (reason : Text)
  /-- Something cannot be written. -/
  | io (fault : IoFault)
  /-- A text is no TOML document for a configuration. -/
  | toml (reason : Text)
  /-- A text is no JSON document, or a value cannot be written as one. -/
  | json (reason : Text)
  deriving DecidableEq, Repr

namespace Failure

/-- The word for the kind of a failure. -/
def kind : Failure → Text
  | .configuration _ | .toml _ => "Config"
  | .unreadable _ _ | .io _ => "IO"
  | .pathMissing _ => "Input"
  | .invalidGlob _ _ | .refusedGlobs _ => "Pattern"
  | .unusableTokens _ _ => "Tokens"
  | .json _ => "Serialization"

/-- The words for a failure. -/
def message : Failure → Text
  | .configuration reason => "Configuration error: " ++ reason
  | .unreadable path _ => "Failed to read file: " ++ path.display
  | .pathMissing path => "Path not found: " ++ path.display
  | .invalidGlob glob _ => "Invalid glob pattern: " ++ glob
  | .refusedGlobs _ => "Invalid glob pattern: combined patterns"
  | .unusableTokens path reason => "Invalid token definition " ++ path.display ++ ": " ++ reason
  | .io fault => "IO error: " ++ fault.message
  | .toml reason => "TOML parse error: " ++ reason
  | .json reason => "JSON error: " ++ reason

/-- The words for what is behind a failure, if something else is. -/
def cause? : Failure → Option Text
  | .unreadable _ fault | .io fault => some fault.message
  | .invalidGlob glob fault => some (fault.message glob)
  | .refusedGlobs reason | .toml reason | .json reason => some reason
  | .configuration _ | .pathMissing _ | .unusableTokens _ _ => none

end Failure

end LiteralAudit
