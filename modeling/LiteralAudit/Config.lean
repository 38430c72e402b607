import LiteralAudit.Scan.Filter
import LiteralAudit.Report.Plain

/-!
# Configuration

The settings of the directory walk and of the two commands.  Every setting has a default.
`Config.check` refuses settings that can do nothing: an empty list of extensions, a report that
lists no entries, or a malformed glob.
-/

namespace LiteralAudit

/-- The settings of the directory walk. -/
structure ScanConfig where
  /-- The names of directories that are not entered. -/
  excludeDirs : List Text
  /-- Globs of files and directories to leave out. -/
  exclude : List Text
  /-- Whether ignore files are respected. -/
  gitignore : Bool
  deriving DecidableEq, Repr

/-- The settings of the design token audit. -/
structure AuditConfig where
  /-- The extensions of the audited files. -/
  extensions : List Text
  /-- A token document that extends the allowed values. -/
  tokens : Option Path
  /-- The mode whose colors are allowed, if not those of every mode. -/
  mode : Option Theme
  /-- How many entries of a category the report lists. -/
  maxListed : Nat
  deriving DecidableEq, Repr

/-- The settings of the YAML check. -/
structure YamlConfig where
  /-- The extensions of the files that are checked in a directory. -/
  extensions : List Text
  deriving DecidableEq, Repr

/-- All settings. -/
structure Config where
  /-- The settings of the directory walk. -/
  scanner : ScanConfig
  /-- The settings of the design token audit. -/
  audit : AuditConfig
  /-- The settings of the YAML check. -/
  yaml : YamlConfig
  deriving DecidableEq, Repr

/-- The names of directories that hold dependencies and build output. -/
def ScanConfig.defaultExcludeDirs : List Text :=
  ["node_modules", ".next", "dist", "build", ".git", "target"]

/-- The walk by default. -/
def ScanConfig.default : ScanConfig := ⟨defaultExcludeDirs, [], false⟩

/-- The audit by default. -/
def AuditConfig.default : AuditConfig :=
  ⟨["tsx", "ts", "jsx", "js", "css", "scss"], none, none, PlainStyle.defaultMaxListed⟩

/-- The YAML check by default. -/
def YamlConfig.default : YamlConfig := ⟨["yaml", "yml"]⟩

namespace Config

/-- The settings by default. -/
def default : Config := ⟨.default, .default, .default⟩

/-- Refuses settings that can do nothing. -/
def check (config : Config) : Except Failure Unit :=
  if config.audit.extensions.isEmpty then
    .error (.configuration "audit.extensions must list at least one extension")
  else if config.yaml.extensions.isEmpty then
    .error (.configuration "yaml.extensions must list at least one extension")
  else if config.audit.maxListed = 0 then
    .error (.configuration "audit.max_listed must be at least 1")
  else (FileFilter.readGlobs config.scanner.exclude).map fun _ => ()

end Config

end LiteralAudit
