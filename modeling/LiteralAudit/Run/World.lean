import LiteralAudit.CommandLine
import LiteralAudit.Config.Loading
import LiteralAudit.Report.Data
import LiteralAudit.Report.Notice
import LiteralAudit.Scan.Walk

/-!
# The world of a run

What a run finds around it, and the steps that both commands take: loading the configuration,
writing the report, and saying why a run failed.

A step that can say something gives its notices beside its result.  They are kept when a later
step fails.
-/

namespace LiteralAudit

/-- What a run depends on besides files. -/
structure Surroundings extends UserPlaces where
  /-- Which globs cannot be matched together. -/
  globLimit : GlobLimit

/-- Nothing is known of the user, and no globs are refused. -/
def Surroundings.bare : Surroundings := ⟨.unknown, .unlimited⟩

/-- A home directory stands for surroundings that are bare otherwise. -/
instance : Coe (Option Path) Surroundings := ⟨fun home => { Surroundings.bare with home := home }⟩

/-- What a run finds around it. -/
structure World where
  /-- The files. -/
  files : FileSystem
  /-- The rest. -/
  surroundings : Surroundings
  /-- Whether colors suit the place where reports are printed. -/
  colorsReport : Bool
  /-- Whether colors suit the place where notices are printed. -/
  colorsNotices : Bool

/-- Whether colors are used, given whether they suit the place. -/
def ColorChoice.isColored (choice : ColorChoice) (suits : Bool) : Bool :=
  match choice with
  | .auto => suits
  | .always => true
  | .never => false

/-- What a command ends with. -/
structure Finished where
  /-- The exit code. -/
  exitCode : Nat
  /-- The report. -/
  report : Text
  deriving DecidableEq, Repr

/-- The notices of some steps and what came of them. -/
abbrev Steps (α : Type) := List Notice × Except Failure α

namespace Steps

/-- The steps with notices in front. -/
def after {α : Type} (notices : List Notice) (steps : Steps α) : Steps α :=
  (notices ++ steps.1, steps.2)

/-- The steps that fail if something else did. -/
def onSuccess {α β : Type} (result : Except Failure α) (steps : α → Steps β) : Steps β :=
  match result with
  | .error failure => ([], .error failure)
  | .ok value => steps value

end Steps

/-- The exit code of a run without anything to complain about, or with something. -/
def exitCodeFor (isClean : Bool) : Nat := if isClean then 0 else 1

/-- The exit code of a run that failed. -/
def failureCode : Nat := 2

namespace Failure

/-- What may be done about a failure. -/
def suggestion? : Failure → Option Text
  | .configuration _ | .toml _ => some "Fix the configuration file or rerun with --no-config"
  | .pathMissing _ => some "Pass an existing file or directory"
  | .invalidGlob _ _ | .refusedGlobs _ => some "Check the glob syntax of --exclude"
  | _ => none

/-- The notice of a failure. -/
def notice (failure : Failure) : Notice :=
  .error failure.kind failure.message failure.cause? failure.suggestion?

end Failure

namespace World

/-- Where the user's own files are. -/
abbrev user (world : World) : UserPlaces := world.surroundings.toUserPlaces

/-- Which globs cannot be matched together. -/
abbrev globLimit (world : World) : GlobLimit := world.surroundings.globLimit

/-- Where configurations are looked for. -/
def configPlace (world : World) : ConfigPlace where
  read := world.files.readText
  holds := world.files.holds
  working := some world.files.workingPath
  settings := world.user.settings?

/-- The configuration of a run: none is loaded, or that of a given file, or the first one that is
found. -/
def loadConfig (world : World) (line : CommandLine) (path : Option Path) :
    Except Failure LoadedConfig :=
  if line.noConfig then .ok ⟨.default, none⟩
  else
    match path with
    | some path => world.configPlace.loadFile path
    | none => world.configPlace.load

/-- Notices that are only given if more is to be said. -/
def ifVerbose (line : CommandLine) (notices : List Notice) : List Notice :=
  if line.verbose = 0 then [] else notices

/-- Says which configuration is used. -/
def configNotices (line : CommandLine) (loaded : LoadedConfig) : List Notice :=
  ifVerbose line
    (loaded.source.map fun path => Notice.note ("Using configuration " ++ path.display)).toList

/-- How directories are scanned for files with some extensions. -/
def scanner (world : World) (config : ScanConfig) (extensions : List Text) :
    Except Failure Scanner :=
  (FileFilter.ofLists extensions config.excludeDirs config.exclude world.globLimit).map
    fun filter => ⟨filter, config.gitignore⟩

/-- A report, or why it cannot be written. -/
def orUnwritable (report : Except UnwritablePath Text) : Except Failure Text :=
  match report with
  | .ok text => .ok text
  | .error fault => .error (.json fault.message)

/-- The files after a report has been written to a file, and what is printed of it.  Only printing
is kept quiet. -/
def deliver (world : World) (line : CommandLine) (output : Option Path) (report : Text) :
    Except Failure (FileSystem × Text) :=
  match output with
  | none => .ok (world.files, if line.quiet then [] else report)
  | some path =>
      let written : Except IoFault FileSystem := do
        let parents := path.parent?.filter fun parent => !parent.bytes.isEmpty
        let files ← match parents with
          | some parent => world.files.ensureDirectories parent
          | none => .ok world.files
        files.write path (Text.Utf8.encode report)
      match written with
      | .ok files => .ok (files, [])
      | .error fault => .error (.io fault)

end World

end LiteralAudit
