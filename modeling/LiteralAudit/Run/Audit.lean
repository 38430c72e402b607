import LiteralAudit.Audit.Lines
import LiteralAudit.Run.World

/-!
# The design token audit

The command loads its configuration, lets the command line override it, extends the allowed values
by a token document, and audits a file or the files below a directory.  A token document that
cannot be used leaves the built-in values in place.
-/

namespace LiteralAudit

namespace AuditRequest

/-- The configuration with what the command line overrides. -/
def override (request : AuditRequest) (config : Config) : Config :=
  { config with
    scanner := { config.scanner with exclude := config.scanner.exclude ++ request.exclude }
    audit :=
      { extensions := request.ext.getD config.audit.extensions
        tokens := request.tokens <|> config.audit.tokens
        mode := request.mode <|> config.audit.mode
        maxListed := request.maxListed.getD config.audit.maxListed } }

end AuditRequest

namespace AuditRun

/-- The allowed values of a token document. -/
def readTokens (files : FileSystem) (path : Path) (mode : Option Theme) :
    Except Failure AllowedValues :=
  match files.readText path with
  | .error fault => .error (.unreadable path fault)
  | .ok text =>
      match DesignTokens.read text with
      | .error error => .error (.unusableTokens path (error.message text))
      | .ok tokens => .ok (.withTokens tokens mode)

/-- Says which values a token document allows. -/
def tokensNotice (path : Path) (allowed : AllowedValues) : Notice :=
  .note ("Loaded tokens from " ++ path.display ++ ": " ++
    Text.ofNat allowed.colors.length ++ " colors, " ++
    Text.ofNat allowed.spacing.length ++ " spacing values, " ++
    Text.ofNat allowed.radii.length ++ " radii allowed")

/-- The allowed values of a configuration, and what is said about its token document. -/
def allowedValues (world : World) (line : CommandLine) (config : AuditConfig) :
    AllowedValues × List Notice :=
  match config.tokens with
  | none => (.builtIn, [])
  | some path =>
      match readTokens world.files path config.mode with
      | .ok allowed => (allowed, World.ifVerbose line [tokensNotice path allowed])
      | .error failure =>
          (.builtIn,
            if line.quiet then []
            else
              [.warning failure.message none
                (some "Continuing with the built-in allowed values")])

/-- Whether a directory has an excluded name. -/
def hasExcludedName (config : ScanConfig) (path : Path) : Bool :=
  (path.fileName? >>= Text.Utf8.decode?).any config.excludeDirs.contains

/-- Says that nothing below the root is audited because of its name. -/
def excludedNotices (world : World) (line : CommandLine) (config : ScanConfig) (root : Path) :
    List Notice :=
  if world.files.holdsDirectory root && hasExcludedName config root then
    World.ifVerbose line
      [.note (root.display ++ " is an excluded directory; nothing under it is audited")]
  else []

/-- The files that are audited: the root itself, or the wanted files below it. -/
def paths (world : World) (scanner : Scanner) (root : Path) : Except Failure (List Path) :=
  match world.files.get? root with
  | some (.file _) => .ok [root]
  | some (.directory _) => .ok (scanner.scan world.files world.user root)
  | _ => .error (.pathMissing root)

/-- The summary of the audits of some files. -/
def summary (files : FileSystem) (allowed : AllowedValues) (paths : List Path) : Summary :=
  .ofOutcomes (Outcome.auditPaths (StyleAuditor.ofAllowed allowed).toFileAuditor files.read paths)

/-- Says how much was audited and found. -/
def summaryNotice (summary : Summary) : Notice :=
  .note ("Audited " ++ Text.ofNat summary.scanned ++ " files, " ++
    Text.ofNat summary.totalIssues ++ " issues")

/-- The report of a summary. -/
def report (world : World) (line : CommandLine) (format : ReportFormat) (config : AuditConfig)
    (allowed : AllowedValues) (summary : Summary) : Except Failure Text :=
  match format with
  | .json => World.orUnwritable (DataReport.audit summary config.mode)
  | .text =>
      let style :=
        (PlainStyle.default (line.color.isColored world.colorsReport)).withAllowed allowed
      .ok (PlainReport.audit { style with maxListed := config.maxListed } summary config.mode)

/-- The audit with its effective configuration. -/
def runWith (world : World) (line : CommandLine) (request : AuditRequest) (config : Config) :
    Steps Finished :=
  Steps.onSuccess config.check fun _ =>
    let (allowed, notices) := allowedValues world line config.audit
    Steps.after notices <|
      Steps.onSuccess (world.scanner config.scanner config.audit.extensions) fun scanner =>
        Steps.after (excludedNotices world line config.scanner request.path) <|
          Steps.onSuccess (paths world scanner request.path) fun paths =>
            let summary := summary world.files allowed paths
            Steps.after (World.ifVerbose line [summaryNotice summary]) <|
              Steps.onSuccess
                (report world line request.format config.audit allowed summary) fun report =>
                ([], .ok ⟨exitCodeFor summary.isClean, report⟩)

/-- The audit. -/
def run (world : World) (line : CommandLine) (request : AuditRequest) : Steps Finished :=
  Steps.onSuccess (world.loadConfig line request.config) fun loaded =>
    Steps.after (World.configNotices line loaded) <|
      runWith world line request (request.override loaded.config)

end AuditRun

end LiteralAudit
