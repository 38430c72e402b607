import LiteralAudit.Audit.Yaml
import LiteralAudit.Run.World
import LiteralAudit.Yaml.Reader

/-!
# The YAML check

The command checks files in the order in which they are given.  A directory stands for the YAML
files below it; anything else is checked as it is given, so a file that is missing is a failure of
that file.
-/

namespace LiteralAudit.YamlRun

/-- The files that are checked. -/
def paths (world : World) (scanner : Scanner) (given : List Path) : List Path :=
  given.flatMap fun path =>
    if world.files.holdsDirectory path then scanner.scan world.files world.user path else [path]

/-- The outcomes of some files. -/
def outcomes (files : FileSystem) (paths : List Path) : List Outcome :=
  Outcome.auditPaths (YamlAuditor.toFileAuditor Yaml.countDocuments) files.read paths

/-- The report of some outcomes. -/
def report (world : World) (line : CommandLine) (format : ReportFormat)
    (outcomes : List Outcome) : Except Failure Text :=
  match format with
  | .json => World.orUnwritable (DataReport.yaml outcomes)
  | .text =>
      .ok (PlainReport.yaml (PlainStyle.default (line.color.isColored world.colorsReport)) outcomes)

/-- The check with its configuration. -/
def runWith (world : World) (line : CommandLine) (request : YamlRequest) (config : Config) :
    Steps Finished :=
  Steps.onSuccess (world.scanner config.scanner config.yaml.extensions) fun scanner =>
    let outcomes := outcomes world.files (paths world scanner request.paths)
    Steps.onSuccess (report world line request.format outcomes) fun report =>
      ([], .ok ⟨exitCodeFor (!outcomes.any Outcome.isBlocking), report⟩)

/-- The check. -/
def run (world : World) (line : CommandLine) (request : YamlRequest) : Steps Finished :=
  Steps.onSuccess (world.loadConfig line request.config) fun loaded =>
    Steps.after (World.configNotices line loaded) (runWith world line request loaded.config)

end LiteralAudit.YamlRun
