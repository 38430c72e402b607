import LiteralAudit.DesignTokens
import LiteralAudit.Audit.Summary
import LiteralAudit.Json.Writer

/-!
# Reports for programs

The same reports as JSON documents.  Every finding is listed.  The path of a finding is written
as a text, so a report cannot be written if the path of one of its findings is none; the paths of
files are shown with what is no text replaced.
-/

namespace LiteralAudit

/-- A report names a finding whose path is no text. -/
structure UnwritablePath where
  /-- The path. -/
  path : Path
  deriving DecidableEq, Repr

/-- The words for a report that cannot be written. -/
def UnwritablePath.message (_ : UnwritablePath) : Text := "path contains invalid UTF-8 characters"

namespace DataReport

/-- A natural as a value. -/
def natural (n : Nat) : Json := .num (.natural n)

/-- A member. -/
def member (name : Text) (value : Json) : Text × Json := (name, value)

/-- A member that is left out if there is no value. -/
def optional (name : Text) (value : Option Json) : List (Text × Json) :=
  match value with
  | some value => [(name, value)]
  | none => []

/-- The path of a finding as a value. -/
def path (path : Path) : Except UnwritablePath Json :=
  match Text.Utf8.decode? path.bytes with
  | some text => .ok (.str text)
  | none => .error ⟨path⟩

/-- A finding as a value. -/
def diagnostic (found : Diagnostic) : Except UnwritablePath Json := do
  let pathValue ← path found.path
  .ok <| .object <|
    [member "path" (pathValue), member "line" (natural found.line)] ++
      optional "column" (found.column.map natural) ++
      [member "category" (.str found.category.name), member "literal" (.str found.literal),
        member "source_line" (.str found.sourceLine), member "message" (.str found.message)]

/-- A file that could not be audited as a value. -/
def failure (failed : FileFailure) : Json :=
  .object [member "path" (.str failed.path.display), member "error" (.str failed.message)]

/-! ## Audits -/

/-- The counts of the categories with findings. -/
def byCategory (summary : Summary) : List (Text × Json) :=
  (Category.all.filter fun category => 0 < summary.count category).map fun category =>
    (category.name, natural (summary.count category))

/-- The counts of an audit. -/
def auditSummary (summary : Summary) : Json :=
  .object
    [member "total_files_scanned" (natural summary.scanned),
      member "files_with_issues" (natural summary.filesWithIssues),
      member "files_not_audited" (natural summary.failures.size),
      member "total_issues" (natural summary.totalIssues),
      member "by_category" (.object (byCategory summary))]

/-- The findings of an audit, category by category. -/
def auditDiagnostics (summary : Summary) : List Diagnostic :=
  Category.all.flatMap summary.diagnostics

/-- The report on an audit as a value. -/
def auditValue (summary : Summary) (theme : Option Theme) : Except UnwritablePath Json := do
  let found ← (auditDiagnostics summary).mapM diagnostic
  .ok <| .object
    [member "mode" ((theme.map fun theme => Json.str theme.name).getD .null),
      member "summary" (auditSummary summary),
      member "diagnostics" (.array found),
      member "failures" (.array (summary.failures.values.map failure))]

/-- The report on an audit. -/
def audit (summary : Summary) (theme : Option Theme) : Except UnwritablePath Text :=
  (auditValue summary theme).map Json.write

/-! ## YAML files -/

/-- The state of a file: it can be parsed, it cannot, or it cannot be read. -/
def status (outcome : Outcome) : Text :=
  match outcome.result with
  | .error _ => "unreadable"
  | .ok audit => if audit.hasParseError then "invalid" else "valid"

/-- A file as a value. -/
def yamlFile (outcome : Outcome) : Except UnwritablePath Json := do
  let (documents, error, diagnostics) := match outcome.result with
    | .error failed => (none, some failed.message, [])
    | .ok audit => (audit.documents, none, audit.toList)
  let found ← diagnostics.mapM diagnostic
  .ok <| .object <|
    [member "path" (.str outcome.path.display), member "status" (.str (status outcome))] ++
      optional "documents" (documents.map natural) ++
      optional "error" (error.map Json.str) ++
      [member "diagnostics" (.array found)]

/-- The report on YAML files as a value. -/
def yamlValue (outcomes : List Outcome) : Except UnwritablePath Json := do
  let files ← outcomes.mapM yamlFile
  let failed := (outcomes.filter Outcome.isBlocking).length
  let warnings :=
    (outcomes.map fun outcome => (outcome.get .legacyPattern).length).foldr (· + ·) 0
  .ok <| .object
    [member "summary" (.object
        [("total_files", natural outcomes.length), ("valid", natural (outcomes.length - failed)),
          ("failed", natural failed), ("warnings", natural warnings)]),
      member "files" (.array files)]

/-- The report on YAML files. -/
def yaml (outcomes : List Outcome) : Except UnwritablePath Text :=
  (yamlValue outcomes).map Json.write

end DataReport

end LiteralAudit
