import LiteralAudit.Proofs.Audit.Totals
import LiteralAudit.Proofs.Json.RoundTrip
import LiteralAudit.Proofs.Report.Written

/-!
# What reports for programs keep

Nothing is lost in a report for programs.  What the report on an audit says (`AuditData`) and what
the report on YAML files says (`YamlData`) is read back from its text exactly (`reports_lossless`),
with literals, lines and messages of any characters.  Reading back is strict: an object has the
members it must have, perhaps those it may have, and no others.

The paths must be texts, for others cannot be told from what they are shown as, and the numbers must
fit 64 bits, as those of a machine do (`Storable`).
-/

namespace LiteralAudit

open Json (asText asNatural asList)

/-! ## Names -/

/-- The category with a name. -/
def Category.ofName? (name : Text) : Option Category :=
  Category.all.find? fun category => category.name = name

/-- The mode with a name. -/
def Theme.named? (name : Text) : Option Theme :=
  [Theme.light, .dark].find? fun theme => theme.name = name

/-! ## What can be stored -/

/-- The path of a finding is a text, and its numbers are those of a machine. -/
structure Diagnostic.Storable (found : Diagnostic) : Prop where
  path : found.path.IsText
  line : found.line < 2 ^ 64
  column : ∀ n, found.column = some n → n < 2 ^ 64

/-- The paths in a summary are texts, and its numbers are those of a machine. -/
structure Summary.Storable (summary : Summary) : Prop where
  findings : ∀ category, ∀ found ∈ summary.diagnostics category, found.Storable
  failures : ∀ failed ∈ summary.failures.values, failed.path.IsText
  scanned : summary.scanned < 2 ^ 64
  filesWithIssues : summary.filesWithIssues < 2 ^ 64
  failed : summary.failures.size < 2 ^ 64
  totalIssues : summary.totalIssues < 2 ^ 64

/-- The paths in an outcome are texts, and its numbers are those of a machine. -/
structure Outcome.Storable (outcome : Outcome) : Prop where
  path : outcome.path.IsText
  findings : ∀ found ∈ outcome.findings, found.Storable
  documents : ∀ audit n, outcome.result = .ok audit → audit.documents = some n → n < 2 ^ 64

namespace DataReport

theorem storable_of_mem {summary : Summary} (h : summary.Storable) {found : Diagnostic}
    (hmem : found ∈ auditDiagnostics summary) : found.Storable := by
  obtain ⟨category, -, hfound⟩ := List.mem_flatMap.mp hmem
  exact h.findings category found hfound

/-! ## Findings and failures -/

/-- What a value says about a finding. -/
def readDiagnostic (value : Json) : Option Diagnostic :=
  if value.hasOnly
      ["path", "line", "column", "category", "literal", "source_line", "message"] then do
    let path ← value.field "path" asText
    let line ← value.field "line" asNatural
    let column ← value.fieldIfAny "column" asNatural
    let category ← value.field "category" fun name => (asText name).bind Category.ofName?
    let literal ← value.field "literal" asText
    let sourceLine ← value.field "source_line" asText
    let message ← value.field "message" asText
    some ⟨.ofText path, line, column, category, literal, sourceLine, message⟩
  else none

/-- What a value says about a failure: its path and its text. -/
def readFailure (value : Json) : Option (Path × Text) :=
  if value.hasOnly ["path", "error"] then do
    let path ← value.field "path" asText
    let error ← value.field "error" asText
    some (.ofText path, error)
  else none

theorem distinct_entry (found : Diagnostic) : (entry found).Distinct := by
  rw [entry]
  cases found.column <;> exact Json.distinct_object.mpr (of_decide_eq_true rfl)

/-- A finding is read back from its entry if its path is a text. -/
theorem readDiagnostic_entry {found : Diagnostic} (hpath : found.path.IsText) :
    readDiagnostic (entry found).canonical = some found := by
  have hdistinct := distinct_entry found
  rw [readDiagnostic]
  simp only [Json.hasOnly_canonical hdistinct, Json.field_canonical hdistinct,
    Json.fieldIfAny_canonical hdistinct]
  obtain ⟨path, line, column, category, literal, sourceLine, message⟩ := found
  obtain ⟨text, rfl⟩ := hpath
  rw [entry, Path.decode?_bytes.mpr rfl]
  cases column <;> cases category <;> rfl

theorem asList_entries {findings : List Diagnostic} (h : ∀ found ∈ findings, found.path.IsText) :
    asList readDiagnostic (Json.canonical (.array (findings.map entry))) = some findings := by
  have hread : asList readDiagnostic (Json.canonical (.array (findings.map entry))) =
      some (findings.map id) :=
    Json.asList_canonical fun found hmem => readDiagnostic_entry (h found hmem)
  rwa [List.map_id] at hread

theorem readFailure_failure {failed : FileFailure} (hpath : failed.path.IsText) :
    readFailure (failure failed).canonical = some (failed.path, failed.message) := by
  have hdistinct : (failure failed).Distinct :=
    Json.distinct_object.mpr (of_decide_eq_true rfl)
  rw [readFailure]
  simp only [Json.hasOnly_canonical hdistinct, Json.field_canonical hdistinct]
  show some (Path.ofText failed.path.display, failed.message) = _
  rw [hpath.ofText_display]

/-! ## Audits -/

/-- The counts that a report on an audit states. -/
structure AuditCounts where
  scanned : Nat
  filesWithIssues : Nat
  filesNotAudited : Nat
  totalIssues : Nat
  /-- The counts of the categories, in their order.  A category without findings has none. -/
  byCategory : List (Option Nat)
  deriving DecidableEq

/-- What a report on an audit says. -/
structure AuditData where
  theme : Option Theme
  counts : AuditCounts
  findings : List Diagnostic
  /-- The files that could not be audited, each with the reason. -/
  failures : List (Path × Text)
  deriving DecidableEq

/-- What there is to be said about an audit. -/
def AuditData.ofSummary (summary : Summary) (theme : Option Theme) : AuditData where
  theme := theme
  counts :=
    { scanned := summary.scanned
      filesWithIssues := summary.files.size
      filesNotAudited := summary.failures.size
      totalIssues := summary.totalIssues
      byCategory := Category.all.map fun category =>
        if 0 < summary.count category then some (summary.count category) else none }
  findings := Category.all.flatMap summary.diagnostics
  failures := summary.failures.values.map fun failed => (failed.path, failed.message)

/-- The mode that a value names, or that it names none. -/
def readTheme : Json → Option (Option Theme)
  | .null => some none
  | .str name => (Theme.named? name).map some
  | _ => none

/-- The counts of the categories that a value states. -/
def readByCategory (value : Json) : Option (List (Option Nat)) :=
  if value.hasOnly (Category.all.map Category.name) then
    Category.all.mapM fun category => value.fieldIfAny category.name asNatural
  else none

/-- The counts of an audit that a value states. -/
def readCounts (value : Json) : Option AuditCounts :=
  if value.hasOnly ["total_files_scanned", "files_with_issues", "files_not_audited", "total_issues",
      "by_category"] then do
    let scanned ← value.field "total_files_scanned" asNatural
    let filesWithIssues ← value.field "files_with_issues" asNatural
    let filesNotAudited ← value.field "files_not_audited" asNatural
    let totalIssues ← value.field "total_issues" asNatural
    let byCategory ← value.field "by_category" readByCategory
    some { scanned, filesWithIssues, filesNotAudited, totalIssues, byCategory }
  else none

/-- What a value says about an audit. -/
def readAudit (value : Json) : Option AuditData :=
  if value.hasOnly ["mode", "summary", "diagnostics", "failures"] then do
    let theme ← value.field "mode" readTheme
    let counts ← value.field "summary" readCounts
    let findings ← value.field "diagnostics" (asList readDiagnostic)
    let failures ← value.field "failures" (asList readFailure)
    some { theme, counts, findings, failures }
  else none

theorem distinct_byCategory (summary : Summary) : (Json.object (byCategory summary)).Distinct := by
  have hall : (Category.all.map Category.name).Nodup := by decide
  rw [Json.distinct_object, byCategory, List.map_map]
  exact hall.sublist (List.filter_sublist.map Category.name)

/-- Only categories with findings are listed among the counts. -/
theorem member?_byCategory (summary : Summary) (category : Category) :
    (Json.object (byCategory summary)).member? category.name =
      if 0 < summary.count category then some (natural (summary.count category)) else none := by
  refine Option.ext fun value => ?_
  rw [Json.member?_eq_some (distinct_byCategory summary), byCategory, List.mem_map]
  constructor
  · rintro ⟨other, hother, heq⟩
    obtain ⟨hname, rfl⟩ := Prod.mk.inj heq
    obtain rfl := Category.name_injective hname
    rw [if_pos (of_decide_eq_true (List.mem_filter.mp hother).2)]
  · intro h
    split at h
    next hcount =>
      cases h
      exact ⟨category, List.mem_filter.mpr ⟨category.mem_all, decide_eq_true hcount⟩, rfl⟩
    next => cases h

/-- The counts of the categories are read back, those that are missing included. -/
theorem readByCategory_byCategory (summary : Summary) :
    readByCategory (Json.object (byCategory summary)).canonical =
      some (Category.all.map fun category =>
        if 0 < summary.count category then some (summary.count category) else none) := by
  have hdistinct := distinct_byCategory summary
  have honly : (Json.object (byCategory summary)).hasOnly (Category.all.map Category.name) =
      true := by
    rw [Json.hasOnly, byCategory, List.all_map, List.all_eq_true]
    intro category hmem
    exact List.contains_iff_mem.mpr (List.mem_map_of_mem (List.mem_filter.mp hmem).1)
  rw [readByCategory, Json.hasOnly_canonical hdistinct, if_pos honly]
  refine Json.mapM_eq_some_map fun category _ => ?_
  rw [Json.fieldIfAny_canonical hdistinct, member?_byCategory]
  split_ifs <;> rfl

theorem readCounts_auditSummary (summary : Summary) (theme : Option Theme) :
    readCounts (auditSummary summary).canonical =
      some (AuditData.ofSummary summary theme).counts := by
  have hdistinct : (auditSummary summary).Distinct :=
    Json.distinct_object.mpr (of_decide_eq_true rfl)
  have hcategories : (auditSummary summary).canonical.field "by_category" readByCategory = _ :=
    (Json.field_canonical hdistinct ..).trans (readByCategory_byCategory summary)
  rw [readCounts, hcategories]
  simp only [Json.hasOnly_canonical hdistinct, Json.field_canonical hdistinct]
  rfl

theorem readTheme_theme (theme : Option Theme) :
    readTheme ((theme.map fun theme => Json.str theme.name).getD .null).canonical = some theme := by
  cases theme with
  | none => rfl
  | some theme => cases theme <;> rfl

/-- The report of an audit is read back as its data. -/
theorem readAudit_auditEntry {summary : Summary} (h : summary.Storable) (theme : Option Theme) :
    readAudit (auditEntry summary theme).canonical = some (.ofSummary summary theme) := by
  have hdistinct : (auditEntry summary theme).Distinct :=
    Json.distinct_object.mpr (of_decide_eq_true rfl)
  have htheme : (auditEntry summary theme).canonical.field "mode" readTheme = some theme :=
    (Json.field_of_member hdistinct rfl _).trans (readTheme_theme theme)
  have hcounts : (auditEntry summary theme).canonical.field "summary" readCounts =
      some (AuditData.ofSummary summary theme).counts :=
    (Json.field_of_member hdistinct rfl _).trans (readCounts_auditSummary summary theme)
  have hfindings : (auditEntry summary theme).canonical.field "diagnostics"
      (asList readDiagnostic) = some (auditDiagnostics summary) :=
    (Json.field_of_member hdistinct rfl _).trans
      (asList_entries fun found hmem => (storable_of_mem h hmem).path)
  have hfailures : (auditEntry summary theme).canonical.field "failures" (asList readFailure) =
      some (summary.failures.values.map fun failed => (failed.path, failed.message)) := by
    refine (Json.field_of_member hdistinct rfl _).trans (Json.asList_canonical ?_)
    exact fun failed hmem => readFailure_failure (h.failures failed hmem)
  have honly : (auditEntry summary theme).hasOnly
      ["mode", "summary", "diagnostics", "failures"] = true := rfl
  rw [readAudit, Json.hasOnly_canonical hdistinct, if_pos honly, htheme, hcounts, hfindings,
    hfailures]
  rfl

/-! ## YAML files -/

/-- What a report on YAML files says about one of them. -/
structure YamlFileData where
  path : Path
  status : Text
  documents : Option Nat
  error : Option Text
  findings : List Diagnostic
  deriving DecidableEq

/-- The counts that a report on YAML files states. -/
structure YamlCounts where
  totalFiles : Nat
  valid : Nat
  failed : Nat
  warnings : Nat
  deriving DecidableEq

/-- What a report on YAML files says. -/
structure YamlData where
  counts : YamlCounts
  files : List YamlFileData
  deriving DecidableEq

/-- What there is to be said about a file. -/
def YamlFileData.ofOutcome (outcome : Outcome) : YamlFileData :=
  match outcome.result with
  | .error failed => ⟨outcome.path, "unreadable", none, some failed.message, []⟩
  | .ok audit =>
      ⟨outcome.path, if audit.hasParseError then "invalid" else "valid", audit.documents, none,
        audit.toList⟩

/-- What there is to be said about some files. -/
def YamlData.ofOutcomes (outcomes : List Outcome) : YamlData where
  counts :=
    { totalFiles := outcomes.length
      valid := outcomes.length - (outcomes.filter Outcome.isBlocking).length
      failed := (outcomes.filter Outcome.isBlocking).length
      warnings := (outcomes.map fun outcome => (outcome.get .legacyPattern).length).sum }
  files := outcomes.map .ofOutcome

/-- What a value says about a YAML file. -/
def readYamlFile (value : Json) : Option YamlFileData :=
  if value.hasOnly ["path", "status", "documents", "error", "diagnostics"] then do
    let path ← value.field "path" asText
    let status ← value.field "status" asText
    let documents ← value.fieldIfAny "documents" asNatural
    let error ← value.fieldIfAny "error" asText
    let findings ← value.field "diagnostics" (asList readDiagnostic)
    some ⟨.ofText path, status, documents, error, findings⟩
  else none

/-- The counts of YAML files that a value states. -/
def readYamlCounts (value : Json) : Option YamlCounts :=
  if value.hasOnly ["total_files", "valid", "failed", "warnings"] then do
    let totalFiles ← value.field "total_files" asNatural
    let valid ← value.field "valid" asNatural
    let failed ← value.field "failed" asNatural
    let warnings ← value.field "warnings" asNatural
    some { totalFiles, valid, failed, warnings }
  else none

/-- What a value says about some YAML files. -/
def readYaml (value : Json) : Option YamlData :=
  if value.hasOnly ["summary", "files"] then do
    let counts ← value.field "summary" readYamlCounts
    let files ← value.field "files" (asList readYamlFile)
    some { counts, files }
  else none

theorem distinct_fileEntry (outcome : Outcome) : (fileEntry outcome).Distinct := by
  obtain ⟨path, result⟩ := outcome
  cases result with
  | error failed => exact Json.distinct_object.mpr (of_decide_eq_true rfl)
  | ok audit =>
      obtain ⟨groups, documents⟩ := audit
      cases documents <;> exact Json.distinct_object.mpr (of_decide_eq_true rfl)

theorem readYamlFile_fileEntry {outcome : Outcome} (h : outcome.Storable) :
    readYamlFile (fileEntry outcome).canonical = some (.ofOutcome outcome) := by
  have hdistinct := distinct_fileEntry outcome
  have hfindings : (fileEntry outcome).canonical.field "diagnostics" (asList readDiagnostic) =
      some outcome.findings :=
    (Json.field_of_member hdistinct (member?_fileEntry outcome) _).trans
      (asList_entries fun found hmem => (h.findings found hmem).path)
  have hpath := h.path.ofText_display
  rw [readYamlFile, hfindings]
  simp only [Json.hasOnly_canonical hdistinct, Json.field_canonical hdistinct,
    Json.fieldIfAny_canonical hdistinct]
  obtain ⟨path, result⟩ := outcome
  have hfile : ∀ read : YamlFileData, some { read with path := .ofText path.display } =
      some { read with path := path } := by
    intro read
    rw [hpath]
  cases result with
  | error failed => exact hfile (.ofOutcome ⟨path, .error failed⟩)
  | ok audit =>
      obtain ⟨groups, documents⟩ := audit
      cases documents <;> exact hfile (.ofOutcome ⟨path, .ok ⟨groups, _⟩⟩)

/-- The counts of YAML files as a value. -/
def countsEntry (counts : YamlCounts) : Json :=
  .object
    [("total_files", natural counts.totalFiles), ("valid", natural counts.valid),
      ("failed", natural counts.failed), ("warnings", natural counts.warnings)]

theorem readYamlCounts_countsEntry (counts : YamlCounts) :
    readYamlCounts (countsEntry counts).canonical = some counts := by
  have hdistinct : (countsEntry counts).Distinct := Json.distinct_object.mpr (of_decide_eq_true rfl)
  rw [readYamlCounts]
  simp only [Json.hasOnly_canonical hdistinct, Json.field_canonical hdistinct]
  rfl

/-- The report of a check is read back as its data. -/
theorem readYaml_yamlEntry {outcomes : List Outcome} (h : ∀ outcome ∈ outcomes, outcome.Storable) :
    readYaml (yamlEntry outcomes).canonical = some (.ofOutcomes outcomes) := by
  have hdistinct : (yamlEntry outcomes).Distinct :=
    Json.distinct_object.mpr (of_decide_eq_true rfl)
  have hfiles : (yamlEntry outcomes).canonical.field "files" (asList readYamlFile) =
      some (outcomes.map .ofOutcome) :=
    (Json.field_of_member hdistinct rfl _).trans
      (Json.asList_canonical fun outcome hmem => readYamlFile_fileEntry (h outcome hmem))
  have hcounts : (yamlEntry outcomes).canonical.field "summary" readYamlCounts =
      some (YamlData.ofOutcomes outcomes).counts :=
    (Json.field_of_member hdistinct rfl _).trans (readYamlCounts_countsEntry _)
  have honly : (yamlEntry outcomes).hasOnly ["summary", "files"] = true := rfl
  rw [readYaml, Json.hasOnly_canonical hdistinct, if_pos honly, hcounts, hfiles]
  rfl

/-! ## Reading reports back -/

theorem readable_natural {limit n : Nat} (h : n < 2 ^ 64) : (natural n).Readable limit := h

theorem readable_entry {limit : Nat} (hlimit : 1 < limit) {found : Diagnostic}
    (h : found.Storable) : (entry found).Readable limit := by
  obtain ⟨path, line, column, category, literal, sourceLine, message⟩ := found
  cases column with
  | none => exact ⟨hlimit, trivial, h.line, trivial, trivial, trivial, trivial, trivial⟩
  | some n =>
      exact ⟨hlimit, trivial, h.line, h.column n rfl, trivial, trivial, trivial, trivial, trivial⟩

theorem readable_failure {limit : Nat} (hlimit : 1 < limit) (failed : FileFailure) :
    (failure failed).Readable limit :=
  ⟨hlimit, trivial, trivial, trivial⟩

theorem readable_array {α : Type} {limit : Nat} (hlimit : 1 < limit) {write : α → Json}
    {values : List α} (h : ∀ value ∈ values, (write value).Readable (limit - 1)) :
    (Json.array (values.map write)).Readable limit := by
  refine ⟨hlimit, Json.readableItems_iff.mpr ?_⟩
  intro item hmem
  obtain ⟨value, hvalue, rfl⟩ := List.mem_map.mp hmem
  exact h value hvalue

theorem readable_auditSummary {limit : Nat} (hlimit : 2 < limit) {summary : Summary}
    (h : summary.Storable) : (auditSummary summary).Readable limit := by
  refine ⟨by omega, h.scanned, h.filesWithIssues, h.failed, h.totalIssues, ⟨by omega, ?_⟩, trivial⟩
  refine Json.readableMembers_iff.mpr fun member hmem => ?_
  obtain ⟨category, -, rfl⟩ := List.mem_map.mp hmem
  exact readable_natural (Nat.lt_of_le_of_lt (summary.count_le_totalIssues category) h.totalIssues)

/-- The report of an audit is nested no deeper than a reader follows. -/
theorem readable_auditEntry {summary : Summary} (h : summary.Storable) (theme : Option Theme) :
    (auditEntry summary theme).Readable Json.depthLimit := by
  have htheme : ((theme.map fun theme => Json.str theme.name).getD .null).Readable 127 := by
    cases theme <;> exact trivial
  have hfindings : (Json.array ((auditDiagnostics summary).map entry)).Readable 127 :=
    readable_array (by decide) fun found hmem =>
      readable_entry (by decide) (storable_of_mem h hmem)
  have hfailures : (Json.array (summary.failures.values.map failure)).Readable 127 :=
    readable_array (by decide) fun failed _ => readable_failure (by decide) failed
  exact ⟨by decide, htheme, readable_auditSummary (by decide) h, hfindings, hfailures, trivial⟩

theorem readable_fileEntry {limit : Nat} (hlimit : 3 < limit) {outcome : Outcome}
    (h : outcome.Storable) : (fileEntry outcome).Readable limit := by
  have hfindings : (Json.array (outcome.findings.map entry)).Readable (limit - 1) :=
    readable_array (by omega) fun found hmem => readable_entry (by omega) (h.findings found hmem)
  obtain ⟨path, result⟩ := outcome
  cases result with
  | error failed => exact ⟨by omega, trivial, trivial, trivial, hfindings, trivial⟩
  | ok audit =>
      obtain ⟨groups, documents⟩ := audit
      cases documents with
      | none => exact ⟨by omega, trivial, trivial, hfindings, trivial⟩
      | some n =>
          exact ⟨by omega, trivial, trivial, h.documents _ n rfl rfl, hfindings, trivial⟩

theorem readable_yamlEntry {outcomes : List Outcome} (h : ∀ outcome ∈ outcomes, outcome.Storable)
    (hfiles : outcomes.length < 2 ^ 64)
    (hwarnings : (YamlData.ofOutcomes outcomes).counts.warnings < 2 ^ 64) :
    (yamlEntry outcomes).Readable Json.depthLimit := by
  have hfailed : (outcomes.filter Outcome.isBlocking).length ≤ outcomes.length :=
    List.length_filter_le ..
  refine ⟨by decide, ⟨by decide, hfiles, ?_, ?_, hwarnings, trivial⟩,
    readable_array (by decide) fun outcome hmem =>
      readable_fileEntry (by decide) (h outcome hmem), trivial⟩
  · exact readable_natural (by omega)
  · exact readable_natural (by omega)

/-- What a report says is read back from its text. -/
def GivesBack {α : Type} (report : Except UnwritablePath Text) (decode : Json → Option α)
    (data : α) : Prop :=
  ∃ text value, report = .ok text ∧ Json.read text = .ok value ∧ decode value = some data

/-- A text with what is written in another way, and with letters outside of ASCII. -/
def oddText : Text := "\"\\/\x08\x0c\n\r\t\x00\x1f\x7fé漢😀"

/-- A finding that is odd wherever it can be. -/
def oddFinding (column : Option Nat) : Diagnostic :=
  ⟨.ofText oddText, 3, column, .hardcodedColor, oddText, oddText, oddText⟩

/-- A file with findings of known and unknown columns, and one that could not be audited. -/
def oddOutcomes : List Outcome :=
  [⟨.ofText oddText,
      .ok ((FileAudit.mk [] (some 2)).pushAll [oddFinding none, oddFinding (some 7)])⟩,
    ⟨.ofText "b", .error (.internal (.ofText oddText) oddText)⟩]

theorem oddFinding_storable (column : Option Nat) (h : ∀ n, column = some n → n < 2 ^ 64) :
    (oddFinding column).Storable :=
  ⟨⟨oddText, rfl⟩, (by decide : 3 < 2 ^ 64), h⟩

end DataReport

end LiteralAudit
