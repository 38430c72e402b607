import LiteralAudit.Proofs.Audit.File
import LiteralAudit.Proofs.Text.Utf8
import LiteralAudit.Report.Data
import LiteralAudit.Run

/-!
# Which reports can be written

A report for people can always be written.  One for programs holds the path of each finding as a
text, and a path is spelled by a text exactly if its bytes are those of one (`Path.isText_iff`).  So
such a report is written exactly if all its findings are in files whose paths are texts, and
otherwise it comes to nothing because of the first finding in another file (`reports_written_iff`),
which can happen (`not_forall_written`).  The paths of files without findings and of files that
could not be audited are shown with what is no text replaced, and do no harm.
-/

namespace LiteralAudit

/-! ## Paths that are texts -/

namespace Path

/-- The path is spelled by a text. -/
def IsText (path : Path) : Prop := ∃ text, path = .ofText text

/-- A path can be decoded exactly if it is spelled by a text. -/
theorem decode?_bytes {path : Path} {text : Text} :
    Text.Utf8.decode? path.bytes = some text ↔ path = .ofText text := by
  rw [Text.Utf8.decode?_eq_some, ofText]
  constructor
  · intro h
    rw [← h]
  · rintro rfl
    rfl

@[simp]
theorem display_ofText (text : Text) : (ofText text).display = text :=
  Text.Utf8.decodeLossy_encode text

/-- A path that is a text is read back from what is shown of it. -/
theorem IsText.ofText_display {path : Path} (h : path.IsText) : ofText path.display = path := by
  obtain ⟨text, rfl⟩ := h
  rw [display_ofText]

theorem isText_iff {path : Path} :
    path.IsText ↔ (Text.Utf8.decode? path.bytes).isSome = true := by
  rw [IsText, Option.isSome_iff_exists]
  exact exists_congr fun text => decode?_bytes.symm

instance (path : Path) : Decidable path.IsText := decidable_of_iff _ isText_iff.symm

end Path

/-! ## Findings in files whose paths are no texts -/

/-- The first finding in a file whose path is no text. -/
def firstForeign? (findings : List Diagnostic) : Option Diagnostic :=
  findings.find? fun found => ¬found.path.IsText

/-- A value, unless one of the findings it is made from is in a file whose path is no text. -/
def unlessForeign {α : Type} (findings : List Diagnostic) (value : α) : Except UnwritablePath α :=
  match firstForeign? findings with
  | some found => .error ⟨found.path⟩
  | none => .ok value

section Unless

variable {α β : Type} {findings : List Diagnostic}

theorem unlessForeign_of_text (h : ∀ found ∈ findings, found.path.IsText) (value : α) :
    unlessForeign findings value = .ok value := by
  have hnone : firstForeign? findings = none := by
    simpa [firstForeign?] using h
  rw [unlessForeign, hnone]

/-- Data about findings is written exactly if the paths of all of them are texts. -/
theorem unlessForeign_eq_ok_iff {value : α} :
    (∃ written, unlessForeign findings value = .ok written) ↔
      ∀ found ∈ findings, found.path.IsText := by
  constructor
  · rintro ⟨written, h⟩
    cases hforeign : firstForeign? findings with
    | some found => simp [unlessForeign, hforeign] at h
    | none => simpa [firstForeign?] using hforeign
  · intro h
    exact ⟨value, unlessForeign_of_text h value⟩

theorem unlessForeign_bind (value : α) (next : α → β) :
    (unlessForeign findings value >>= fun value => .ok (next value)) =
      unlessForeign findings (next value) := by
  cases hforeign : firstForeign? findings <;> simp [unlessForeign, hforeign, bind, Except.bind]

theorem unlessForeign_map (value : α) (next : α → β) :
    (unlessForeign findings value).map next = unlessForeign findings (next value) := by
  cases hforeign : firstForeign? findings <;> simp [unlessForeign, hforeign, Except.map]

/-- A list of values that may fail for foreign findings fails for the first of all of them. -/
theorem mapM_unlessForeign {f : α → Except UnwritablePath β} {made : α → List Diagnostic}
    {value : α → β} (h : ∀ item, f item = unlessForeign (made item) (value item))
    (items : List α) :
    items.mapM f = unlessForeign (items.flatMap made) (items.map value) := by
  induction items with
  | nil => rfl
  | cons item items ih =>
      rw [List.mapM_cons, h, ih, List.flatMap_cons, List.map_cons]
      have happend : firstForeign? (made item ++ items.flatMap made) =
          (firstForeign? (made item)).or (firstForeign? (items.flatMap made)) :=
        List.find?_append ..
      cases hitem : firstForeign? (made item) with
      | some found =>
          simp [unlessForeign, happend, hitem, bind, Except.bind]
      | none =>
          cases hitems : firstForeign? (items.flatMap made) with
          | some found => simp [unlessForeign, happend, hitem, hitems, bind, Except.bind]
          | none =>
              simp [unlessForeign, happend, hitem, hitems, bind, Except.bind, pure, Except.pure]

end Unless

/-! ## Reports as values -/

namespace DataReport

/-- A finding as a value, whose path is a text. -/
def entry (found : Diagnostic) : Json :=
  .object <|
    [member "path" (.str ((Text.Utf8.decode? found.path.bytes).getD [])),
        member "line" (natural found.line)] ++
      optional "column" (found.column.map natural) ++
      [member "category" (.str found.category.name), member "literal" (.str found.literal),
        member "source_line" (.str found.sourceLine), member "message" (.str found.message)]

theorem diagnostic_eq (found : Diagnostic) :
    diagnostic found = unlessForeign [found] (entry found) := by
  rw [diagnostic, path, unlessForeign, firstForeign?, entry]
  simp only [List.find?_singleton, Path.isText_iff]
  cases Text.Utf8.decode? found.path.bytes <;> rfl

/-- A file as a value, the paths of whose findings are texts. -/
def fileEntry (outcome : Outcome) : Json :=
  .object <|
    [member "path" (.str outcome.path.display), member "status" (.str (status outcome))] ++
      optional "documents" (match outcome.result with
        | .ok audit => audit.documents.map natural
        | .error _ => none) ++
      optional "error" (match outcome.result with
        | .ok _ => none
        | .error failed => some (.str failed.message)) ++
      [member "diagnostics" (.array (outcome.findings.map entry))]

theorem mapM_diagnostic (findings : List Diagnostic) :
    findings.mapM diagnostic = unlessForeign findings (findings.map entry) := by
  rw [mapM_unlessForeign diagnostic_eq, List.flatMap_singleton']

theorem yamlFile_eq (outcome : Outcome) :
    yamlFile outcome = unlessForeign outcome.findings (fileEntry outcome) := by
  obtain ⟨path, result⟩ := outcome
  cases result with
  | error failure => rfl
  | ok audit =>
      rw [yamlFile]
      show (audit.toList.mapM diagnostic >>= _) = _
      rw [mapM_diagnostic, unlessForeign_bind]
      rfl

theorem member?_fileEntry (outcome : Outcome) :
    (fileEntry outcome).member? "diagnostics" = some (.array (outcome.findings.map entry)) := by
  obtain ⟨path, result⟩ := outcome
  rw [fileEntry]
  cases result with
  | error failure => rfl
  | ok audit =>
      dsimp only
      cases audit.documents <;> rfl

/-- The report on an audit as a value, the paths of whose findings are texts. -/
def auditEntry (summary : Summary) (theme : Option Theme) : Json :=
  .object
    [member "mode" ((theme.map fun theme => Json.str theme.name).getD .null),
      member "summary" (auditSummary summary),
      member "diagnostics" (.array ((auditDiagnostics summary).map entry)),
      member "failures" (.array (summary.failures.values.map failure))]

/-- The data of an audit is written unless a finding in it has a path that is no text. -/
theorem auditValue_eq (summary : Summary) (theme : Option Theme) :
    auditValue summary theme =
      unlessForeign (auditDiagnostics summary) (auditEntry summary theme) := by
  rw [auditValue, mapM_diagnostic, unlessForeign_bind]
  rfl

theorem audit_eq (summary : Summary) (theme : Option Theme) :
    audit summary theme =
      unlessForeign (auditDiagnostics summary) (auditEntry summary theme).write := by
  rw [audit, auditValue_eq, unlessForeign_map]

/-- The report on YAML files as a value, the paths of whose findings are texts. -/
def yamlEntry (outcomes : List Outcome) : Json :=
  let failed := (outcomes.filter Outcome.isBlocking).length
  let warnings :=
    (outcomes.map fun outcome => (outcome.get .legacyPattern).length).foldr (· + ·) 0
  .object
    [member "summary" (.object
        [("total_files", natural outcomes.length), ("valid", natural (outcomes.length - failed)),
          ("failed", natural failed), ("warnings", natural warnings)]),
      member "files" (.array (outcomes.map fileEntry))]

/-- The data of a check is written unless a finding in it has a path that is no text.  The paths of
files without findings do not matter. -/
theorem yaml_eq (outcomes : List Outcome) :
    yaml outcomes =
      unlessForeign (outcomes.flatMap Outcome.findings) (yamlEntry outcomes).write := by
  rw [yaml, yamlValue, mapM_unlessForeign yamlFile_eq]
  show (unlessForeign _ _ >>= fun files => Except.ok _).map _ = _
  rw [unlessForeign_bind, unlessForeign_map]
  rfl

/-! ## When a report is written -/

/-- A report can be written if the paths of the findings in it are texts.  If not, it comes to
nothing because of the first of them whose path is none. -/
structure NeedsTexts (findings : List Diagnostic) (report : Except UnwritablePath Text) : Prop where
  /-- It is written exactly if all paths are texts. -/
  written : (∃ text, report = .ok text) ↔ ∀ found ∈ findings, found.path.IsText
  /-- If it is not, the first path that is no text is the reason. -/
  refused : ∀ path, report = .error ⟨path⟩ ↔
    ∃ before found after, findings = before ++ found :: after ∧
      (∀ earlier ∈ before, earlier.path.IsText) ∧ found.path = path ∧ ¬path.IsText

theorem needsTexts_unlessForeign (findings : List Diagnostic) (text : Text) :
    NeedsTexts findings (unlessForeign findings text) := by
  refine ⟨unlessForeign_eq_ok_iff, ?_⟩
  intro path
  have hfirst : unlessForeign findings text = .error ⟨path⟩ ↔
      ∃ found, firstForeign? findings = some found ∧ found.path = path := by
    cases hforeign : firstForeign? findings <;> simp [unlessForeign, hforeign]
  rw [hfirst]
  constructor
  · rintro ⟨found, hfound, rfl⟩
    obtain ⟨hpath, before, after, rfl, hbefore⟩ := List.find?_eq_some_iff_append.mp hfound
    exact ⟨before, found, after, rfl, by simpa using hbefore, rfl, by simpa using hpath⟩
  · rintro ⟨before, found, after, rfl, hbefore, rfl, hpath⟩
    refine ⟨found, List.find?_eq_some_iff_append.mpr ⟨by simpa using hpath, before, after, rfl, ?_⟩,
      rfl⟩
    simpa using hbefore

/-- The commands write their reports, whatever the paths of findings are, unless these are to be
read by programs and a path is no text. -/
structure CommandsNeedTexts (summary : Summary) (outcomes : List Outcome) : Prop where
  /-- The report of the audit. -/
  audit : ∀ world line format config allowed,
    (∃ text, AuditRun.report world line format config allowed summary = .ok text) ↔
      (format = .json → ∀ found ∈ auditDiagnostics summary, found.path.IsText)
  /-- The report of the YAML check. -/
  yaml : ∀ world line format,
    (∃ text, YamlRun.report world line format outcomes = .ok text) ↔
      (format = .json → ∀ outcome ∈ outcomes, ∀ found ∈ outcome.findings, found.path.IsText)

theorem orUnwritable_eq_ok_iff {report : Except UnwritablePath Text} :
    (∃ text, World.orUnwritable report = .ok text) ↔ ∃ text, report = .ok text := by
  cases report <;> simp [World.orUnwritable]

/-- Only data is ever refused, and only for a path that is no text. -/
theorem commandsNeedTexts (summary : Summary) (outcomes : List Outcome) :
    CommandsNeedTexts summary outcomes := by
  constructor
  case audit =>
    intro world line format config allowed
    cases format with
    | text => simp [AuditRun.report]
    | json =>
        rw [AuditRun.report, orUnwritable_eq_ok_iff, audit_eq, unlessForeign_eq_ok_iff]
        simp
  case yaml =>
    intro world line format
    cases format with
    | text => simp [YamlRun.report]
    | json =>
        rw [YamlRun.report, orUnwritable_eq_ok_iff, yaml_eq, unlessForeign_eq_ok_iff]
        simp only [List.forall_mem_flatMap]
        simp

/-- A report for programs is written exactly if the paths of all findings in it are texts. -/
theorem reports_written_iff (summary : Summary) (theme : Option Theme) (outcomes : List Outcome) :
    NeedsTexts (auditDiagnostics summary) (audit summary theme) ∧
      NeedsTexts (outcomes.flatMap Outcome.findings) (yaml outcomes) ∧
      CommandsNeedTexts summary outcomes := by
  refine ⟨?_, ?_, commandsNeedTexts summary outcomes⟩
  · rw [audit_eq]
    exact needsTexts_unlessForeign ..
  · rw [yaml_eq]
    exact needsTexts_unlessForeign ..

/-- What comes of a check of one file, the path of which is no text. -/
def foreignOutcomes : List Outcome :=
  Outcome.auditPaths (YamlAuditor.toFileAuditor Yaml.countDocuments)
    (fun _ => .ok (Text.Utf8.encode "a: yes")) [⟨[0xff]⟩]

/-- What is found in that file. -/
def foreignFinding : Diagnostic :=
  .onLine ⟨[0xff]⟩ 1 .legacyPattern "yes" "a: yes" (Rule.bareBoolean.render "yes")

/-- Neither report can be written of every run. -/
theorem not_forall_written :
    (¬∀ (summary : Summary) (theme : Option Theme), ∃ text, audit summary theme = .ok text) ∧
      ¬∀ outcomes : List Outcome, ∃ text, yaml outcomes = .ok text := by
  have hforeign : ¬foreignFinding.path.IsText := by decide +kernel
  constructor
  · intro h
    have hwritten := h (.ofOutcomes foreignOutcomes) none
    rw [audit_eq, unlessForeign_eq_ok_iff] at hwritten
    refine hforeign (hwritten _ ?_)
    rw [auditDiagnostics, List.mem_flatMap]
    refine ⟨.legacyPattern, by decide, List.mem_mergeSort.mpr ?_⟩
    decide +kernel
  · intro h
    have hwritten := h foreignOutcomes
    rw [yaml_eq, unlessForeign_eq_ok_iff] at hwritten
    refine hforeign (hwritten _ ?_)
    decide +kernel

end DataReport

end LiteralAudit
