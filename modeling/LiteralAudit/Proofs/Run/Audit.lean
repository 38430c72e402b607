import LiteralAudit.Proofs.Audit.Totals
import LiteralAudit.Proofs.Run.Exit

/-!
# The design token audit

An audit that comes to its end ends with zero exactly if nothing was found in the files it looked
at and each of them could be audited, and with one otherwise (`exitTells_audit`).  Together with
what the summary of an audit counts, this is `counts_agree`.
-/

namespace LiteralAudit.AuditRun

/-! ## What an audit looks at -/

/-- An audit has some configuration in effect and looks at some files. -/
def Scans (world : World) (line : CommandLine) (request : AuditRequest) (config : Config)
    (scanned : List Path) : Prop :=
  ∃ loaded, world.loadConfig line request.config = .ok loaded ∧
    config = request.override loaded.config ∧
    ∃ scanner, world.scanner config.scanner config.audit.extensions = .ok scanner ∧
      paths world scanner request.path = .ok scanned

/-- What comes of one file of an audit. -/
def auditFile (world : World) (line : CommandLine) (config : Config) (path : Path) :
    Except FileFailure FileAudit :=
  Outcome.auditPath (StyleAuditor.ofAllowed (allowedValues world line config.audit).1).toFileAuditor
    world.files.read path

/-- A run that comes to its end has scanned something, and its exit code tells whether the summary
of that is clean. -/
theorem snd_run_eq_ok {world : World} {line : CommandLine} {request : AuditRequest}
    {finished : Finished} (hrun : (run world line request).2 = .ok finished) :
    ∃ config scanned, Scans world line request config scanned ∧
      finished.exitCode = exitCodeFor
        (summary world.files (allowedValues world line config.audit).1 scanned).isClean := by
  obtain ⟨loaded, hloaded, hrun⟩ := Steps.snd_onSuccess_eq_ok.mp hrun
  rw [Steps.snd_after, runWith] at hrun
  obtain ⟨-, -, hrun⟩ := Steps.snd_onSuccess_eq_ok.mp hrun
  rw [Steps.snd_after] at hrun
  obtain ⟨scanner, hscanner, hrun⟩ := Steps.snd_onSuccess_eq_ok.mp hrun
  rw [Steps.snd_after] at hrun
  obtain ⟨scanned, hscanned, hrun⟩ := Steps.snd_onSuccess_eq_ok.mp hrun
  rw [Steps.snd_after] at hrun
  obtain ⟨text, -, hrun⟩ := Steps.snd_onSuccess_eq_ok.mp hrun
  cases hrun
  exact ⟨_, scanned, ⟨loaded, hloaded, rfl, scanner, hscanner, hscanned⟩, rfl⟩

/-! ## Exit codes -/

/-- A summary is clean exactly if every scanned file was audited and nothing was found in it. -/
theorem isClean_summary (world : World) (line : CommandLine) (config : Config)
    (scanned : List Path) :
    (summary world.files (allowedValues world line config.audit).1 scanned).isClean = true ↔
      ∀ path ∈ scanned, ∃ audit, auditFile world line config path = .ok audit ∧
        audit.toList = [] := by
  rw [summary, Summary.isClean_ofOutcomes, Outcome.auditPaths, List.forall_mem_map]
  exact forall₂_congr fun path _ => Outcome.isClean_iff _

/-- The exit code of an audit tells whether there is anything to complain about. -/
structure ExitTells (world : World) (line : CommandLine) (request : AuditRequest) : Prop where
  /-- A run that comes to its end ends with zero or one: zero exactly if each file that was looked
  at could be audited and nothing was found in it. -/
  completes : ∀ finished, line.Completes world finished →
    ∃ config scanned, Scans world line request config scanned ∧
      ((line.run world).exitCode = 0 ↔ ∀ path ∈ scanned, ∃ audit,
        auditFile world line config path = .ok audit ∧ audit.toList = []) ∧
      ((line.run world).exitCode = 0 ∨ (line.run world).exitCode = 1)
  /-- Any other run ends with two. -/
  fails : (∀ finished, ¬line.Completes world finished) → (line.run world).exitCode = failureCode

theorem exitTells_audit (world : World) (line : CommandLine) (request : AuditRequest) :
    ExitTells world { line with command := .audit request } request := by
  rcases CommandLine.exitCode_run { line with command := .audit request } world with
    ⟨finished, hcompletes, hcode⟩ | ⟨hnone, hcode⟩
  · refine ⟨?_, fun hnone => absurd hcompletes (hnone finished)⟩
    rintro - -
    obtain ⟨config, scanned, hscans, hexit⟩ := snd_run_eq_ok hcompletes.1
    refine ⟨config, scanned, hscans, ?_⟩
    rw [hcode, hexit, ← isClean_summary]
    cases (summary world.files (allowedValues world _ config.audit).1 scanned).isClean with
    | true => exact ⟨iff_of_true rfl rfl, Or.inl rfl⟩
    | false => exact ⟨iff_of_false Nat.one_ne_zero Bool.false_ne_true, Or.inr rfl⟩
  · exact ⟨fun finished hcompletes => absurd hcompletes (hnone finished), fun _ => hcode⟩

/-! ## Counts -/

/-- The counts of a summary agree with each other and with the outcomes it was made of, and the
exit code of an audit says whether there is anything to count. -/
theorem counts_agree {outcomes : List Outcome} (hdistinct : Summary.DistinctPaths outcomes)
    (hfilled : Summary.AuditsFilled outcomes) :
    Summary.Accounts (.ofOutcomes outcomes) outcomes ∧
      ∀ (world : World) (line : CommandLine) (request : AuditRequest),
        ExitTells world { line with command := .audit request } request :=
  ⟨Summary.accounts_ofOutcomes hdistinct hfilled, exitTells_audit⟩

theorem counts_agree_unordered :
    Summary.DistinctPaths Summary.unorderedOutcomes ∧
      Summary.AuditsFilled Summary.unorderedOutcomes ∧
      Summary.Accounts (.ofOutcomes Summary.unorderedOutcomes) Summary.unorderedOutcomes := by
  have hdistinct : Summary.DistinctPaths Summary.unorderedOutcomes := by
    unfold Summary.DistinctPaths
    decide +kernel
  have hfilled := Summary.auditsFilled_unordered
  exact ⟨hdistinct, hfilled, (counts_agree hdistinct hfilled).1⟩

end LiteralAudit.AuditRun
