import LiteralAudit.Audit.Lines
import Mathlib.Data.List.Basic

/-!
# Audits at another path

The path of a file goes into its findings and matters to nothing else, so the audit of a text at one
path is that at any other path with the findings moved (`StyleAuditor.audit_eq_movedTo`).
-/

namespace LiteralAudit

/-- The finding at another path. -/
def Diagnostic.movedTo (path : Path) (found : Diagnostic) : Diagnostic :=
  { found with path := path }

/-- The audit with its findings at another path. -/
def FileAudit.movedTo (path : Path) (audit : FileAudit) : FileAudit :=
  { audit with
    groups := audit.groups.map fun group => (group.1, group.2.map (Diagnostic.movedTo path)) }

/-! ## Findings -/

namespace Detector

/-- If findings with one path and number are those with others, renamed, then so is all that is
found on a line. -/
theorem detect_eq_map {path other : Path} {number later : Nat} {rename : Diagnostic → Diagnostic}
    (hrename : ∀ category literal line message,
      Diagnostic.onLine path number category literal line message =
        rename (.onLine other later category literal line message))
    (detector : Detector) (line : Text) :
    detector.detect path line number = (detector.detect other line later).map rename := by
  have hreport : ∀ rule found, detector.report? rule path line number found =
      (detector.report? rule other line later found).map rename := by
    intro rule found
    rw [report?, report?]
    cases found.group? rule.group with
    | none => rfl
    | some span =>
        simp only [Option.bind_eq_bind, Option.bind_some, hrename]
        split
        next => rfl
        next => split <;> rfl
  rw [detect, detect, List.map_flatMap]
  refine congrArg (List.flatMap · _) (funext fun rule => ?_)
  rw [detectRule, detectRule]
  split
  next =>
    rw [List.map_filterMap]
    exact congrArg (List.filterMap · _) (funext (hreport rule))
  next => rfl

theorem detect_eq_movedTo (detector : Detector) (path other : Path) (line : Text) (number : Nat) :
    detector.detect path line number =
      (detector.detect other line number).map (Diagnostic.movedTo path) :=
  detector.detect_eq_map (fun _ _ _ _ => rfl) line

end Detector

/-- A path is only copied into the findings on the lines of a text. -/
theorem detectLines_eq_movedTo (classifier : LineClassifier) (detector : Detector)
    (path other : Path) (number : Nat) (lines : List Text) :
    detectLines classifier detector path number lines =
      (detectLines classifier detector other number lines).map (Diagnostic.movedTo path) := by
  induction lines generalizing number with
  | nil => rfl
  | cons line lines ih =>
      rw [detectLines, detectLines, List.map_append, ← ih]
      split
      next => rfl
      next => rw [detector.detect_eq_movedTo path other]

/-! ## Audits -/

namespace FileAudit

theorem modifyGroup_movedTo (path : Path) (found : Diagnostic)
    (groups : List (Category × List Diagnostic)) :
    modifyGroup found.category (· ++ [found.movedTo path])
        (groups.map fun group => (group.1, group.2.map (Diagnostic.movedTo path))) =
      (modifyGroup found.category (· ++ [found]) groups).map
        fun group => (group.1, group.2.map (Diagnostic.movedTo path)) := by
  induction groups with
  | nil => rfl
  | cons group groups ih =>
      obtain ⟨category, others⟩ := group
      simp only [List.map_cons, modifyGroup]
      split
      next => rfl
      next =>
        split
        next => simp
        next => rw [ih, List.map_cons]

theorem pushAll_movedTo (path : Path) (audit : FileAudit) (found : List Diagnostic) :
    (audit.movedTo path).pushAll (found.map (Diagnostic.movedTo path)) =
      (audit.pushAll found).movedTo path := by
  induction found generalizing audit with
  | nil => rfl
  | cons first found ih =>
      have hpush :
          (audit.movedTo path).push (first.movedTo path) = (audit.push first).movedTo path :=
        congrArg (fun groups => FileAudit.mk groups audit.documents)
          (modifyGroup_movedTo path first audit.groups)
      rw [List.map_cons, pushAll, List.foldl_cons, hpush]
      exact ih (audit.push first)

end FileAudit

/-- The audit of a text at one path is that at another path, with the findings moved. -/
theorem StyleAuditor.audit_eq_movedTo (auditor : StyleAuditor) (path other : Path) (text : Text) :
    auditor.audit path text = (auditor.audit other text).movedTo path := by
  rw [audit, audit, auditLines, auditLines, detectLines_eq_movedTo _ _ path other]
  exact FileAudit.pushAll_movedTo path .empty _

end LiteralAudit
