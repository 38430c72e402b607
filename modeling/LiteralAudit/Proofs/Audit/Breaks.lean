import LiteralAudit.Proofs.Audit.Lines
import LiteralAudit.Proofs.Audit.Moved
import LiteralAudit.Proofs.Text.Break

/-!
# Audits and breaks

An audit by lines is told by the lines of the text, whatever breaks are between them
(`splitLines_determined`).  Each line is looked at on its own, so a text behind a line feed has the
findings that it has alone, further down (`StyleAuditor.audit_append`).
-/

namespace LiteralAudit

/-- The lines of a text are those between its breaks, and it makes no difference which breaks there
are. -/
theorem Text.splitLines_determined (text : Text) :
    (∀ lines, splitLines text = lines ↔ Lines text lines) ∧
      (∀ line ∈ splitLines text, IsUnbroken line) ∧
      (splitLines text).length = breakCount text + (endsInLine text).toNat ∧
      splitLines (feedBreaks text) = splitLines text ∧
      ∀ (auditor : StyleAuditor) (path : Path),
        auditor.audit path (feedBreaks text) = auditor.audit path text := by
  have hfeeds := splitLines_feedBreaks text
  refine ⟨fun lines => splitLines_eq_iff, (lines_splitLines text).isUnbroken,
    length_splitLines text, hfeeds, fun auditor path => ?_⟩
  rw [StyleAuditor.audit, StyleAuditor.audit, auditLines, auditLines, hfeeds]

/-! ## Text behind a line feed -/

/-- The finding some lines further down. -/
def Diagnostic.below (count : Nat) (found : Diagnostic) : Diagnostic :=
  { found with line := count + found.line }

/-- What is found in lines further down is the same, only with greater numbers. -/
theorem detectLines_below (classifier : LineClassifier) (detector : Detector) (path : Path)
    (count number : Nat) (lines : List Text) :
    detectLines classifier detector path (count + number) lines =
      (detectLines classifier detector path number lines).map (Diagnostic.below count) := by
  induction lines generalizing number with
  | nil => rfl
  | cons line lines ih =>
      have hline : detector.detect path line (count + number) =
          (detector.detect path line number).map (Diagnostic.below count) :=
        detector.detect_eq_map (fun _ _ _ _ => rfl) line
      rw [detectLines, detectLines, List.map_append, ← ih, Nat.add_assoc]
      split
      next => rfl
      next => rw [hline]

/-- The findings in a text that goes on behind a line feed are those before it, and those behind it
further down. -/
theorem StyleAuditor.audit_append (auditor : StyleAuditor) (path : Path) (front back : Text)
    (category : Category) :
    (auditor.audit path (front ++ ['\n'] ++ back)).get category =
      (auditor.audit path (front ++ ['\n'])).get category ++
        ((auditor.audit path back).get category).map
          (Diagnostic.below (Text.splitLines (front ++ ['\n'])).length) := by
  have hlines : Text.splitLines (front ++ ['\n'] ++ back) =
      Text.splitLines (front ++ ['\n']) ++ Text.splitLines back := by
    rw [List.append_assoc, List.singleton_append, Text.splitLines_append]
  rw [get_audit, get_audit, get_audit, hlines, detectLines_append, List.filter_append, Nat.add_comm,
    detectLines_below, List.filter_map]
  rfl

end LiteralAudit
