import LiteralAudit.Audit.File
import LiteralAudit.Detector
import LiteralAudit.Text.Line

/-!
# Auditing by lines

Both auditors go through the lines of a text.  Lines are counted from one, skipped lines
included, and the detector looks at each line that is not skipped on its own.

The auditor of scripts and style sheets does nothing else.
-/

namespace LiteralAudit

/-- The findings on some lines, the first of which has the given number. -/
def detectLines (classifier : LineClassifier) (detector : Detector) (path : Path) :
    (number : Nat) → List Text → List Diagnostic
  | _, [] => []
  | number, line :: lines =>
      (if classifier.skips line then [] else detector.detect path line number) ++
        detectLines classifier detector path (number + 1) lines

/-- The audit of the lines of a text. -/
def auditLines (classifier : LineClassifier) (detector : Detector) (path : Path) (text : Text) :
    FileAudit :=
  FileAudit.empty.pushAll (detectLines classifier detector path 1 (Text.splitLines text))

/-- An auditor of lines. -/
structure StyleAuditor where
  /-- The lines that are skipped. -/
  classifier : LineClassifier
  /-- What is looked for on the others. -/
  detector : Detector

namespace StyleAuditor

/-- The auditor of scripts and style sheets. -/
def ofAllowed (allowed : AllowedValues) : StyleAuditor := ⟨.source, .designTokens allowed⟩

/-- The audit of a text. -/
def audit (auditor : StyleAuditor) (path : Path) (text : Text) : FileAudit :=
  auditLines auditor.classifier auditor.detector path text

/-- The auditor as one that never breaks down. -/
def toFileAuditor (auditor : StyleAuditor) : FileAuditor := fun path text =>
  .ok (auditor.audit path text)

end StyleAuditor

end LiteralAudit
