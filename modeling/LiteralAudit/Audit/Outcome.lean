import LiteralAudit.Audit.File
import LiteralAudit.IoFault

/-!
# Outcomes

Auditing a path reads the file, decodes its bytes, and hands the text to an auditor.  Whatever
goes wrong concerns this path alone: a run over many paths has one outcome for each of them, in
their order.
-/

namespace LiteralAudit

/-- Why one file could not be audited. -/
inductive FileFailure where
  /-- There is no such file. -/
  | notFound (path : Path)
  /-- The file could not be read. -/
  | unreadable (path : Path) (fault : IoFault)
  /-- The auditor broke down. -/
  | internal (path : Path) (message : Text)
  deriving DecidableEq, Repr

namespace FileFailure

/-- The file that could not be audited. -/
def path : FileFailure → Path
  | .notFound path => path
  | .unreadable path _ => path
  | .internal path _ => path

/-- The words for a failure. -/
def message : FileFailure → Text
  | .notFound path => "File not found: " ++ path.display
  | .unreadable path fault => "failed to read '" ++ path.display ++ "': " ++ fault.message
  | .internal path message =>
      "internal error while auditing '" ++ path.display ++ "': " ++ message

end FileFailure

/-- Gives the bytes of a file. -/
abbrev FileReader := Path → Except IoFault (List UInt8)

/-- What came of one path. -/
structure Outcome where
  /-- The path. -/
  path : Path
  /-- Its audit, or why there is none. -/
  result : Except FileFailure FileAudit

namespace Outcome

/-- The words for a breakdown. -/
def breakdownMessage (breakdown : Breakdown) : Text := breakdown.words.getD "unknown panic"

/-- The audit of one path. -/
def auditPath (auditor : FileAuditor) (reader : FileReader) (path : Path) :
    Except FileFailure FileAudit :=
  match reader path with
  | .error fault =>
      if fault.isMissing then .error (.notFound path) else .error (.unreadable path fault)
  | .ok bytes =>
      match auditor path (Text.Utf8.decodeLossy bytes) with
      | .error breakdown => .error (.internal path (breakdownMessage breakdown))
      | .ok audit => .ok audit

/-- The outcomes of some paths, in their order. -/
def auditPaths (auditor : FileAuditor) (reader : FileReader) (paths : List Path) :
    List Outcome :=
  paths.map fun path => ⟨path, auditPath auditor reader path⟩

/-- Whether the outcome makes a run fail: the file could not be audited or could not be parsed.
Other findings do not. -/
def isBlocking (outcome : Outcome) : Bool :=
  match outcome.result with
  | .ok audit => audit.hasParseError
  | .error _ => true

/-- The findings of a category.  A path without an audit has none. -/
def get (outcome : Outcome) (category : Category) : List Diagnostic :=
  match outcome.result with
  | .ok audit => audit.get category
  | .error _ => []

end Outcome

end LiteralAudit
