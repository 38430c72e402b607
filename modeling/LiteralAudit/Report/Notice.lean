import LiteralAudit.Report.Ink

/-!
# Notices

Short messages beside a report: errors, warnings and notes.  An error or a warning may carry a
detail and a suggestion.
-/

namespace LiteralAudit

/-- How grave a notice is. -/
inductive Severity where
  /-- Something failed. -/
  | error
  /-- Something is not as it should be. -/
  | warning
  /-- Something is worth knowing. -/
  | note
  deriving DecidableEq, Repr

namespace Severity

/-- The mark in front of a notice. -/
def mark : Severity → Text
  | .error => "✖"
  | .warning => "⚠"
  | .note => "ℹ"

/-- The ink of the head of a notice. -/
def ink : Severity → Ink
  | .error => .red
  | .warning => .yellow
  | .note => .blue

end Severity

/-- A short message. -/
structure Notice where
  /-- How grave it is. -/
  severity : Severity
  /-- The word it begins with. -/
  label : Text
  /-- What it says. -/
  message : Text
  /-- More about it. -/
  detail : Option Text
  /-- What may be done. -/
  suggestion : Option Text
  deriving DecidableEq, Repr

namespace Notice

/-- An error of some kind. -/
def error (kind message : Text) (detail suggestion : Option Text) : Notice :=
  ⟨.error, kind, message, detail, suggestion⟩

/-- A warning. -/
def warning (message : Text) (detail suggestion : Option Text) : Notice :=
  ⟨.warning, "Warning", message, detail, suggestion⟩

/-- A note. -/
def note (message : Text) : Notice := ⟨.note, "Note", message, none, none⟩

/-- The head of a notice. -/
def head (notice : Notice) : Text := notice.severity.mark ++ " " ++ notice.label ++ ":"

/-- The lines of a notice. -/
def render (colored : Bool) (notice : Notice) : Text :=
  let head :=
    if colored then Ink.bold.start ++ notice.severity.ink.start ++ notice.head ++ Ink.stop
    else notice.head
  let detail := match notice.detail with
    | some detail => "  " ++ Ink.dim.paint colored ("× " ++ detail) ++ "\n"
    | none => []
  let suggestion := match notice.suggestion with
    | some suggestion => "  " ++ Ink.cyan.paint colored "help:" ++ " " ++ suggestion ++ "\n"
    | none => []
  head ++ " " ++ notice.message ++ "\n" ++ detail ++ suggestion

end Notice

end LiteralAudit
