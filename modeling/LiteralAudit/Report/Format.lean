import LiteralAudit.Text.Lower

/-!
# Formats of reports

A report is written for readers as text or for programs as JSON.
-/

namespace LiteralAudit

/-- How a report is written. -/
inductive ReportFormat where
  /-- As text. -/
  | text
  /-- As JSON. -/
  | json
  deriving DecidableEq, Repr

namespace ReportFormat

/-- The name of a format. -/
def name : ReportFormat → Text
  | .text => "text"
  | .json => "json"

/-- The format of a name, in any letter case. -/
def ofName? (text : Text) : Option ReportFormat :=
  let lowered := Text.lower text
  if lowered = ReportFormat.text.name then some .text
  else if lowered = ReportFormat.json.name then some .json
  else none

/-- What is said about a name that no format has. -/
def unknownMessage (text : Text) : Text := "Unknown output format: " ++ text

end ReportFormat

end LiteralAudit
