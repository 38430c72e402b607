import LiteralAudit.Audit.Lines
import LiteralAudit.Yaml.Reader

/-!
# Auditing YAML

A YAML file is parsed first.  If that fails, the failure is the only finding.  Otherwise the
lines are searched for values whose meaning changed from YAML 1.1 to YAML 1.2, and the number of
documents is kept.

The parser is a parameter: it gives the number of documents or a failure.
-/

namespace LiteralAudit

/-- Counts the documents of a text. -/
abbrev YamlParser := Text → Except ParseFailure Nat

namespace YamlAuditor

/-- The line with a number, counted from one, and otherwise the empty line. -/
def lineNumbered (text : Text) : Nat → Text
  | 0 => []
  | n + 1 => ((Text.splitLines text)[n]?).getD []

/-- The audit of a text that cannot be parsed.  An unknown line is line zero. -/
def auditFailure (path : Path) (text : Text) (failure : ParseFailure) : FileAudit :=
  let line := failure.line.getD 0
  FileAudit.empty.push
    { Diagnostic.onLine path line .parseError [] (lineNumbered text line) failure.message with
      column := failure.column }

/-- The audit of a text. -/
def audit (parser : YamlParser) (path : Path) (text : Text) : FileAudit :=
  match parser text with
  | .error failure => auditFailure path text failure
  | .ok documents => { auditLines .yaml .legacyYaml path text with documents := some documents }

/-- The auditor as one that never breaks down. -/
def toFileAuditor (parser : YamlParser) : FileAuditor := fun path text =>
  .ok (audit parser path text)

end YamlAuditor

end LiteralAudit
