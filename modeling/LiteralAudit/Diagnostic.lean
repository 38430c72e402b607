import LiteralAudit.Path
import LiteralAudit.Text.Blank

/-!
# Diagnostics

A diagnostic is one finding: where it is, what was found, and the line it was found on.  Every
diagnostic belongs to a category, and reports go through the categories in one fixed order.
-/

namespace LiteralAudit

/-- The kind of a finding.  The order of the constructors is the order of reports. -/
inductive Category where
  /-- The document could not be read. -/
  | parseError
  /-- A value that an older version of the format read differently. -/
  | legacyPattern
  /-- A color that is not sanctioned. -/
  | hardcodedColor
  /-- A spacing that is not sanctioned. -/
  | nonStandardSpacing
  /-- A border radius that is not sanctioned. -/
  | nonStandardRadius
  deriving DecidableEq, Repr

namespace Category

/-- The categories in the order of reports. -/
def all : List Category :=
  [.parseError, .legacyPattern, .hardcodedColor, .nonStandardSpacing, .nonStandardRadius]

/-- The name used in data. -/
def name : Category → Text
  | .parseError => "parse-error"
  | .legacyPattern => "legacy-pattern"
  | .hardcodedColor => "hardcoded-color"
  | .nonStandardSpacing => "non-standard-spacing"
  | .nonStandardRadius => "non-standard-radius"

/-- The heading of a section of the text report. -/
def title : Category → Text
  | .parseError => "Parse Errors"
  | .legacyPattern => "YAML 1.1 Legacy Patterns"
  | .hardcodedColor => "Hardcoded Colors"
  | .nonStandardSpacing => "Non-standard Spacing"
  | .nonStandardRadius => "Non-standard Border Radius"

/-- The noun of the line that counts what was left out. -/
def noun : Category → Text
  | .parseError => "parse"
  | .legacyPattern => "legacy pattern"
  | .hardcodedColor => "color"
  | .nonStandardSpacing => "spacing"
  | .nonStandardRadius => "radius"

end Category

/-- One finding. -/
structure Diagnostic where
  /-- The file it is in. -/
  path : Path
  /-- The line it is on, counted from one.  Zero if the line is not known. -/
  line : Nat
  /-- The column it begins at, if known. -/
  column : Option Nat
  /-- Its kind. -/
  category : Category
  /-- The text that was found. -/
  literal : Text
  /-- The line, without white space at its ends. -/
  sourceLine : Text
  /-- What is said about it. -/
  message : Text
  deriving DecidableEq, Repr

namespace Diagnostic

/-- A finding on a line.  Its column is not known. -/
def onLine (path : Path) (line : Nat) (category : Category) (literal sourceLine message : Text) :
    Diagnostic where
  path := path
  line := line
  column := none
  category := category
  literal := literal
  sourceLine := Text.trim sourceLine
  message := message

/-- The order of columns: an unknown column comes first. -/
def compareColumns : Option Nat → Option Nat → Ordering
  | none, none => .eq
  | none, some _ => .lt
  | some _, none => .gt
  | some a, some b => Ord.compare a b

/-- The order of findings in a report: by path, then line, then column. -/
def compare (a b : Diagnostic) : Ordering :=
  ((a.path.compare b.path).then (Ord.compare a.line b.line)).then
    (compareColumns a.column b.column)

end Diagnostic

end LiteralAudit
