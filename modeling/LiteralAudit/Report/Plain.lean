import LiteralAudit.AllowedValues
import LiteralAudit.Audit.Summary
import LiteralAudit.Report.Ink

/-!
# Reports for people

The report on an audit lists the findings by category, the first ones of each, with a hint on
what to use in their place.  The report on YAML files goes through the files in the order in
which they were given and ends with a summary.
-/

namespace LiteralAudit

/-- How reports for people are written. -/
structure PlainStyle where
  /-- Whether colors are on. -/
  colored : Bool
  /-- How many findings of a category are listed. -/
  maxListed : Nat
  /-- The distances that hints name. -/
  spacing : List Nat
  /-- The border radii that hints name. -/
  radii : List Nat
  deriving DecidableEq, Repr

namespace PlainStyle

/-- How many findings of a category are listed unless something else is said. -/
def defaultMaxListed : Nat := 10

/-- The style with the built-in values in its hints. -/
def default (colored : Bool) : PlainStyle :=
  ⟨colored, defaultMaxListed, AllowedValues.builtIn.spacing, AllowedValues.builtIn.radii⟩

/-- The style with some allowed values in its hints. -/
def withAllowed (style : PlainStyle) (allowed : AllowedValues) : PlainStyle :=
  { style with spacing := allowed.spacing, radii := allowed.radii }

/-- A text in an ink. -/
def paint (style : PlainStyle) (ink : Ink) (text : Text) : Text := ink.paint style.colored text

end PlainStyle

namespace PlainReport

/-- A line. -/
def line (text : Text) : Text := text ++ "\n"

/-- A line and an empty one behind it. -/
def paragraph (text : Text) : Text := text ++ "\n\n"

/-! ## Audits -/

/-- Numbers of pixels, the unit once at the end. -/
def pixelList (values : List Nat) : Text := Text.join ", " (values.map Text.ofNat) ++ "px"

/-- What to use in place of the literals of a category. -/
def hint? (style : PlainStyle) : Category → Option Text
  | .hardcodedColor => some "Use design token instead"
  | .nonStandardSpacing => some ("Use spacing token (" ++ pixelList style.spacing ++ ")")
  | .nonStandardRadius => some ("Use border radius token (" ++ pixelList style.radii ++ ")")
  | .parseError | .legacyPattern => none

/-- What the literals of a category are called. -/
def literalLabel : Category → Text
  | .hardcodedColor => "Color"
  | _ => "Value"

/-- One finding. -/
def entry (style : PlainStyle) (category : Category) (found : Diagnostic) : Text :=
  line ("**" ++ found.path.display ++ ":" ++ Text.ofNat found.line ++ "**") ++
    line ("- " ++ literalLabel category ++ ": `" ++ found.literal ++ "`") ++
    line ("- Line: `" ++ found.sourceLine ++ "`") ++
    match hint? style category with
    | some hint => paragraph ("- Fix: " ++ hint)
    | none => paragraph ("- Note: " ++ found.message)

/-- The heading of a category with a number of findings. -/
def heading (category : Category) (count : Nat) : Text :=
  paragraph ("### " ++ category.title ++ " (" ++ Text.ofNat count ++ " issues)")

/-- The line that counts the findings that are not listed, if there are any. -/
def elision (category : Category) (hidden : Nat) : Text :=
  if hidden = 0 then []
  else paragraph ("...and " ++ Text.ofNat hidden ++ " more " ++ category.noun ++ " issues")

/-- The findings of a category. -/
def categorySection (style : PlainStyle) (category : Category) (found : List Diagnostic) : Text :=
  if found.isEmpty then []
  else
    heading category found.length ++
      (found.take style.maxListed).flatMap (entry style category) ++
      elision category (found.length - style.maxListed)

/-- The files that could not be audited. -/
def failureSection (style : PlainStyle) (failures : List FileFailure) : Text :=
  if failures.isEmpty then []
  else
    paragraph "## Files Not Audited" ++
      failures.flatMap (fun failure => line ("- " ++ style.paint .red failure.message)) ++ "\n"

/-- The counts at the top of an audit report. -/
def auditHead (summary : Summary) (theme : Option Theme) : Text :=
  line "# Design Token Compliance Report" ++
    paragraph ("Mode: " ++ (theme.map Theme.name).getD "all") ++
    line "## Summary" ++
    line ("- Total files scanned: " ++ Text.ofNat summary.scanned) ++
    line ("- Files with issues: " ++ Text.ofNat summary.filesWithIssues) ++
    paragraph ("- Files not audited: " ++ Text.ofNat summary.failures.size) ++
    paragraph "## Issues Found"

/-- The findings of an audit, or the line that says there are none. -/
def auditBody (style : PlainStyle) (summary : Summary) : Text :=
  if summary.totalIssues = 0 then
    paragraph (style.paint .green "✓ No design token compliance issues found!")
  else
    Category.all.flatMap fun category =>
      categorySection style category (summary.diagnostics category)

/-- The report on an audit. -/
def audit (style : PlainStyle) (summary : Summary) (theme : Option Theme) : Text :=
  line <| Text.trimEnd <|
    auditHead summary theme ++ auditBody style summary ++
      failureSection style summary.failures.values

/-! ## YAML files -/

/-- The rule above and below the name of a file. -/
def rule : Text := List.replicate 60 '='

/-- Where a document could not be parsed, if that is known. -/
def location (found : Diagnostic) : Text :=
  if found.line = 0 then []
  else
    " (line " ++ Text.ofNat found.line ++ ", col " ++
      (found.column.map Text.ofNat).getD "?" ++ ")"

/-- What is said about a file that cannot be parsed. -/
def unparsed (style : PlainStyle) (audit : FileAudit) : Text :=
  paragraph (style.paint .red "✗ YAML parse failed") ++
    (audit.get .parseError).flatMap
      (fun found => line ("  ✗" ++ location found ++ ": " ++ found.message)) ++
    "\n" ++ paragraph "Fix YAML syntax errors before checking for legacy patterns."

/-- What is said about the values whose meaning changed. -/
def warnings (style : PlainStyle) (found : List Diagnostic) : Text :=
  if found.isEmpty then
    paragraph (style.paint .green "✓ No YAML 1.1 legacy patterns detected")
  else
    line (style.paint .yellow
        ("⚠ YAML 1.1 Legacy Patterns (" ++ Text.ofNat found.length ++ " found):")) ++
      found.flatMap
        (fun warning => line ("  • Line " ++ Text.ofNat warning.line ++ ": " ++ warning.message)) ++
      "\n"

/-- What is said about a file that can be parsed. -/
def parsed (style : PlainStyle) (audit : FileAudit) : Text :=
  let documents := audit.documents.getD 0
  let plural : Text := if documents = 1 then [] else "s"
  paragraph (style.paint .green
      ("✓ YAML syntax valid (" ++ Text.ofNat documents ++ " document" ++ plural ++ " found)")) ++
    warnings style (audit.get .legacyPattern)

/-- The section of one file. -/
def yamlFile (style : PlainStyle) (outcome : Outcome) : Text :=
  line rule ++ line ("YAML 1.2 Check: " ++ outcome.path.display) ++ line rule ++
    match outcome.result with
    | .error failure =>
        paragraph (style.paint .red "✗ Could not check file" ++ ": " ++ failure.message)
    | .ok audit => if audit.hasParseError then unparsed style audit else parsed style audit

/-- The number of files that make the run fail. -/
def failedCount (outcomes : List Outcome) : Nat := (outcomes.filter Outcome.isBlocking).length

/-- The number of values whose meaning changed. -/
def warningCount (outcomes : List Outcome) : Nat :=
  (outcomes.map fun outcome => (outcome.get .legacyPattern).length).foldr (· + ·) 0

/-- The report on YAML files. -/
def yaml (style : PlainStyle) (outcomes : List Outcome) : Text :=
  let failed := failedCount outcomes
  outcomes.flatMap (yamlFile style) ++
    line ("Summary: " ++ Text.ofNat outcomes.length ++ " files checked, " ++
      Text.ofNat (outcomes.length - failed) ++ " valid, " ++
      style.paint .red (Text.ofNat failed) ++ " failed, " ++
      style.paint .yellow (Text.ofNat (warningCount outcomes)) ++ " legacy pattern warnings")

end PlainReport

end LiteralAudit
