import LiteralAudit.AllowedValues
import LiteralAudit.Rule

/-!
# Detection

A detector runs a table of rules over single lines.  For each rule that runs on a line it goes
through the matches from left to right and reports those that nothing speaks against.
-/

namespace LiteralAudit

/-- A table of rules, the values that are allowed, and the tests for strings and keys. -/
structure Detector where
  /-- The rules, in the order in which their findings are reported. -/
  rules : List Rule
  /-- The values that may be written out. -/
  allowed : AllowedValues
  /-- The test for matches inside strings. -/
  quoted : Suppressor
  /-- The test for keys. -/
  key : Suppressor

namespace Detector

/-- The detector of a table of rules.  Nothing is allowed. -/
def ofRules (rules : List Rule) : Detector where
  rules := rules
  allowed := .empty
  quoted := insideQuotes
  key := beforeColon

/-- The detector of values whose meaning changed from YAML 1.1 to YAML 1.2. -/
def legacyYaml : Detector := ofRules Rule.legacyYaml

/-- The detector of values that should be design tokens. -/
def designTokens (allowed : AllowedValues) : Detector :=
  { ofRules Rule.designTokens with allowed := allowed }

/-- The literal of a match with the given text.  A number of pixels loses its leading zeros if
it fits 64 bits. -/
def literalOf (form : LiteralForm) (text : Text) : Text :=
  match form with
  | .verbatim => text
  | .pixels =>
      if !text.isEmpty && text.all Text.isDigit && Text.value text < Nat.pow 2 64 then
        Text.ofNat (Text.value text) ++ "px"
      else text ++ "px"

/-- Whether the place of a match speaks against it. -/
def isSuppressed (detector : Detector) (rule : Rule) (line : Text) (span : Span) : Bool :=
  (rule.bare && touchesQuote line span) ||
    (rule.skipIfQuoted && detector.quoted line span) ||
    (rule.skipIfKey && detector.key line span)

/-- The finding for a match, if there is one. -/
def report? (detector : Detector) (rule : Rule) (path : Path) (line : Text) (number : Nat)
    (found : Match) : Option Diagnostic := do
  let span ← found.group? rule.group
  if detector.isSuppressed rule line span then none
  else
    let literal := literalOf rule.literal ((Text.slice? line span).getD [])
    if rule.checkAllowed && detector.allowed.allows rule.category literal then none
    else some (.onLine path number rule.category literal line (rule.render literal))

/-- Whether a rule runs on a line. -/
def runsOn (rule : Rule) (line : Text) : Bool :=
  match rule.gate with
  | none => true
  | some gate => gate.admits line

/-- The findings of one rule on a line, from left to right. -/
def detectRule (detector : Detector) (rule : Rule) (path : Path) (line : Text) (number : Nat) :
    List Diagnostic :=
  if runsOn rule line then
    (rule.search line).filterMap (detector.report? rule path line number)
  else []

/-- The findings on a line, rule by rule. -/
def detect (detector : Detector) (path : Path) (line : Text) (number : Nat) : List Diagnostic :=
  detector.rules.flatMap fun rule => detector.detectRule rule path line number

end Detector

end LiteralAudit
