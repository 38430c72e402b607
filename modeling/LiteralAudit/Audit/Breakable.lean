import LiteralAudit.Audit.Lines

/-!
# Audits that may break down

Whether a match touches a quote is found by cutting the line at both ends of the match, and its
literal by cutting it out.  An offset inside a character or past the end cuts nothing, and an audit
that cuts there breaks down.  `Detector.detect` has an answer for this case too.

The tests for the place of a match are arguments here, since each may break down on its own.  Those
of a detector cut for touching quotes and otherwise have an answer for every offset
(`PlaceTests.ofDetector`).  The strict ones always cut (`PlaceTests.strict`).
-/

namespace LiteralAudit

/-! ## Cuts -/

/-- What is said when a text cannot be cut at an offset.  The words are left open. -/
abbrev CutFault := Text → Nat → Breakdown

namespace Text

/-- The two parts of a text before and after an offset. -/
def tryCut (fault : CutFault) (text : Text) (offset : Nat) : Except Breakdown (Text × Text) :=
  match splitAt? text offset with
  | some parts => .ok parts
  | none => .error (fault text offset)

/-- The characters of a stretch. -/
def trySlice (fault : CutFault) (text : Text) (span : Span) : Except Breakdown Text := do
  let (upTo, _) ← text.tryCut fault span.stop
  let (_, piece) ← upTo.tryCut fault span.start
  return piece

end Text

/-! ## Tests for the place of a match -/

/-- Says of a stretch of a line whether a match there is dropped, if it does not break down. -/
abbrev PlaceTest := Text → Span → Except Breakdown Bool

namespace PlaceTest

/-- The test if it is switched on.  Otherwise it is not asked. -/
def ifOn (test : PlaceTest) (isOn : Bool) : PlaceTest := fun line span =>
  if isOn then test line span else .ok false

/-- Whether a match touches a quote.  Both cuts are made. -/
def touchesQuote (fault : CutFault) : PlaceTest := fun line span => do
  let (before, _) ← line.tryCut fault span.start
  let (_, after) ← line.tryCut fault span.stop
  return before.getLast?.any isQuote || after.head?.any isQuote

/-- Whether a match is inside a string. -/
def insideQuotes (fault : CutFault) : PlaceTest := fun line span => do
  let (before, _) ← line.tryCut fault span.start
  return QuoteCount.isOpen ⟨before.count '\'', before.count '"'⟩

/-- Whether a match is a key. -/
def beforeColon (fault : CutFault) : PlaceTest := fun line span => do
  let (_, after) ← line.tryCut fault span.stop
  return Text.startsWith [':'] (Text.trimStart after)

end PlaceTest

/-- The tests for the place of a match. -/
structure PlaceTests where
  /-- The test for touching quotes. -/
  touching : PlaceTest
  /-- The test for matches inside strings. -/
  quoted : PlaceTest
  /-- The test for keys. -/
  key : PlaceTest

namespace PlaceTests

/-- The tests of a detector. -/
def ofDetector (fault : CutFault) (detector : Detector) : PlaceTests where
  touching := .touchesQuote fault
  quoted line span := .ok (detector.quoted line span)
  key line span := .ok (detector.key line span)

/-- Tests that have no answer for an offset that cuts nothing. -/
def strict (fault : CutFault) : PlaceTests where
  touching := .touchesQuote fault
  quoted := .insideQuotes fault
  key := .beforeColon fault

/-- Whether the place of a match speaks against it.  The tests are asked one after the other, until
one says so. -/
def suppress (tests : PlaceTests) (rule : Rule) : PlaceTest := fun line span => do
  if ← tests.touching.ifOn rule.bare line span then return true
  if ← tests.quoted.ifOn rule.skipIfQuoted line span then return true
  tests.key.ifOn rule.skipIfKey line span

end PlaceTests

/-! ## Detection -/

/-- The stretches of a line that a rule looks at, from left to right. -/
def Rule.stretches (rule : Rule) (line : Text) : List Span :=
  if Detector.runsOn rule line then (rule.search line).filterMap (·.group? rule.group) else []

namespace Detector

variable (fault : CutFault) (tests : PlaceTests) (detector : Detector)

/-- The finding for a stretch, if there is one. -/
def tryReport (rule : Rule) (path : Path) (line : Text) (number : Nat) (span : Span) :
    Except Breakdown (Option Diagnostic) := do
  if ← tests.suppress rule line span then return none
  let text ← line.trySlice fault span
  let literal := literalOf rule.literal text
  if rule.checkAllowed && detector.allowed.allows rule.category literal then return none
  return some (.onLine path number rule.category literal line (rule.render literal))

/-- The findings of one rule on a line, from left to right. -/
def tryDetectRule (rule : Rule) (path : Path) (line : Text) (number : Nat) :
    Except Breakdown (List Diagnostic) := do
  let reports ← (rule.stretches line).mapM (tryReport fault tests detector rule path line number)
  return reports.filterMap id

/-- The findings on a line, rule by rule. -/
def tryDetect (path : Path) (line : Text) (number : Nat) : Except Breakdown (List Diagnostic) := do
  let findings ← detector.rules.mapM fun rule =>
    tryDetectRule fault tests detector rule path line number
  return findings.flatten

end Detector

/-! ## Audits -/

/-- The findings on some lines, the first of which has the given number. -/
def tryDetectLines (fault : CutFault) (tests : PlaceTests) (classifier : LineClassifier)
    (detector : Detector) (path : Path) :
    (number : Nat) → List Text → Except Breakdown (List Diagnostic)
  | _, [] => .ok []
  | number, line :: lines => do
      let here ←
        if classifier.skips line then .ok [] else detector.tryDetect fault tests path line number
      let later ← tryDetectLines fault tests classifier detector path (number + 1) lines
      return here ++ later

/-- The auditor as one that breaks down where a cut does. -/
def StyleAuditor.tryAudit (fault : CutFault) (auditor : StyleAuditor) : FileAuditor :=
  fun path text => do
    let found ← tryDetectLines fault (.ofDetector fault auditor.detector) auditor.classifier
      auditor.detector path 1 (Text.splitLines text)
    return FileAudit.empty.pushAll found

end LiteralAudit
