import LiteralAudit.Audit.Breakable
import LiteralAudit.Audit.Outcome
import LiteralAudit.Proofs.Detector.Report
import LiteralAudit.Proofs.Ends
import LiteralAudit.Proofs.Pattern.Within

/-!
# Audits do not break down

Rules with one of the built-in patterns look at stretches within the line only.  There every cut
succeeds, so detection with cuts that may break down comes to the same as detection that has an
answer for each case, and those answers are never needed (`Detector.StaysWithin`).

This does not depend on the tests: they may break down on any other stretch
(`Detector.tryDetect_eq`).  What is shown for a line goes up to the lines of a file, and the auditor
of scripts and style sheets never leaves a file without an audit (`audits_unbroken`).
-/

namespace LiteralAudit

open Text (Part)

/-! ## Cuts -/

namespace Text

/-- A cut gives the parts before and after a boundary, and breaks down at any other offset. -/
theorem tryCut_eq_ok {fault : CutFault} {text : Text} {offset : Nat} {before after : Text} :
    text.tryCut fault offset = .ok (before, after) ↔
      text = before ++ after ∧ byteSize before = offset := by
  rw [← splitAt?_eq_some, tryCut]
  split
  next h => simp [h]
  next h => simp [h]

example : tryCut (fun _ _ => ⟨none⟩) "ä" 1 = .error ⟨none⟩ := by decide

namespace Part

variable (fault : CutFault) (part : Part)

theorem tryCut_start :
    part.whole.tryCut fault part.span.start = .ok (part.before, part.piece ++ part.after) :=
  tryCut_eq_ok.mpr ⟨rfl, rfl⟩

theorem tryCut_stop :
    part.whole.tryCut fault part.span.stop = .ok (part.before ++ part.piece, part.after) :=
  tryCut_eq_ok.mpr ⟨(List.append_assoc ..).symm, rfl⟩

theorem trySlice_span : part.whole.trySlice fault part.span = .ok part.piece := by
  have hpiece : (part.before ++ part.piece).tryCut fault part.span.start =
      .ok (part.before, part.piece) := tryCut_eq_ok.mpr ⟨rfl, rfl⟩
  rw [trySlice, part.tryCut_stop]
  show (part.before ++ part.piece).tryCut fault part.span.start >>= _ = _
  rw [hpiece]
  rfl

end Part

end Text

/-! ## Tests within a line -/

section Tests

variable (fault : CutFault) {line : Text} {span : Span}

/-- The test for quotes beside a stretch within the line does not break down. -/
theorem tryTouchesQuote_eq (hwithin : span.IsWithin line) :
    PlaceTest.touchesQuote fault line span = .ok (touchesQuote line span) := by
  obtain ⟨part, rfl, -, rfl⟩ := Span.isWithin_iff.mp hwithin
  rw [PlaceTest.touchesQuote, part.tryCut_start, part.tryCut_stop, touchesQuote,
    part.splitAt?_start, part.splitAt?_stop]
  rfl

theorem tryInsideQuotes_eq (hwithin : span.IsWithin line) :
    PlaceTest.insideQuotes fault line span = .ok (insideQuotes line span) := by
  obtain ⟨part, rfl, -, rfl⟩ := Span.isWithin_iff.mp hwithin
  rw [PlaceTest.insideQuotes, part.tryCut_start, insideQuotes, QuoteCount.before,
    part.splitAt?_start]
  rfl

theorem tryBeforeColon_eq (hwithin : span.IsWithin line) :
    PlaceTest.beforeColon fault line span = .ok (beforeColon line span) := by
  obtain ⟨part, rfl, -, rfl⟩ := Span.isWithin_iff.mp hwithin
  rw [PlaceTest.beforeColon, part.tryCut_stop, beforeColon, part.splitAt?_stop]
  rfl

theorem PlaceTest.ifOn_eq {test : PlaceTest} {answer : Bool} (h : test line span = .ok answer)
    (isOn : Bool) : test.ifOn isOn line span = .ok (isOn && answer) := by
  cases isOn with
  | true => exact h
  | false => rfl

end Tests

/-- Tests answer for a detector if they do not break down within a line and say there what the
detector says.  Nothing is asked of them elsewhere. -/
structure PlaceTests.AnswersFor (tests : PlaceTests) (detector : Detector) : Prop where
  /-- The test for touching quotes. -/
  touching : ∀ line (span : Span), span.IsWithin line →
    tests.touching line span = .ok (touchesQuote line span)
  /-- The test for matches inside strings. -/
  quoted : ∀ line (span : Span), span.IsWithin line →
    tests.quoted line span = .ok (detector.quoted line span)
  /-- The test for keys. -/
  key : ∀ line (span : Span), span.IsWithin line →
    tests.key line span = .ok (detector.key line span)

theorem PlaceTests.answersFor_ofDetector (fault : CutFault) (detector : Detector) :
    (ofDetector fault detector).AnswersFor detector :=
  ⟨fun _ _ => tryTouchesQuote_eq fault, fun _ _ _ => rfl, fun _ _ _ => rfl⟩

/-- The tests that break down off a boundary answer for every detector that looks for strings and
keys as the built-in ones do. -/
theorem PlaceTests.answersFor_strict (fault : CutFault) {detector : Detector}
    (hquoted : detector.quoted = insideQuotes) (hkey : detector.key = beforeColon) :
    (strict fault).AnswersFor detector := by
  refine ⟨fun _ _ => tryTouchesQuote_eq fault, ?_, ?_⟩
  · rw [hquoted]
    exact fun _ _ => tryInsideQuotes_eq fault
  · rw [hkey]
    exact fun _ _ => tryBeforeColon_eq fault

/-- A stretch within the line is suppressed by the breakable tests exactly if the detector
suppresses it. -/
theorem PlaceTests.AnswersFor.suppress_eq {tests : PlaceTests} {detector : Detector}
    (hanswers : tests.AnswersFor detector) (rule : Rule) {line : Text} {span : Span}
    (hwithin : span.IsWithin line) :
    tests.suppress rule line span = .ok (detector.isSuppressed rule line span) := by
  rw [suppress, PlaceTest.ifOn_eq (hanswers.touching line span hwithin),
    PlaceTest.ifOn_eq (hanswers.quoted line span hwithin),
    PlaceTest.ifOn_eq (hanswers.key line span hwithin), Detector.isSuppressed]
  cases rule.bare && touchesQuote line span with
  | true => rfl
  | false =>
      cases rule.skipIfQuoted && detector.quoted line span with
      | true => rfl
      | false => rfl

/-! ## Detection -/

/-- What a rule with a built-in pattern finds is within the line. -/
theorem Rule.HasBuiltInPattern.isWithin {rule : Rule} (h : rule.HasBuiltInPattern) {line : Text}
    {span : Span} (hspan : span ∈ rule.stretches line) : span.IsWithin line := by
  obtain ⟨pattern, hfilled, hsearch⟩ := h.exists_filled
  rw [stretches] at hspan
  split at hspan
  next =>
    obtain ⟨found, hfound, hgroup⟩ := List.mem_filterMap.mp hspan
    rw [hsearch] at hfound
    exact Pattern.isWithin_of_group? hfilled hfound hgroup
  next => exact absurd hspan List.not_mem_nil

namespace Detector

variable {tests : PlaceTests} {detector : Detector} (fault : CutFault)

/-- A rule reports what it says of its stretches. -/
theorem detectRule_eq (detector : Detector) (rule : Rule) (path : Path) (line : Text)
    (number : Nat) :
    detector.detectRule rule path line number =
      (rule.stretches line).filterMap (detector.reportOn? rule path line number) := by
  rw [detectRule, Rule.stretches]
  split
  next =>
    rw [List.filterMap_filterMap]
    exact List.filterMap_congr fun found _ => detector.report?_eq rule path line number found
  next => rfl

/-- A report about a stretch within the line is made without breaking down. -/
theorem tryReport_eq (hanswers : tests.AnswersFor detector) (rule : Rule) (path : Path)
    {line : Text} (number : Nat) {span : Span} (hwithin : span.IsWithin line) :
    detector.tryReport fault tests rule path line number span =
      .ok (detector.reportOn? rule path line number span) := by
  have hsuppress := hanswers.suppress_eq rule hwithin
  obtain ⟨part, rfl, -, rfl⟩ := Span.isWithin_iff.mp hwithin
  rw [tryReport, hsuppress, reportOn?, part.trySlice_span, part.slice?_span]
  cases detector.isSuppressed rule part.whole part.span with
  | true => rfl
  | false =>
      -- What is left is to ask whether the literal is allowed.
      exact (apply_ite Except.ok (_ = true) none (some _)).symm

/-- A rule with a built-in pattern never breaks down, and finds what it finds otherwise. -/
theorem tryDetectRule_eq (hanswers : tests.AnswersFor detector) {rule : Rule}
    (hpattern : rule.HasBuiltInPattern) (path : Path) (line : Text) (number : Nat) :
    detector.tryDetectRule fault tests rule path line number =
      .ok (detector.detectRule rule path line number) := by
  have hreports := mapM_eq_ok_map fun span (hspan : span ∈ rule.stretches line) =>
    tryReport_eq fault hanswers rule path number (hpattern.isWithin hspan)
  rw [tryDetectRule, hreports, detectRule_eq]
  exact congrArg Except.ok (List.filterMap_map ..)

/-- Tests may break down wherever they like but within the line: they are not asked there. -/
theorem tryDetect_eq (hanswers : tests.AnswersFor detector)
    (hpatterns : ∀ rule ∈ detector.rules, rule.HasBuiltInPattern) (path : Path) (line : Text)
    (number : Nat) :
    detector.tryDetect fault tests path line number = .ok (detector.detect path line number) := by
  have hrules := mapM_eq_ok_map fun rule (hrule : rule ∈ detector.rules) =>
    tryDetectRule_eq fault hanswers (hpatterns rule hrule) path line number
  rw [tryDetect, hrules]
  rfl

/-- Detection with a table of rules stays within the line. -/
structure StaysWithin (detector : Detector) : Prop where
  /-- The stretches that are looked at are within the line. -/
  stretches : ∀ rule ∈ detector.rules, ∀ line, ∀ span ∈ rule.stretches line, span.IsWithin line
  /-- Tests that break down on all other stretches do no harm. -/
  tests : ∀ fault (tests : PlaceTests), tests.AnswersFor detector → ∀ path line number,
    detector.tryDetect fault tests path line number = .ok (detector.detect path line number)
  /-- The cuts for touching quotes and for literals succeed. -/
  cuts : ∀ fault path line number,
    detector.tryDetect fault (.ofDetector fault detector) path line number =
      .ok (detector.detect path line number)
  /-- The tests for strings and keys need no answer for an offset that cuts nothing. -/
  strict : detector.quoted = insideQuotes → detector.key = beforeColon →
    ∀ fault path line number, detector.tryDetect fault (.strict fault) path line number =
      .ok (detector.detect path line number)

/-- A detector stays within its lines if all its rules have built-in patterns. -/
theorem staysWithin (hpatterns : ∀ rule ∈ detector.rules, rule.HasBuiltInPattern) :
    detector.StaysWithin where
  stretches rule hrule _ _ hspan := (hpatterns rule hrule).isWithin hspan
  tests fault _ hanswers := tryDetect_eq fault hanswers hpatterns
  cuts fault := tryDetect_eq fault (PlaceTests.answersFor_ofDetector fault detector) hpatterns
  strict hquoted hkey fault :=
    tryDetect_eq fault (PlaceTests.answersFor_strict fault hquoted hkey) hpatterns

end Detector

/-! ## Audits -/

/-- No line of a text breaks down the search in it. -/
theorem tryDetectLines_eq {detector : Detector} (hwithin : detector.StaysWithin) (fault : CutFault)
    (classifier : LineClassifier) (path : Path) (number : Nat) (lines : List Text) :
    tryDetectLines fault (.ofDetector fault detector) classifier detector path number lines =
      .ok (detectLines classifier detector path number lines) := by
  induction lines generalizing number with
  | nil => rfl
  | cons line lines ih =>
      rw [tryDetectLines, ih, detectLines]
      split
      next => rfl
      next =>
        rw [hwithin.cuts]
        rfl

/-- An audit that may break down is the plain audit if its detector stays within its lines. -/
theorem StyleAuditor.tryAudit_eq {auditor : StyleAuditor} (hwithin : auditor.detector.StaysWithin)
    (fault : CutFault) : auditor.tryAudit fault = auditor.toFileAuditor := by
  funext path text
  rw [tryAudit, tryDetectLines_eq hwithin]
  rfl

theorem Rule.hasBuiltInPattern_of_mem {rule : Rule} (h : rule ∈ legacyYaml ++ designTokens) :
    rule.HasBuiltInPattern := ⟨rule, h, rfl⟩

/-- Detection by built-in patterns stays within the line, and the auditor of scripts and style
sheets does not break down. -/
theorem audits_unbroken :
    (∀ detector : Detector, (∀ rule ∈ detector.rules, rule.HasBuiltInPattern) →
        detector.StaysWithin) ∧
      ∀ (fault : CutFault) (allowed : AllowedValues),
        (StyleAuditor.ofAllowed allowed).tryAudit fault =
            (StyleAuditor.ofAllowed allowed).toFileAuditor ∧
          ∀ (reader : FileReader) (path file : Path) (words : Text),
            Outcome.auditPath ((StyleAuditor.ofAllowed allowed).tryAudit fault) reader path ≠
              .error (.internal file words) := by
  refine ⟨fun detector hpatterns => Detector.staysWithin hpatterns, fun fault allowed => ?_⟩
  have hwithin : (StyleAuditor.ofAllowed allowed).detector.StaysWithin :=
    Detector.staysWithin fun rule hrule =>
      Rule.hasBuiltInPattern_of_mem (List.mem_append_right _ hrule)
  have haudit := StyleAuditor.tryAudit_eq hwithin fault
  refine ⟨haudit, fun reader path file words => ?_⟩
  rw [haudit, Outcome.auditPath]
  split
  next => split <;> nofun
  next => nofun

/-- A rule for radii that looks at all that is around a number, on every line. -/
def wideRadius : Rule :=
  { Rule.pixelRadius with
    skipIfQuoted := true, skipIfKey := true, gate := none, bare := true, checkAllowed := false,
    literal := .verbatim }

/-- A line with long characters, one of them right before the number. -/
def wideLine : Text := "ä: 'b'; borderRadius\u00a0:\u20288px"

theorem audits_unbroken_wide :
    (∀ rule ∈ (Detector.ofRules [wideRadius]).rules, rule.HasBuiltInPattern) ∧
      (Detector.ofRules [wideRadius]).StaysWithin ∧
      wideRadius.stretches wideLine = [⟨27, 28⟩] ∧
      ((Detector.ofRules [wideRadius]).tryDetect (fun _ _ => ⟨none⟩) (.strict fun _ _ => ⟨none⟩)
        (.ofText "a.css") wideLine 3).map (·.map Diagnostic.literal) = .ok [("8" : Text)] := by
  have hpatterns : ∀ rule ∈ (Detector.ofRules [wideRadius]).rules, rule.HasBuiltInPattern := by
    intro rule hrule
    rw [List.eq_of_mem_singleton hrule]
    exact ⟨.pixelRadius, by simp [Rule.legacyYaml, Rule.designTokens], rfl⟩
  have hwithin := audits_unbroken.1 (.ofRules [wideRadius]) hpatterns
  refine ⟨hpatterns, hwithin, by decide +kernel, ?_⟩
  rw [hwithin.strict rfl rfl]
  decide +kernel

end LiteralAudit
