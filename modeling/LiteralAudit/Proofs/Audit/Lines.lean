import LiteralAudit.Audit.Lines
import LiteralAudit.Proofs.Audit.File
import Mathlib.Data.List.Pairwise

/-!
# Going through lines

Lines are counted from one, skipped lines included, so the number of a finding leads back to its
line (`mem_detectLines`), and findings of later lines come behind those of earlier ones
(`ascending_detectLines`).
-/

namespace LiteralAudit

variable {classifier : LineClassifier} {detector : Detector} {path : Path} {number : Nat}
  {lines : List Text} {found : Diagnostic}

/-- What a detector reports is something that one of its rules says of the line. -/
theorem Detector.eq_onLine_of_mem_detect {line : Text}
    (hmem : found ∈ detector.detect path line number) :
    ∃ rule ∈ detector.rules, ∃ literal,
      found = .onLine path number rule.category literal line (rule.render literal) := by
  obtain ⟨rule, hrule, hfound⟩ := List.mem_flatMap.mp hmem
  refine ⟨rule, hrule, ?_⟩
  rw [detectRule] at hfound
  split at hfound
  next =>
    obtain ⟨_, -, hreport⟩ := List.mem_filterMap.mp hfound
    obtain ⟨span, -, hreport⟩ := Option.bind_eq_some_iff.mp hreport
    split at hreport
    next => cases hreport
    next =>
      dsimp only at hreport
      split at hreport
      next => cases hreport
      next =>
        cases hreport
        exact ⟨_, rfl⟩
  next => exact absurd hfound List.not_mem_nil

/-- A finding has the number of the line that it was found on. -/
theorem Detector.line_of_mem_detect {line : Text}
    (hmem : found ∈ detector.detect path line number) : found.line = number := by
  obtain ⟨-, -, -, rfl⟩ := eq_onLine_of_mem_detect hmem
  rfl

/-- What is found on some lines is found on one of them, which is not skipped. -/
theorem mem_detectLines : found ∈ detectLines classifier detector path number lines ↔
    ∃ (i : Nat) (line : Text), lines[i]? = some line ∧ classifier.skips line = false ∧
      found ∈ detector.detect path line (number + i) := by
  induction lines generalizing number with
  | nil => simp [detectLines]
  | cons line lines ih =>
      rw [detectLines, List.mem_append, ih]
      constructor
      · rintro (hline | ⟨i, other, hother, hseen, hfound⟩)
        · split at hline
          next => exact absurd hline List.not_mem_nil
          next hseen => exact ⟨0, line, rfl, Bool.eq_false_iff.mpr hseen, hline⟩
        · refine ⟨i + 1, other, hother, hseen, ?_⟩
          rwa [Nat.add_assoc, Nat.add_comm 1] at hfound
      · rintro ⟨i, other, hother, hseen, hfound⟩
        cases i with
        | zero =>
            cases hother
            left
            rwa [hseen, if_neg Bool.false_ne_true]
        | succ i =>
            right
            refine ⟨i, other, hother, hseen, ?_⟩
            rwa [Nat.add_assoc, Nat.add_comm 1]

/-- More lines are gone through behind the others, and their numbers go on. -/
theorem detectLines_append (more : List Text) :
    detectLines classifier detector path number (lines ++ more) =
      detectLines classifier detector path number lines ++
        detectLines classifier detector path (number + lines.length) more := by
  induction lines generalizing number with
  | nil => rfl
  | cons line lines ih =>
      rw [List.cons_append, detectLines, detectLines, ih, List.append_assoc, List.length_cons,
        Nat.add_assoc, Nat.add_comm 1]

/-- Findings of earlier lines come first. -/
theorem ascending_detectLines :
    (detectLines classifier detector path number lines).Pairwise fun a b => a.line ≤ b.line := by
  induction lines generalizing number with
  | nil => exact .nil
  | cons line lines ih =>
      rw [detectLines, List.pairwise_append]
      refine ⟨?_, ih, ?_⟩
      · split
        next => exact .nil
        next =>
          refine List.pairwise_of_forall_mem_list fun a ha b hb => ?_
          have hsame := (Detector.line_of_mem_detect ha).trans (Detector.line_of_mem_detect hb).symm
          exact Nat.le_of_eq hsame
      · intro a ha b hb
        obtain ⟨i, other, -, -, hfound⟩ := mem_detectLines.mp hb
        have hb' := Detector.line_of_mem_detect hfound
        split at ha
        next => exact absurd ha List.not_mem_nil
        next =>
          have ha' := Detector.line_of_mem_detect ha
          omega

/-! ## Categories -/

/-- The findings of a category are those of all lines in their order, less the other categories. -/
theorem StyleAuditor.get_audit (auditor : StyleAuditor) (path : Path) (text : Text)
    (category : Category) :
    (auditor.audit path text).get category =
      (detectLines auditor.classifier auditor.detector path 1 (Text.splitLines text)).filter
        (·.category = category) :=
  FileAudit.ordered_empty.get_pushAll ..

end LiteralAudit
