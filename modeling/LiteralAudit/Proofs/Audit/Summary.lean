import LiteralAudit.Proofs.Path.Order
import LiteralAudit.Report.Data
import LiteralAudit.Report.Plain
import Mathlib.Data.List.Basic
import Mathlib.Data.List.Pairwise
import Mathlib.Data.List.Perm.Basic

/-!
# Summaries and the order of outcomes

Files are audited side by side, and the summary is filled in whatever order they finish.  Writing to
two places of a map in one order or the other gives the same map (`PathMap.insert_comm`), so what a
summary takes in from two files with different paths does not depend on which comes first.  A
summary of files with pairwise different paths is therefore the same for every order of them, and so
is all that is read off it: the findings of a category, and both reports
(`Summary.ofOutcomes_perm`).
-/

namespace LiteralAudit

open Std (TransCmp OrientedCmp)

/-! ## Writing to a map -/

namespace PathMap

variable {α : Type}

theorem insertEntry_comm_of_lt {a b : Path} (hlt : a.compare b = .lt) (v w : α)
    (entries : List (Path × α)) :
    insertEntry b w (insertEntry a v entries) = insertEntry a v (insertEntry b w entries) := by
  have hgt : b.compare a = .gt := OrientedCmp.gt_of_lt hlt
  induction entries with
  | nil => simp [insertEntry, hlt, hgt]
  | cons entry entries ih =>
      obtain ⟨key, old⟩ := entry
      cases ha : a.compare key with
      | lt =>
          -- The entry of `a` stays in front, wherever that of `b` goes.
          cases hb : b.compare key <;> simp [insertEntry, ha, hb, hlt, hgt]
      | eq =>
          have hb : b.compare key = .gt :=
            TransCmp.gt_of_gt_of_eq hgt ha
          simp [insertEntry, ha, hb]
      | gt =>
          have hb : b.compare key = .gt := TransCmp.gt_trans hgt ha
          simp [insertEntry, ha, hb, ih]

/-- Insertions at different paths may be exchanged. -/
theorem insert_comm {a b : Path} (hdiff : a.same b = false) (map : PathMap α) (v w : α) :
    (map.insert a v).insert b w = (map.insert b w).insert a v := by
  refine congrArg PathMap.mk ?_
  cases hab : a.compare b with
  | lt => exact insertEntry_comm_of_lt hab v w map.entries
  | eq =>
      rw [Path.compare_eq_iff.mp hab] at hdiff
      cases hdiff
  | gt => exact (insertEntry_comm_of_lt (OrientedCmp.lt_of_gt hab) w v map.entries).symm

end PathMap

namespace Summary

/-! ## Taking in outcomes -/

/-- The outcomes of two paths are taken in either order to the same effect. -/
theorem insertOutcome_comm {a b : Outcome} (hdiff : a.path.same b.path = false)
    (summary : Summary) :
    (summary.insertOutcome a).insertOutcome b = (summary.insertOutcome b).insertOutcome a := by
  obtain ⟨pathA, resultA⟩ := a
  obtain ⟨pathB, resultB⟩ := b
  cases resultA with
  | error failureA =>
      cases resultB with
      | error failureB =>
          simp [insertOutcome, insertFailure, PathMap.insert_comm hdiff]
      | ok auditB =>
          cases hB : auditB.isClean <;> simp [insertOutcome, insertFailure, insertFile, hB]
  | ok auditA =>
      cases hA : auditA.isClean with
      | true => cases resultB <;> simp [insertOutcome, hA]
      | false =>
          cases resultB with
          | error failureB => simp [insertOutcome, insertFailure, insertFile, hA]
          | ok auditB =>
              cases hB : auditB.isClean with
              | true => simp [insertOutcome, hA, hB]
              | false => simp [insertOutcome, insertFile, hA, hB, PathMap.insert_comm hdiff]

/-- Outcomes of pairwise different paths. -/
def DistinctPaths (outcomes : List Outcome) : Prop :=
  outcomes.Pairwise fun a b => a.path.same b.path = false

/-- A summary of outcomes with different paths does not depend on their order. -/
theorem ofOutcomes_eq_of_perm {outcomes others : List Outcome} (hdistinct : DistinctPaths outcomes)
    (hperm : outcomes.Perm others) : ofOutcomes others = ofOutcomes outcomes := by
  have hsymm : Std.Symm fun a b : Outcome => a.path.same b.path = false :=
    ⟨fun a b h => by simpa [Path.same, eq_comm] using h⟩
  rw [ofOutcomes, ofOutcomes, ← hperm.length_eq]
  refine (hperm.foldl_eq' ?_ _).symm
  intro a ha b hb summary
  by_cases hab : a = b
  · rw [hab]
  · exact insertOutcome_comm (hdistinct.forall ha hb hab) summary

/-- Nothing tells two summaries apart. -/
structure SameResult (summary other : Summary) : Prop where
  /-- As many files were looked at. -/
  scanned : summary.scanned = other.scanned
  /-- The same audits are kept for the same paths. -/
  files : summary.files = other.files
  /-- The same failures are kept for the same paths. -/
  failures : summary.failures = other.failures
  /-- Each category has the same findings in the same order. -/
  diagnostics : ∀ category, summary.diagnostics category = other.diagnostics category
  /-- The report for people is the same in every style. -/
  plain : ∀ style theme, PlainReport.audit style summary theme = PlainReport.audit style other theme
  /-- The report for programs is the same. -/
  data : ∀ theme, DataReport.audit summary theme = DataReport.audit other theme

/-- Outcomes of files with pairwise different paths give the same result in every order. -/
theorem ofOutcomes_perm {outcomes others : List Outcome} (hdistinct : DistinctPaths outcomes)
    (hperm : outcomes.Perm others) : SameResult (ofOutcomes others) (ofOutcomes outcomes) := by
  rw [ofOutcomes_eq_of_perm hdistinct hperm]
  exact ⟨rfl, rfl, rfl, fun _ => rfl, fun _ _ => rfl, fun _ => rfl⟩

/-- A finding in a file, whatever else it says. -/
def findingIn (path : Text) (line : Nat) (literal : Text) : Diagnostic :=
  .onLine (.ofText path) line .hardcodedColor literal literal literal

/-- Two files with findings whose names are not in the order of their bytes, one without, and one
that cannot be read. -/
def unorderedOutcomes : List Outcome :=
  [⟨.ofText "a-b/x", .ok (FileAudit.empty.pushAll [findingIn "a-b/x" 7 "#111"])⟩,
    ⟨.ofText "a/x",
      .ok (FileAudit.empty.pushAll [findingIn "a/x" 3 "#222", findingIn "a/x" 3 "#333"])⟩,
    ⟨.ofText "b", .ok .empty⟩,
    ⟨.ofText "c", .error (.notFound (.ofText "c"))⟩]

theorem ofOutcomes_perm_reverse :
    DistinctPaths unorderedOutcomes ∧ unorderedOutcomes.Perm unorderedOutcomes.reverse ∧
      SameResult (ofOutcomes unorderedOutcomes.reverse) (ofOutcomes unorderedOutcomes) := by
  have hdistinct : DistinctPaths unorderedOutcomes := by
    unfold DistinctPaths
    decide +kernel
  have hperm : unorderedOutcomes.Perm unorderedOutcomes.reverse := (List.reverse_perm _).symm
  exact ⟨hdistinct, hperm, ofOutcomes_perm hdistinct hperm⟩

end Summary

end LiteralAudit
