import LiteralAudit.Proofs.Audit.Operations
import LiteralAudit.Proofs.PathMap.Written

/-!
# Filling a summary

Audits and failures are put into a summary under any paths, perhaps the same more than once.  The
audit that was put in last for a path is the one that counts.  So the findings of a category are
those that these audits have, gone through in the order of their paths and then sorted by where they
are (`Summary.Collects`).  Together with what each of the audits tells, this is
`Summary.collects_ofInsertions`.
-/

namespace LiteralAudit

open Std (TransCmp OrientedCmp)

/-! ## The order of findings -/

namespace Diagnostic

/-- A finding may stand before another one in a report: its path does, or its line in the same file,
or its column on the same line.  An unknown column comes first. -/
def MayPrecede (a b : Diagnostic) : Prop :=
  a.path.Before b.path ∨ a.path.same b.path = true ∧
    (a.line < b.line ∨ a.line = b.line ∧
      ∀ column ∈ a.column, ∃ other ∈ b.column, column ≤ other)

/-- Two findings are at the same place. -/
def SamePlace (a b : Diagnostic) : Prop :=
  a.path.same b.path = true ∧ a.line = b.line ∧ a.column = b.column

instance (a b : Diagnostic) : Decidable (SamePlace a b) :=
  inferInstanceAs (Decidable (a.path.same b.path = true ∧ a.line = b.line ∧ a.column = b.column))

theorem compareColumns_eq :
    compareColumns = (Ord.compare : Option Nat → Option Nat → Ordering) := by
  funext a b
  cases a <;> cases b <;> rfl

instance : TransCmp Diagnostic.compare := by
  have hpath : TransCmp fun a b : Diagnostic => a.path.compare b.path := transCmp_on Path.compare _
  have hline : TransCmp fun a b : Diagnostic => Ord.compare a.line b.line :=
    transCmp_on Ord.compare Diagnostic.line
  have hcolumn : TransCmp fun a b : Diagnostic => compareColumns a.column b.column := by
    rw [compareColumns_eq]
    exact transCmp_on Ord.compare Diagnostic.column
  exact inferInstanceAs (TransCmp (compareLex (compareLex
    (fun a b : Diagnostic => a.path.compare b.path) fun a b => Ord.compare a.line b.line)
    fun a b => compareColumns a.column b.column))

/-- A finding without a column stands in front of those that have one, and these stand in the order
of their columns. -/
theorem compareColumns_ne_gt {a b : Option Nat} :
    compareColumns a b ≠ .gt ↔ ∀ column ∈ a, ∃ other ∈ b, column ≤ other := by
  cases a with
  | none => cases b <;> simp [compareColumns]
  | some a =>
      cases b with
      | none => simp [compareColumns]
      | some b => simp [compareColumns, Nat.compare_ne_gt]

/-- Two findings compare as equal if they are at the same place, whatever else is in them. -/
theorem compare_eq_iff {a b : Diagnostic} : a.compare b = .eq ↔ a.SamePlace b := by
  simp [Diagnostic.compare, SamePlace, Ordering.then_eq_eq, Path.compare_eq_iff, compareColumns_eq,
    and_assoc]

/-- The order of findings is that of their places. -/
theorem compare_ne_gt_iff {a b : Diagnostic} : a.compare b ≠ .gt ↔ a.MayPrecede b := by
  rw [Diagnostic.compare, MayPrecede, Path.Before, ← Path.compare_eq_iff, ← compareColumns_ne_gt]
  cases hpath : a.path.compare b.path with
  | lt => simp
  | gt => simp
  | eq =>
      cases hline : Ord.compare a.line b.line with
      | lt => simp [Nat.compare_eq_lt.mp hline]
      | gt =>
          have hgt := Nat.compare_eq_gt.mp hline
          simp
          omega
      | eq => simp [Nat.compare_eq_eq.mp hline]

end Diagnostic

namespace Summary

/-! ## Insertions -/

/-- Something that is put into a summary. -/
inductive Insertion where
  /-- An audit that was filled by some operations is put in under a path. -/
  | audit (path : Path) (operations : List FileAudit.Operation)
  /-- A failure is put in under a path. -/
  | failure (path : Path) (failure : FileFailure)

/-- The summary behind an insertion. -/
def put (summary : Summary) : Insertion → Summary
  | .audit path operations => summary.insertFile path (.ofOperations operations)
  | .failure path failure => summary.insertFailure path failure

/-- The summary behind some insertions into an empty one. -/
def ofInsertions (insertions : List Insertion) : Summary := insertions.foldl put empty

/-- The audit that an insertion puts in, and where. -/
def Insertion.write? : Insertion → Option (Path × FileAudit)
  | .audit path operations => some (path, .ofOperations operations)
  | .failure _ _ => none

/-- The audits that were put in last for their paths, in the order of the paths. -/
def lastAudits (insertions : List Insertion) : List FileAudit :=
  (PathMap.inPathOrder (PathMap.lastPerPath (insertions.filterMap Insertion.write?))).map Prod.snd

theorem files_ofInsertions (insertions : List Insertion) :
    (ofInsertions insertions).files = .ofWrites (insertions.filterMap Insertion.write?) := by
  induction insertions using List.reverseRecOn with
  | nil => rfl
  | append_singleton insertions insertion ih =>
      have hput : ofInsertions (insertions ++ [insertion]) =
          (ofInsertions insertions).put insertion := by
        simp [ofInsertions]
      rw [hput, List.filterMap_append]
      cases insertion with
      | audit path operations => simp [put, insertFile, Insertion.write?, ih, PathMap.ofWrites]
      | failure path failure =>
          simp [put, insertFailure, Insertion.write?, ih, List.filterMap_cons]

/-- Only the last audit of a path stays. -/
theorem values_ofInsertions (insertions : List Insertion) :
    (ofInsertions insertions).files.values = lastAudits insertions := by
  rw [files_ofInsertions, PathMap.values_ofWrites, lastAudits]

theorem ordered_of_mem_lastAudits {insertions : List Insertion} {audit : FileAudit}
    (hmem : audit ∈ lastAudits insertions) : audit.Ordered := by
  obtain ⟨write, hwrite, rfl⟩ := List.mem_map.mp hmem
  have hlast := (List.mergeSort_perm ..).mem_iff.mp hwrite
  obtain ⟨insertion, -, hinsertion⟩ := List.mem_filterMap.mp (PathMap.mem_of_mem_lastPerPath hlast)
  cases insertion with
  | audit path operations =>
      cases hinsertion
      exact FileAudit.ordered_ofOperations operations
  | failure path failure => cases hinsertion

/-! ## What a summary collects -/

/-- A summary has the findings of some audits, sorted by where they are. -/
structure Collects (summary : Summary) (audits : List FileAudit) : Prop where
  /-- Each category has the findings of the audits. -/
  perm : ∀ category,
    (summary.diagnostics category).Perm (audits.flatMap fun audit => audit.get category)
  /-- They are in the order of their places. -/
  ascending : ∀ category, (summary.diagnostics category).Pairwise Diagnostic.MayPrecede
  /-- Findings at the same place stay in the order of the audits. -/
  stable : ∀ category found,
    (summary.diagnostics category).filter (Diagnostic.SamePlace found ·) =
      (audits.flatMap fun audit => audit.get category).filter (Diagnostic.SamePlace found ·)
  length : ∀ category, (summary.diagnostics category).length = summary.count category
  counts : (Category.all.map summary.count).sum = summary.totalIssues

theorem collects_of_values {summary : Summary} {audits : List FileAudit}
    (hvalues : summary.files.values = audits) (hordered : ∀ audit ∈ audits, audit.Ordered) :
    Collects summary audits := by
  subst hvalues
  have hsorts : ∀ category, SortsTo Diagnostic.compare
      (summary.files.values.flatMap fun audit => audit.get category)
      (summary.diagnostics category) := fun category => sortsTo_sortBy ..
  constructor
  case perm => exact fun category => (hsorts category).perm
  case ascending =>
    exact fun category => (hsorts category).ascending.imp Diagnostic.compare_ne_gt_iff.mp
  case stable =>
    intro category found
    simpa only [Diagnostic.compare_eq_iff] using (hsorts category).stable found
  case length => exact fun category => summary.length_diagnostics category
  case counts => rw [sum_counts, totalIssues_eq_length hordered]

/-- An audit tells what was pushed to it, and a summary has the findings of the audits that were put
in last for their paths. -/
theorem collects_ofInsertions :
    (∀ operations, (FileAudit.ofOperations operations).Records (FileAudit.pushed operations)) ∧
      ∀ insertions, Collects (ofInsertions insertions) (lastAudits insertions) := by
  refine ⟨FileAudit.records_ofOperations, fun insertions => ?_⟩
  exact collects_of_values (values_ofInsertions insertions) fun _ => ordered_of_mem_lastAudits

end Summary

end LiteralAudit
