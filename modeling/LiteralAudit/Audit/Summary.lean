import LiteralAudit.Audit.Outcome
import LiteralAudit.PathMap

/-!
# Summaries

A summary collects the outcomes of a run by path: the files with findings and the files that
could not be audited.  Files without findings are only counted.  What a summary holds does not
depend on the order of the outcomes, as long as their paths differ.
-/

namespace LiteralAudit

/-- The result of a run. -/
structure Summary where
  /-- The number of files that were looked at. -/
  scanned : Nat
  /-- The audits of the files with findings. -/
  files : PathMap FileAudit
  /-- The files that could not be audited. -/
  failures : PathMap FileFailure

namespace Summary

/-- Nothing was looked at. -/
def empty : Summary := ⟨0, .empty, .empty⟩

/-- The summary with the audit of one path. -/
def insertFile (summary : Summary) (path : Path) (audit : FileAudit) : Summary :=
  { summary with files := summary.files.insert path audit }

/-- The summary with the failure of one path. -/
def insertFailure (summary : Summary) (path : Path) (failure : FileFailure) : Summary :=
  { summary with failures := summary.failures.insert path failure }

/-- The summary with one more outcome. -/
def insertOutcome (summary : Summary) (outcome : Outcome) : Summary :=
  match outcome.result with
  | .ok audit => if audit.isClean then summary else summary.insertFile outcome.path audit
  | .error failure => summary.insertFailure outcome.path failure

/-- The summary of some outcomes. -/
def ofOutcomes (outcomes : List Outcome) : Summary :=
  outcomes.foldl insertOutcome { empty with scanned := outcomes.length }

/-- The number of files with findings. -/
def filesWithIssues (summary : Summary) : Nat := summary.files.size

/-- The number of findings. -/
def totalIssues (summary : Summary) : Nat :=
  (summary.files.values.map FileAudit.total).foldr (· + ·) 0

/-- The number of findings of a category. -/
def count (summary : Summary) (category : Category) : Nat :=
  (summary.files.values.map fun audit => (audit.get category).length).foldr (· + ·) 0

/-- The findings of a category, by path, line and column.  Findings that agree in these stay in
the order of their files. -/
def diagnostics (summary : Summary) (category : Category) : List Diagnostic :=
  (summary.files.values.flatMap fun audit => audit.get category).mergeSort
    fun a b => a.compare b != .gt

/-- Whether there are neither findings nor failures. -/
def isClean (summary : Summary) : Bool := summary.files.isEmpty && summary.failures.isEmpty

end Summary

end LiteralAudit
