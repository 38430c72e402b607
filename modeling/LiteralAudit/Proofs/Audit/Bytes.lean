import LiteralAudit.Audit.Outcome
import LiteralAudit.Proofs.Audit.Lines
import LiteralAudit.Proofs.Text.Bytes

/-!
# Audits of bytes that are no text

A file may hold any bytes.  An audit reads them with what is broken replaced, so its lines are those
of the bytes, each read on its own, and what is found on one line does not depend on what the others
hold (`filter_detectLines`).  Hence the findings on the lines that are texts are there as well if
all the others are empty (`StyleAuditor.readsByLines_auditBytes`).
-/

namespace LiteralAudit

open Text (splitLines)
open Text.Utf8

/-! ## Choosing lines -/

section Chosen

variable {classifier : LineClassifier} {detector : Detector} {path : Path} {kept : Nat → Bool}

theorem filter_detect_eq_nil {number : Nat} (h : kept number = false) (line : Text) :
    (detector.detect path line number).filter (kept ·.line) = [] := by
  rw [List.filter_eq_nil_iff]
  intro found hfound
  simp [Detector.line_of_mem_detect hfound, h]

/-- Findings on some of the lines depend on these lines only. -/
theorem filter_detectLines {lines others : List Text} {number : Nat}
    (hlength : lines.length = others.length)
    (hkept : ∀ i, kept (number + i) = true → lines[i]? = others[i]?) :
    (detectLines classifier detector path number lines).filter (kept ·.line) =
      (detectLines classifier detector path number others).filter (kept ·.line) := by
  induction lines generalizing number others with
  | nil =>
      cases others with
      | nil => rfl
      | cons other others => cases hlength
  | cons line lines ih =>
      cases others with
      | nil => cases hlength
      | cons other others =>
          have hnext : ∀ i, kept (number + 1 + i) = true → lines[i]? = others[i]? := by
            intro i hi
            rw [Nat.add_assoc, Nat.add_comm 1] at hi
            simpa using hkept (i + 1) hi
          rw [detectLines, detectLines, List.filter_append, List.filter_append,
            ih (Nat.succ.inj hlength) hnext]
          congr 1
          cases hnumber : kept number with
          | true =>
              have hsame : line = other := by simpa using hkept 0 hnumber
              rw [hsame]
          | false => split <;> split <;> simp [filter_detect_eq_nil hnumber]

end Chosen

/-! ## Files -/

/-- What an auditor makes of a file with some bytes. -/
def StyleAuditor.auditBytes (auditor : StyleAuditor) (path : Path) (bytes : List UInt8) :
    Except FileFailure FileAudit :=
  Outcome.auditPath auditor.toFileAuditor (fun _ => .ok bytes) path

/-- Two audits have the same findings on some of the lines. -/
def FileAudit.AgreesOn (audit other : FileAudit) (kept : Nat → Bool) : Prop :=
  ∀ category,
    (audit.get category).filter (kept ·.line) = (other.get category).filter (kept ·.line)

/-- Lines of which only some are kept, and the others are empty.  The first line has number one. -/
def keepLines (kept : Nat → Bool) (lines : List (List UInt8)) : List (List UInt8) :=
  lines.mapIdx fun i line => if kept (1 + i) then line else []

/-- The bytes with only some of their lines kept, and the others empty. -/
def keepInBytes (kept : Nat → Bool) (bytes : List UInt8) : List UInt8 :=
  feedLines (keepLines kept (byteLines bytes))

/-- Whether a line is a text. -/
def isTextLine (bytes : List UInt8) (number : Nat) : Bool :=
  ((byteLines bytes)[number - 1]? >>= decode?).isSome

/-- The bytes that are kept have the same number of lines, the others empty. -/
theorem byteLines_keepInBytes (kept : Nat → Bool) (bytes : List UInt8) :
    byteLines (keepInBytes kept bytes) = keepLines kept (byteLines bytes) := by
  refine byteLines_feedLines fun line hline => ?_
  obtain ⟨i, hi, rfl⟩ := List.mem_mapIdx.mp hline
  split
  next => exact isUnbroken_of_mem_byteLines (List.getElem_mem hi)
  next => simp [IsUnbrokenBytes]

/-- Whichever lines are kept, the findings on them stay. -/
theorem StyleAuditor.agreesOn_keepInBytes (auditor : StyleAuditor) (path : Path)
    (bytes : List UInt8)
    (kept : Nat → Bool) :
    (auditor.audit path (decodeLossy bytes)).AgreesOn
      (auditor.audit path (decodeLossy (keepInBytes kept bytes))) kept := by
  intro category
  have hlines : (detectLines auditor.classifier auditor.detector path 1
        (splitLines (decodeLossy bytes))).filter (kept ·.line) =
      (detectLines auditor.classifier auditor.detector path 1
        (splitLines (decodeLossy (keepInBytes kept bytes)))).filter (kept ·.line) := by
    rw [splitLines_decodeLossy, splitLines_decodeLossy, byteLines_keepInBytes]
    refine filter_detectLines (by simp [keepLines]) fun i hi => ?_
    simp [keepLines, hi]
  rw [get_audit, get_audit, List.filter_comm, hlines, List.filter_comm]

/-- The bytes of a file are read line by line. -/
structure ReadsByLines (bytes : List UInt8) : Prop where
  /-- The lines are those between the breaks, each read on its own. -/
  lines : splitLines (decodeLossy bytes) = (byteLines bytes).map decodeLossy
  /-- The findings on the lines that are texts are those that are there if all other lines are
  empty. -/
  texts : ∀ (auditor : StyleAuditor) (path : Path), ∃ audit other,
    auditor.auditBytes path bytes = .ok audit ∧
      auditor.auditBytes path (keepInBytes (isTextLine bytes) bytes) = .ok other ∧
      audit.AgreesOn other (isTextLine bytes)

/-- Bytes that are no text do no more than to be replaced in their line. -/
theorem StyleAuditor.readsByLines_auditBytes (bytes : List UInt8) : ReadsByLines bytes := by
  constructor
  case lines => exact splitLines_decodeLossy bytes
  case texts =>
    intro auditor path
    exact ⟨_, _, rfl, rfl, auditor.agreesOn_keepInBytes path bytes (isTextLine bytes)⟩

end LiteralAudit
