import LiteralAudit.Path

/-!
# The order of paths

Names are compared byte by byte and paths step by step, from left to right.  Root, leading dot,
parent step and name come in this order.  A step can be written as bytes so that steps compare as
these bytes do (`PathStep.compare_eq`), and so each of the three comparisons is a linear order.  Two
paths compare as equal exactly if they have the same steps (`Path.compare_eq_iff`).
-/

namespace LiteralAudit

open Std (TransCmp OrientedCmp LawfulEqCmp)

/-! ## Names -/

theorem compareBytes_eq : ∀ a b : List UInt8, compareBytes a b = List.compareLex compare a b
  | [], [] => rfl
  | [], _ :: _ => rfl
  | _ :: _, [] => rfl
  | a :: as, b :: bs => by
      rw [compareBytes, List.compareLex_cons_cons, compareBytes_eq as bs]
      cases h : compare a b with
      | lt =>
          rw [if_pos (Std.compare_eq_lt.mp h)]
          rfl
      | eq =>
          obtain rfl := LawfulEqCmp.compare_eq_iff_eq.mp h
          rw [if_neg (UInt8.lt_irrefl a), if_neg (UInt8.lt_irrefl a)]
          rfl
      | gt =>
          have hlt : b < a := Std.compare_eq_gt.mp h
          rw [if_neg (UInt8.lt_asymm hlt), if_pos hlt]
          rfl

/-! ## Steps -/

namespace PathStep

/-- A step as bytes: its form, and the name if it is one. -/
def key : PathStep → List UInt8
  | .root => [0]
  | .here => [1]
  | .parent => [2]
  | .name bytes => 3 :: bytes

theorem key_injective {a b : PathStep} (h : a.key = b.key) : a = b := by
  cases a <;> cases b <;> simp_all [key]

theorem compare_eq (a b : PathStep) : a.compare b = List.compareLex Ord.compare a.key b.key := by
  cases a with
  | name a =>
      cases b with
      | name b =>
          show compareBytes a b = _
          rw [compareBytes_eq, key, key, List.compareLex_cons_cons, Std.compare_self]
          rfl
      | _ => rfl
  | _ => cases b <;> rfl

instance : TransCmp PathStep.compare where
  eq_swap := by
    intro a b
    rw [compare_eq, compare_eq]
    exact OrientedCmp.eq_swap
  isLE_trans := by
    intro a b c
    rw [compare_eq, compare_eq, compare_eq]
    exact TransCmp.isLE_trans

instance : LawfulEqCmp PathStep.compare where
  compare_self := by
    intro a
    rw [compare_eq]
    exact Std.ReflCmp.compare_self
  eq_of_compare := by
    intro a b h
    rw [compare_eq] at h
    exact key_injective (LawfulEqCmp.eq_of_compare h)

end PathStep

/-! ## Paths -/

/-- Paths are ordered by their steps as words are by their letters. -/
theorem compareSteps_eq : ∀ a b : List PathStep,
    compareSteps a b = List.compareLex PathStep.compare a b
  | [], [] => rfl
  | [], _ :: _ => rfl
  | _ :: _, [] => rfl
  | a :: as, b :: bs => by
      rw [compareSteps, List.compareLex_cons_cons, compareSteps_eq as bs]
      cases a.compare b <;> rfl

namespace Path

theorem compare_eq (a b : Path) :
    a.compare b = List.compareLex PathStep.compare a.steps b.steps := compareSteps_eq ..

instance : TransCmp Path.compare where
  eq_swap := by
    intro a b
    rw [compare_eq, compare_eq]
    exact OrientedCmp.eq_swap
  isLE_trans := by
    intro a b c
    rw [compare_eq, compare_eq, compare_eq]
    exact TransCmp.isLE_trans

/-- Two paths compare as equal exactly if they have the same steps. -/
theorem compare_eq_iff {a b : Path} : a.compare b = .eq ↔ a.same b = true := by
  rw [compare_eq, LawfulEqCmp.compare_eq_iff_eq, same, decide_eq_true_iff]

end Path

end LiteralAudit
