import Mathlib.Data.List.Basic

/-!
# Sorting by a comparison

A list that is sorted by a comparison has the same members in ascending order, and what compares as
equal stays in the order in which it was (`filter_sortBy`).  `SortsTo` says these three of a list,
whichever way it was sorted.
-/

namespace LiteralAudit

open Std (TransCmp OrientedCmp)

variable {α β : Type}

/-- A comparison of what is read off two values. -/
theorem transCmp_on (cmp : β → β → Ordering) [TransCmp cmp] (f : α → β) :
    TransCmp fun a b => cmp (f a) (f b) where
  eq_swap := OrientedCmp.eq_swap
  isLE_trans := TransCmp.isLE_trans

section

variable (cmp : α → α → Ordering)

/-- A list in ascending order, by the sort that is used for reports. -/
def sortBy (list : List α) : List α := list.mergeSort fun a b => cmp a b != .gt

/-- A list is what sorting another one gives. -/
structure SortsTo (list sorted : List α) : Prop where
  /-- Nothing is lost and nothing comes in. -/
  perm : sorted.Perm list
  /-- No value stands before a smaller one. -/
  ascending : sorted.Pairwise fun a b => cmp a b ≠ .gt
  /-- Values that compare as equal stay in their order. -/
  stable : ∀ a, sorted.filter (cmp a · = .eq) = list.filter (cmp a · = .eq)

theorem notGt_eq_isLE (a b : α) : (cmp a b != .gt) = (cmp a b).isLE := by
  cases cmp a b <;> rfl

variable [TransCmp cmp]

theorem notGt_trans (a b c : α) :
    (cmp a b != .gt) = true → (cmp b c != .gt) = true → (cmp a c != .gt) = true := by
  simpa only [notGt_eq_isLE] using TransCmp.isLE_trans

theorem notGt_total (a b : α) : (cmp a b != .gt || cmp b a != .gt) = true := by
  have hswap : cmp b a = (cmp a b).swap := OrientedCmp.eq_swap
  rw [hswap]
  cases cmp a b <;> rfl

theorem pairwise_sortBy (list : List α) :
    (sortBy cmp list).Pairwise fun a b => (cmp a b != .gt) = true :=
  List.pairwise_mergeSort (notGt_trans cmp) (notGt_total cmp) list

/-- What compares as equal to a value stays in its order. -/
theorem filter_sortBy (list : List α) (a : α) :
    (sortBy cmp list).filter (cmp a · = .eq) = list.filter (cmp a · = .eq) := by
  have htied : (list.filter (cmp a · = .eq)).Pairwise fun b c => (cmp b c != .gt) = true := by
    refine List.pairwise_of_forall_mem_list fun b hb c hc => ?_
    have hab : cmp a b = .eq := by simpa using (List.mem_filter.mp hb).2
    have hac : cmp a c = .eq := by simpa using (List.mem_filter.mp hc).2
    have hbc : cmp b c = .eq := TransCmp.eq_trans (OrientedCmp.eq_symm hab) hac
    simp [hbc]
  have hsub : (list.filter (cmp a · = .eq)).Sublist (sortBy cmp list) :=
    List.sublist_mergeSort (notGt_trans cmp) (notGt_total cmp) htied List.filter_sublist
  have hfilter : (list.filter (cmp a · = .eq)).Sublist
      ((sortBy cmp list).filter (cmp a · = .eq)) := by
    simpa using hsub.filter (cmp a · = .eq)
  have hperm := List.mergeSort_perm list fun a b => cmp a b != .gt
  have hlength := (hperm.filter (cmp a · = .eq)).length_eq
  exact (hfilter.eq_of_length hlength.symm).symm

/-- Sorting is stable: items that compare as equal keep their order. -/
theorem sortsTo_sortBy (list : List α) : SortsTo cmp list (sortBy cmp list) where
  perm := List.mergeSort_perm ..
  ascending := (pairwise_sortBy cmp list).imp fun h => by simpa using h
  stable := filter_sortBy cmp list

end

end LiteralAudit
