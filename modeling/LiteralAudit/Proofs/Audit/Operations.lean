import LiteralAudit.Proofs.Audit.Totals
import Mathlib.Data.List.Induction

/-!
# Filling an audit

An audit is filled step by step: a finding is pushed, or a category comes in without a finding.
After any steps the audit *records* what was pushed and nothing else
(`FileAudit.records_ofOperations`).

A step keeps the groups ordered, adds a pushed finding at the end of its category, and leaves every
other category as it is (`Ordered.get_apply`).  All findings taken together, it adds the pushed one
(`toList_apply_perm`).  Both go from one step to all of them by induction on the steps, the last one
first.
-/

namespace LiteralAudit.FileAudit

/-- Something that is done to an audit. -/
inductive Operation where
  /-- A finding is pushed. -/
  | push (found : Diagnostic)
  /-- A category is made present. -/
  | touch (category : Category)
  deriving DecidableEq, Repr

/-- The audit behind an operation. -/
def apply (audit : FileAudit) : Operation → FileAudit
  | .push found => audit.push found
  | .touch category => audit.touch category

/-- The audit behind some operations on one without findings. -/
def ofOperations (operations : List Operation) : FileAudit := operations.foldl apply empty

/-- The finding that an operation pushes. -/
def Operation.found? : Operation → Option Diagnostic
  | .push found => some found
  | .touch _ => none

/-- The findings that were pushed, in their order. -/
def pushed (operations : List Operation) : List Diagnostic := operations.filterMap Operation.found?

theorem ofOperations_concat (operations : List Operation) (operation : Operation) :
    ofOperations (operations ++ [operation]) = (ofOperations operations).apply operation := by
  simp [ofOperations]

theorem pushed_concat (operations : List Operation) (operation : Operation) :
    pushed (operations ++ [operation]) = pushed operations ++ operation.found?.toList := by
  cases operation <;> simp [pushed, Operation.found?]

/-! ## One operation -/

/-- Every operation keeps the groups of an audit in order. -/
theorem Ordered.apply {audit : FileAudit} (hordered : audit.Ordered) (operation : Operation) :
    (audit.apply operation).Ordered := by
  cases operation with
  | push found => exact hordered.push found
  | touch category => exact OrderedGroups.modifyGroup hordered category id

/-- Asking for the group of a category does not change what is in any group. -/
theorem Ordered.get_touch {audit : FileAudit} (hordered : audit.Ordered)
    (touched category : Category) :
    (audit.touch touched).get category = audit.get category :=
  (lookup_modifyGroup hordered touched category id).trans (ite_self _)

/-- A pushed finding goes behind those of its category. -/
theorem Ordered.get_apply {audit : FileAudit} (hordered : audit.Ordered) (operation : Operation)
    (category : Category) :
    (audit.apply operation).get category =
      audit.get category ++ operation.found?.toList.filter (·.category = category) := by
  cases operation with
  | push found =>
      rw [FileAudit.apply, hordered.get_push]
      by_cases h : found.category = category <;> simp [Operation.found?, h]
  | touch touched =>
      rw [FileAudit.apply, hordered.get_touch]
      simp [Operation.found?]

/-- A change that adds findings to one group adds them to all findings. -/
theorem flatMap_modifyGroup_perm {category : Category} {change : List Diagnostic → List Diagnostic}
    {more : List Diagnostic} (hchange : ∀ found, (change found).Perm (found ++ more))
    (groups : List (Category × List Diagnostic)) :
    ((modifyGroup category change groups).flatMap Prod.snd).Perm
      (groups.flatMap Prod.snd ++ more) := by
  induction groups with
  | nil => simpa [modifyGroup] using hchange []
  | cons group groups ih =>
      obtain ⟨other, found⟩ := group
      simp only [modifyGroup]
      split
      next =>
        have hnew : (change []).Perm more := by simpa using hchange []
        exact (hnew.append_right _).trans List.perm_append_comm
      next =>
        split
        next =>
          simp only [List.flatMap_cons, List.append_assoc]
          refine ((hchange found).append_right _).trans ?_
          rw [List.append_assoc]
          exact List.perm_append_comm.append_left found
        next =>
          simp only [List.flatMap_cons, List.append_assoc]
          exact ih.append_left found

/-- A pushed finding comes to all findings, once. -/
theorem toList_apply_perm (audit : FileAudit) (operation : Operation) :
    (audit.apply operation).toList.Perm (audit.toList ++ operation.found?.toList) := by
  cases operation with
  | push found => exact flatMap_modifyGroup_perm (fun _ => .refl _) audit.groups
  | touch category =>
      exact flatMap_modifyGroup_perm (fun found => by simp [Operation.found?]) audit.groups

/-! ## All operations -/

theorem ordered_ofOperations (operations : List Operation) : (ofOperations operations).Ordered := by
  induction operations using List.reverseRecOn with
  | nil => exact ordered_empty
  | append_singleton operations operation ih =>
      rw [ofOperations_concat]
      exact ih.apply operation

/-- After any operations, a category has the findings of that category that were pushed, in their
order. -/
theorem get_ofOperations (operations : List Operation) (category : Category) :
    (ofOperations operations).get category =
      (pushed operations).filter (·.category = category) := by
  induction operations using List.reverseRecOn with
  | nil => rfl
  | append_singleton operations operation ih =>
      rw [ofOperations_concat, (ordered_ofOperations operations).get_apply, ih, pushed_concat,
        List.filter_append]

/-- After any operations, an audit has all that was pushed and nothing else. -/
theorem toList_ofOperations_perm (operations : List Operation) :
    (ofOperations operations).toList.Perm (pushed operations) := by
  induction operations using List.reverseRecOn with
  | nil => exact .refl _
  | append_singleton operations operation ih =>
      rw [ofOperations_concat, pushed_concat]
      exact (toList_apply_perm ..).trans (ih.append_right _)

/-- An audit tells what was pushed to it. -/
structure Records (audit : FileAudit) (pushed : List Diagnostic) : Prop where
  /-- Each category has its findings, in the order in which they were pushed. -/
  get : ∀ category, audit.get category = pushed.filter (·.category = category)
  /-- The findings are grouped by category, in the order of the categories. -/
  toList : audit.toList = Category.all.flatMap fun category => pushed.filter (·.category = category)
  /-- Each finding is there exactly once. -/
  once : audit.toList.Perm pushed
  total : audit.total = pushed.length
  /-- Categories without findings do not count. -/
  isClean : audit.isClean = true ↔ pushed = []
  hasParseError : audit.hasParseError = true ↔ ∃ found ∈ pushed, found.category = .parseError

theorem records_ofOperations (operations : List Operation) :
    (ofOperations operations).Records (pushed operations) := by
  have hget := get_ofOperations operations
  have honce := toList_ofOperations_perm operations
  constructor
  case get => exact hget
  case toList =>
    rw [(ordered_ofOperations operations).toList_eq]
    exact List.flatMap_congr fun category _ => hget category
  case once => exact honce
  case total => rw [total_eq_length, honce.length_eq]
  case isClean =>
    rw [FileAudit.isClean_iff]
    constructor
    · intro hnil
      rw [hnil] at honce
      exact honce.nil_eq.symm
    · intro hnil
      rw [hnil] at honce
      exact honce.eq_nil
  case hasParseError => simp [FileAudit.hasParseError, hget, List.filter_eq_nil_iff]

end LiteralAudit.FileAudit
