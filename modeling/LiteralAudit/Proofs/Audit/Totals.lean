import LiteralAudit.Proofs.Audit.File
import LiteralAudit.Proofs.Audit.Summary
import Mathlib.Algebra.GroupWithZero.Nat

/-!
# What a summary counts

A summary of files with pairwise different paths holds the audit of each file with findings and the
failure of each file that could not be audited, each once (`Holds.ofOutcomes`).  So whatever is
counted in it can be counted in the outcomes: the files of each kind, and the findings, be it all
of them or category by category (`accounts_ofOutcomes`).  Whether a summary is clean is told by the
outcomes even if a path occurs twice (`isClean_ofOutcomes`).

Findings are told by category, so nothing is lost only if each category of an audit has one group.
This holds of audits that were *filled*, that is, to which findings were added one by one.
-/

namespace LiteralAudit

open Std (OrientedCmp)

/-! ## Filled audits -/

namespace FileAudit

/-- Findings were added one by one. -/
inductive Filled : FileAudit → Prop where
  | start (documents : Option Nat) : Filled ⟨[], documents⟩
  | push {audit : FileAudit} (found : Diagnostic) : Filled audit → Filled (audit.push found)

theorem Filled.pushAll {audit : FileAudit} (hfilled : audit.Filled) (found : List Diagnostic) :
    (audit.pushAll found).Filled := by
  induction found generalizing audit with
  | nil => exact hfilled
  | cons first found ih => exact ih (hfilled.push first)

theorem Filled.ordered {audit : FileAudit} (hfilled : audit.Filled) : audit.Ordered := by
  induction hfilled with
  | start documents => exact List.Pairwise.nil
  | push found _ ih => exact ih.push found

theorem Filled.category_of_mem_get {audit : FileAudit} (hfilled : audit.Filled)
    {category : Category} {found : Diagnostic} (hmem : found ∈ audit.get category) :
    found.category = category := by
  induction hfilled with
  | start documents => exact absurd hmem List.not_mem_nil
  | push last hfilled ih =>
      rw [hfilled.ordered.get_push] at hmem
      split at hmem
      next hcategory =>
        rcases List.mem_append.mp hmem with hmem | hmem
        · exact ih hmem
        · rw [List.mem_singleton.mp hmem, hcategory]
      next => exact ih hmem

theorem get_sublist_toList (audit : FileAudit) (category : Category) :
    (audit.get category).Sublist audit.toList := by
  rw [get]
  split
  next group hgroup =>
    exact List.sublist_flatten_of_mem (List.mem_map_of_mem (List.mem_of_find?_eq_some hgroup))
  next => exact List.nil_sublist _

theorem isClean_iff (audit : FileAudit) : audit.isClean = true ↔ audit.toList = [] := by
  simp [isClean, toList, List.flatMap_eq_nil_iff]

end FileAudit

/-! ## Maps with one more entry -/

namespace PathMap

variable {α : Type}

/-- An entry with a new path is added to those that are there. -/
theorem insertEntry_perm {path : Path} (value : α) {entries : List (Path × α)}
    (habsent : ∀ entry ∈ entries, path.same entry.1 = false) :
    (insertEntry path value entries).Perm ((path, value) :: entries) := by
  induction entries with
  | nil => exact .refl _
  | cons entry entries ih =>
      obtain ⟨key, old⟩ := entry
      simp only [insertEntry]
      cases horder : path.compare key with
      | lt => exact .refl _
      | eq =>
          have hsame := habsent (key, old) (.head _)
          rw [Path.compare_eq_iff.mp horder] at hsame
          cases hsame
      | gt =>
          have hrest := ih fun entry hmem => habsent entry (.tail _ hmem)
          exact (hrest.cons _).trans (.swap _ _ _)

/-- An entry that may be there comes to those that are kept. -/
theorem elim_insertEntry_perm {new : Option (Path × α)} {entries kept : List (Path × α)}
    (hkept : entries.Perm kept)
    (habsent : ∀ entry ∈ new, ∀ old ∈ entries, entry.1.same old.1 = false) :
    (new.elim entries fun entry => insertEntry entry.1 entry.2 entries).Perm
      (kept ++ new.toList) := by
  cases new with
  | none => simpa using hkept
  | some entry =>
      have hperm := insertEntry_perm entry.2 (habsent entry rfl)
      exact hperm.trans ((hkept.cons _).trans (List.perm_append_singleton ..).symm)

theorem mem_insertEntry {path : Path} {value : α} {entries : List (Path × α)}
    {entry : Path × α} (hmem : entry ∈ insertEntry path value entries) :
    entry.2 = value ∨ entry ∈ entries := by
  induction entries with
  | nil =>
      rw [List.mem_singleton.mp hmem]
      exact Or.inl rfl
  | cons first entries ih =>
      obtain ⟨key, old⟩ := first
      simp only [insertEntry] at hmem
      cases horder : path.compare key with
      | lt =>
          simp only [horder] at hmem
          rcases List.mem_cons.mp hmem with rfl | hmem
          · exact Or.inl rfl
          · exact Or.inr hmem
      | eq =>
          simp only [horder] at hmem
          rcases List.mem_cons.mp hmem with rfl | hmem
          · exact Or.inl rfl
          · exact Or.inr (.tail _ hmem)
      | gt =>
          simp only [horder] at hmem
          rcases List.mem_cons.mp hmem with rfl | hmem
          · exact Or.inr (.head _)
          · exact (ih hmem).imp_right (.tail _)

theorem isEmpty_insert (map : PathMap α) (path : Path) (value : α) :
    (map.insert path value).isEmpty = false := by
  obtain ⟨entries⟩ := map
  cases entries with
  | nil => rfl
  | cons entry entries =>
      simp only [insert, isEmpty, insertEntry]
      cases path.compare entry.1 <;> rfl

end PathMap

/-! ## What becomes of an outcome -/

namespace Outcome

/-- The file was audited and nothing was found. -/
def isClean (outcome : Outcome) : Bool :=
  match outcome.result with
  | .ok audit => audit.isClean
  | .error _ => false

/-- The audit of a file with findings. -/
def dirty? (outcome : Outcome) : Option (Path × FileAudit) :=
  match outcome.result with
  | .ok audit => if audit.isClean then none else some (outcome.path, audit)
  | .error _ => none

/-- The failure of a file that could not be audited. -/
def failed? (outcome : Outcome) : Option (Path × FileFailure) :=
  match outcome.result with
  | .ok _ => none
  | .error failure => some (outcome.path, failure)

theorem filterMap_singleton {α : Type} (f : Outcome → Option α) (outcome : Outcome) :
    [outcome].filterMap f = (f outcome).toList := by
  cases h : f outcome <;> simp [h]

theorem path_of_dirty? {outcome : Outcome} {entry : Path × FileAudit}
    (h : outcome.dirty? = some entry) : entry.1 = outcome.path := by
  grind [dirty?]

theorem path_of_failed? {outcome : Outcome} {entry : Path × FileFailure}
    (h : outcome.failed? = some entry) : entry.1 = outcome.path := by
  grind [failed?]

theorem isClean_iff (outcome : Outcome) :
    outcome.isClean = true ↔ ∃ audit, outcome.result = .ok audit ∧ audit.toList = [] := by
  obtain ⟨path, result⟩ := outcome
  cases result with
  | error failure => simp [isClean]
  | ok audit => simp [isClean, FileAudit.isClean_iff]

/-- What is found in a file is found in its audit, if that is kept. -/
theorem findings_eq (outcome : Outcome) :
    outcome.findings = outcome.dirty?.toList.flatMap fun entry => entry.2.toList := by
  obtain ⟨path, result⟩ := outcome
  cases result with
  | error failure => rfl
  | ok audit =>
      cases hclean : audit.isClean with
      | true => simpa [findings, dirty?, hclean] using (audit.isClean_iff).mp hclean
      | false => simp [findings, dirty?, hclean]

theorem isClean_iff_findings (outcome : Outcome) :
    outcome.isClean = true ↔ outcome.findings = [] ∧ ¬outcome.failed?.isSome = true := by
  obtain ⟨path, result⟩ := outcome
  cases result with
  | error failure => simp [isClean, failed?]
  | ok audit => simp [isClean, findings, failed?, FileAudit.isClean_iff]

/-- A file is clean, or its audit is kept, or its failure is. -/
theorem one_place (outcome : Outcome) :
    [outcome.isClean, outcome.dirty?.isSome, outcome.failed?.isSome].count true = 1 := by
  obtain ⟨path, result⟩ := outcome
  cases result with
  | error failure => rfl
  | ok audit => cases hclean : audit.isClean <;> simp [isClean, dirty?, failed?, hclean]

/-- Each outcome is counted once: as clean, with findings or failed. -/
theorem countP_places (outcomes : List Outcome) :
    outcomes.countP isClean + outcomes.countP (·.dirty?.isSome) +
      outcomes.countP (·.failed?.isSome) = outcomes.length := by
  induction outcomes with
  | nil => rfl
  | cons outcome outcomes ih =>
      have hplace := outcome.one_place
      simp only [List.count_cons, List.count_nil, beq_true] at hplace
      simp only [List.countP_cons, List.length_cons]
      omega

end Outcome

namespace Summary

variable {summary : Summary} {outcome : Outcome} {outcomes before : List Outcome}

/-! ## Clean summaries -/

theorem isClean_insertOutcome (summary : Summary) (outcome : Outcome) :
    (summary.insertOutcome outcome).isClean = (summary.isClean && outcome.isClean) := by
  obtain ⟨path, result⟩ := outcome
  cases result with
  | error failure =>
      simp [insertOutcome, insertFailure, isClean, Outcome.isClean, PathMap.isEmpty_insert]
  | ok audit =>
      cases hclean : audit.isClean <;>
        simp [insertOutcome, insertFile, isClean, Outcome.isClean, hclean, PathMap.isEmpty_insert]

theorem isClean_foldl (summary : Summary) (outcomes : List Outcome) :
    (outcomes.foldl insertOutcome summary).isClean =
      (summary.isClean && outcomes.all Outcome.isClean) := by
  induction outcomes generalizing summary with
  | nil => simp
  | cons outcome outcomes ih =>
      rw [List.foldl_cons, ih, isClean_insertOutcome, List.all_cons, Bool.and_assoc]

/-- A summary is clean exactly if all files were audited and nothing was found. -/
theorem isClean_ofOutcomes (outcomes : List Outcome) :
    (ofOutcomes outcomes).isClean = true ↔ ∀ outcome ∈ outcomes, outcome.isClean = true := by
  rw [ofOutcomes, isClean_foldl, Bool.and_eq_true, List.all_eq_true]
  exact and_iff_right rfl

/-! ## What a summary holds -/

/-- A summary holds what some outcomes are about, each once. -/
structure Holds (summary : Summary) (outcomes : List Outcome) : Prop where
  files : summary.files.entries.Perm (outcomes.filterMap Outcome.dirty?)
  failures : summary.failures.entries.Perm (outcomes.filterMap Outcome.failed?)

theorem files_insertOutcome (summary : Summary) (outcome : Outcome) :
    (summary.insertOutcome outcome).files.entries =
      outcome.dirty?.elim summary.files.entries fun entry =>
        PathMap.insertEntry entry.1 entry.2 summary.files.entries := by
  obtain ⟨path, result⟩ := outcome
  cases result with
  | error failure => rfl
  | ok audit => cases hclean : audit.isClean <;> simp [insertOutcome, insertFile, PathMap.insert,
      Outcome.dirty?, hclean]

theorem failures_insertOutcome (summary : Summary) (outcome : Outcome) :
    (summary.insertOutcome outcome).failures.entries =
      outcome.failed?.elim summary.failures.entries fun entry =>
        PathMap.insertEntry entry.1 entry.2 summary.failures.entries := by
  obtain ⟨path, result⟩ := outcome
  cases result with
  | error failure => rfl
  | ok audit => cases hclean : audit.isClean <;> simp [insertOutcome, insertFile, Outcome.failed?,
      hclean]

/-- One outcome adds what it is about, if its path is new. -/
theorem Holds.insertOutcome (hholds : Holds summary before)
    (hnew : ∀ earlier ∈ before, outcome.path.same earlier.path = false) :
    Holds (summary.insertOutcome outcome) (before ++ [outcome]) := by
  constructor
  case files =>
    rw [files_insertOutcome, List.filterMap_append, Outcome.filterMap_singleton]
    refine PathMap.elim_insertEntry_perm hholds.files ?_
    intro entry hentry old hold
    obtain ⟨earlier, hearlier, hkept⟩ := List.mem_filterMap.mp (hholds.files.mem_iff.mp hold)
    rw [Outcome.path_of_dirty? hentry, Outcome.path_of_dirty? hkept]
    exact hnew earlier hearlier
  case failures =>
    rw [failures_insertOutcome, List.filterMap_append, Outcome.filterMap_singleton]
    refine PathMap.elim_insertEntry_perm hholds.failures ?_
    intro entry hentry old hold
    obtain ⟨earlier, hearlier, hkept⟩ := List.mem_filterMap.mp (hholds.failures.mem_iff.mp hold)
    rw [Outcome.path_of_failed? hentry, Outcome.path_of_failed? hkept]
    exact hnew earlier hearlier

/-- What a summary holds of some outcomes it holds of more, if all their paths differ. -/
theorem Holds.foldl (hholds : Holds summary before)
    (hdistinct : DistinctPaths (before ++ outcomes)) :
    Holds (outcomes.foldl Summary.insertOutcome summary) (before ++ outcomes) := by
  induction outcomes generalizing summary before with
  | nil => simpa using hholds
  | cons outcome outcomes ih =>
      have hnew : ∀ earlier ∈ before, outcome.path.same earlier.path = false := by
        intro earlier hmem
        have hpair := (List.pairwise_append.mp hdistinct).2.2 earlier hmem outcome (.head _)
        simpa [Path.same, eq_comm] using hpair
      rw [List.append_cons] at hdistinct ⊢
      exact ih (hholds.insertOutcome hnew) hdistinct

/-- A summary holds all outcomes that it was made from. -/
theorem Holds.ofOutcomes (hdistinct : DistinctPaths outcomes) :
    Holds (ofOutcomes outcomes) outcomes := by
  have hstart : Holds { empty with scanned := outcomes.length } [] := ⟨.refl _, .refl _⟩
  exact hstart.foldl hdistinct

theorem scanned_foldl (summary : Summary) (outcomes : List Outcome) :
    (outcomes.foldl insertOutcome summary).scanned = summary.scanned := by
  induction outcomes generalizing summary with
  | nil => rfl
  | cons outcome outcomes ih =>
      rw [List.foldl_cons, ih]
      obtain ⟨path, result⟩ := outcome
      cases result with
      | error failure => rfl
      | ok audit => cases hclean : audit.isClean <;> simp [insertOutcome, insertFile, hclean]

/-- Each audit in a summary is that of an outcome, whether or not paths occur twice. -/
theorem mem_values_foldl {summary : Summary} {audit : FileAudit}
    (hmem : audit ∈ (outcomes.foldl insertOutcome summary).files.values) :
    audit ∈ summary.files.values ∨ ∃ outcome ∈ outcomes, outcome.result = .ok audit := by
  induction outcomes generalizing summary with
  | nil => exact Or.inl hmem
  | cons outcome outcomes ih =>
      rcases ih hmem with hold | ⟨later, hlater, hresult⟩
      · obtain ⟨entry, hentry, rfl⟩ := List.mem_map.mp hold
        obtain ⟨path, result⟩ := outcome
        cases result with
        | error failure => exact Or.inl (List.mem_map_of_mem hentry)
        | ok audit =>
            simp only [insertOutcome] at hentry
            split at hentry
            next => exact Or.inl (List.mem_map_of_mem hentry)
            next =>
              rcases PathMap.mem_insertEntry hentry with hnew | hentry
              · exact Or.inr ⟨_, .head _, congrArg _ hnew.symm⟩
              · exact Or.inl (List.mem_map_of_mem hentry)
      · exact Or.inr ⟨later, .tail _ hlater, hresult⟩

/-- The audits of some outcomes were filled. -/
def AuditsFilled (outcomes : List Outcome) : Prop :=
  ∀ outcome ∈ outcomes, ∀ audit, outcome.result = .ok audit → audit.Filled

theorem AuditsFilled.of_mem_values (hfilled : AuditsFilled outcomes) {audit : FileAudit}
    (hmem : audit ∈ (ofOutcomes outcomes).files.values) : audit.Filled := by
  rcases mem_values_foldl hmem with hmem | ⟨outcome, houtcome, hresult⟩
  · exact absurd hmem List.not_mem_nil
  · exact hfilled outcome houtcome audit hresult

theorem auditsFilled_unordered : AuditsFilled unorderedOutcomes := by
  have hempty : FileAudit.empty.Filled := .start none
  simp only [AuditsFilled, unorderedOutcomes, List.forall_mem_cons, Except.ok.injEq, reduceCtorEq,
    forall_eq']
  exact ⟨hempty.pushAll _, hempty.pushAll _, hempty, by simp, by simp⟩

/-! ## Totals -/

/-- The total of a summary is the number of findings in all its files. -/
theorem totalIssues_eq (summary : Summary) :
    summary.totalIssues = (summary.files.values.flatMap FileAudit.toList).length := by
  rw [totalIssues, List.length_flatMap,
    List.map_congr_left fun audit _ => audit.total_eq_length]
  rfl

theorem count_eq (summary : Summary) (category : Category) :
    summary.count category =
      (summary.files.values.flatMap fun audit => audit.get category).length := by
  rw [count, List.length_flatMap]
  rfl

/-- The list of a category holds the findings of all files, sorted. -/
theorem diagnostics_perm (summary : Summary) (category : Category) :
    (summary.diagnostics category).Perm
      (summary.files.values.flatMap fun audit => audit.get category) :=
  List.mergeSort_perm ..

theorem length_diagnostics (summary : Summary) (category : Category) :
    (summary.diagnostics category).length = summary.count category := by
  rw [(summary.diagnostics_perm category).length_eq, count_eq]

/-- No category has more findings than there are in total. -/
theorem count_le_totalIssues (summary : Summary) (category : Category) :
    summary.count category ≤ summary.totalIssues := by
  rw [count_eq, totalIssues_eq]
  induction summary.files.values with
  | nil => exact Nat.le_refl _
  | cons audit audits ih =>
      have haudit := (audit.get_sublist_toList category).length_le
      simp only [List.flatMap_cons, List.length_append]
      omega

/-- The counts of all categories add up to the length of all their lists. -/
theorem sum_counts (summary : Summary) :
    (Category.all.map summary.count).sum = (Category.all.flatMap summary.diagnostics).length := by
  rw [List.length_flatMap,
    List.map_congr_left fun category _ => summary.length_diagnostics category]

/-- Going through the categories of each audit finds what going through the audits for each
category does. -/
theorem flatMap_get_perm (audits : List FileAudit) (categories : List Category) :
    (categories.flatMap fun category => audits.flatMap fun audit => audit.get category).Perm
      (audits.flatMap fun audit => categories.flatMap audit.get) := by
  induction audits with
  | nil => simp
  | cons audit audits ih =>
      simp only [List.flatMap_cons]
      exact (List.flatMap_append_perm ..).symm.trans (ih.append_left _)

/-- The findings by category are those of the audits. -/
theorem flatMap_diagnostics_perm (hordered : ∀ audit ∈ summary.files.values, audit.Ordered) :
    (Category.all.flatMap summary.diagnostics).Perm
      (summary.files.values.flatMap FileAudit.toList) := by
  have hsorted := List.Perm.flatMap_left Category.all fun category _ =>
    summary.diagnostics_perm category
  have hlists : summary.files.values.flatMap FileAudit.toList =
      summary.files.values.flatMap fun audit => Category.all.flatMap audit.get :=
    List.flatMap_congr fun audit hmem => (hordered audit hmem).toList_eq
  rw [hlists]
  exact hsorted.trans (flatMap_get_perm ..)

/-- The total is the length of all lists together, if each audit has its groups in order. -/
theorem totalIssues_eq_length (hordered : ∀ audit ∈ summary.files.values, audit.Ordered) :
    summary.totalIssues = (Category.all.flatMap summary.diagnostics).length := by
  rw [totalIssues_eq, (flatMap_diagnostics_perm hordered).length_eq]

/-- The audits that are kept have all findings. -/
theorem Holds.findings_perm (hholds : Holds summary outcomes) :
    (summary.files.values.flatMap FileAudit.toList).Perm
      (outcomes.flatMap Outcome.findings) := by
  have hkept : outcomes.flatMap Outcome.findings =
      (outcomes.filterMap Outcome.dirty?).flatMap fun entry => entry.2.toList := by
    clear hholds
    induction outcomes with
    | nil => rfl
    | cons outcome outcomes ih =>
        rw [List.flatMap_cons, ih, outcome.findings_eq, ← List.flatMap_append,
          ← Outcome.filterMap_singleton, ← List.filterMap_append, List.singleton_append]
  rw [hkept, PathMap.values, List.flatMap_map]
  exact hholds.files.flatMap_right _

/-! ## Accounts -/

/-- What a summary counts is what there is in the outcomes. -/
structure Accounts (summary : Summary) (outcomes : List Outcome) : Prop where
  withIssues : summary.filesWithIssues = outcomes.countP (·.dirty?.isSome)
  failed : summary.failures.size = outcomes.countP (·.failed?.isSome)
  /-- Each file is clean, or has findings, or could not be audited. -/
  scanned : summary.scanned =
    outcomes.countP Outcome.isClean + summary.filesWithIssues + summary.failures.size
  /-- Each finding is told exactly once. -/
  findings : (Category.all.flatMap summary.diagnostics).Perm (outcomes.flatMap Outcome.findings)
  counts : summary.totalIssues = (Category.all.map summary.count).sum
  total : summary.totalIssues = (Category.all.flatMap summary.diagnostics).length
  clean : summary.isClean = true ↔ summary.totalIssues = 0 ∧ summary.failures.size = 0

/-- A summary accounts for the outcomes that it was made from. -/
theorem accounts_ofOutcomes (hdistinct : DistinctPaths outcomes)
    (hfilled : AuditsFilled outcomes) : Accounts (ofOutcomes outcomes) outcomes := by
  have hholds := Holds.ofOutcomes hdistinct
  have hordered : ∀ audit ∈ (ofOutcomes outcomes).files.values, audit.Ordered :=
    fun audit hmem => (hfilled.of_mem_values hmem).ordered
  have hwith : (ofOutcomes outcomes).filesWithIssues = outcomes.countP (·.dirty?.isSome) := by
    rw [filesWithIssues, PathMap.size, hholds.files.length_eq, List.length_filterMap_eq_countP]
  have hfailed : (ofOutcomes outcomes).failures.size = outcomes.countP (·.failed?.isSome) := by
    rw [PathMap.size, hholds.failures.length_eq, List.length_filterMap_eq_countP]
  have hfindings := (flatMap_diagnostics_perm hordered).trans hholds.findings_perm
  have htotal := totalIssues_eq_length hordered
  constructor
  case withIssues => exact hwith
  case failed => exact hfailed
  case scanned =>
    rw [hwith, hfailed, Outcome.countP_places]
    exact scanned_foldl ..
  case findings => exact hfindings
  case counts => rw [sum_counts, htotal]
  case total => exact htotal
  case clean =>
    rw [htotal, hfindings.length_eq, hfailed, isClean_ofOutcomes, List.length_eq_zero_iff,
      List.flatMap_eq_nil_iff, List.countP_eq_zero, ← forall₂_and]
    exact forall₂_congr fun outcome _ => outcome.isClean_iff_findings

end Summary

end LiteralAudit
