import LiteralAudit.PathMap
import LiteralAudit.Proofs.Scan.Selection
import LiteralAudit.Proofs.Sorting
import Mathlib.Data.List.Induction

/-!
# Maps that are written to

A map that is written to again and again keeps for each path the value that was written last,
however the path was spelled, and holds these values in the order of the paths (`values_ofWrites`).

Entries are *ascending* if each path stands in front of those behind it.  Writing keeps them
ascending (`Ascending.insertEntry`) and changes what is kept for one path only
(`keeps_insertEntry`).  Taking the last of some writes for each path does the same to a list
(`keeps_lastPerPath_concat`), and ascending entries that keep the same for each path have the same
values (`values_eq_of_keeps`).
-/

namespace LiteralAudit.PathMap

open Std (TransCmp OrientedCmp)

variable {α : Type}

/-- A map of values written to paths, one after the other. -/
def ofWrites (writes : List (Path × α)) : PathMap α :=
  writes.foldl (fun map write => map.insert write.1 write.2) .empty

/-- The writes that no later write to the same path follows. -/
def lastPerPath : List (Path × α) → List (Path × α)
  | [] => []
  | write :: later =>
      if later.any (·.1.same write.1) then lastPerPath later else write :: lastPerPath later

/-- Writes in the order of their paths. -/
def inPathOrder (writes : List (Path × α)) : List (Path × α) :=
  sortBy (fun a b => a.1.compare b.1) writes

/-- Each path stands in front of those behind it. -/
def Ascending (entries : List (Path × α)) : Prop := entries.Pairwise fun a b => a.1.Before b.1

/-- A value is kept for a path. -/
def Keeps (entries : List (Path × α)) (path : Path) (value : α) : Prop :=
  ∃ entry ∈ entries, entry.1.steps = path.steps ∧ entry.2 = value

/-! ## Paths with the same steps -/

theorem same_iff {a b : Path} : a.same b = true ↔ a.steps = b.steps := by simp [Path.same]

theorem before_trans {a b c : Path} (hab : a.Before b) (hbc : b.Before c) : a.Before c :=
  TransCmp.lt_trans hab hbc

theorem not_before_self (a : Path) : ¬a.Before a := Std.Irrefl.irrefl a

/-- A path with the same steps stands in the same place. -/
theorem before_congr {a b c d : Path} (hab : a.steps = b.steps) (hcd : c.steps = d.steps) :
    a.Before c ↔ b.Before d := by
  simp only [Path.Before, Path.compare, hab, hcd]

theorem steps_ne_of_before {a b : Path} (h : a.Before b) : a.steps ≠ b.steps := fun hsteps =>
  not_before_self a ((before_congr rfl hsteps).mpr h)

theorem before_or (a b : Path) : a.Before b ∨ a.steps = b.steps ∨ b.Before a := by
  cases h : a.compare b with
  | lt => exact .inl h
  | eq => exact .inr (.inl (same_iff.mp (Path.compare_eq_iff.mp h)))
  | gt => exact .inr (.inr (OrientedCmp.lt_of_gt h))

/-! ## What is kept -/

section Keeps

variable {entries more : List (Path × α)} {path : Path} {value : α}

theorem keeps_cons {entry : Path × α} : Keeps (entry :: entries) path value ↔
    entry.1.steps = path.steps ∧ entry.2 = value ∨ Keeps entries path value := by
  simp [Keeps]

theorem keeps_append :
    Keeps (entries ++ more) path value ↔ Keeps entries path value ∨ Keeps more path value := by
  simp [Keeps, or_and_right, exists_or]

theorem keeps_of_perm (hperm : entries.Perm more) :
    Keeps entries path value ↔ Keeps more path value := by
  simp only [Keeps, hperm.mem_iff]

/-- What stands behind a path keeps nothing for it, nor for a path in front of it. -/
theorem not_keeps_of_before {first : Path} (hfirst : ∀ entry ∈ entries, first.Before entry.1)
    (hpath : path.steps = first.steps ∨ path.Before first) : ¬Keeps entries path value := by
  rintro ⟨entry, hmem, hsteps, -⟩
  have hbehind : first.Before path := (before_congr rfl hsteps).mp (hfirst entry hmem)
  rcases hpath with hpath | hpath
  · exact steps_ne_of_before hbehind hpath.symm
  · exact not_before_self path (before_trans hpath hbehind)

/-- Ascending entries that keep the same for each path have the same values. -/
theorem values_eq_of_keeps {others : List (Path × α)} (hentries : Ascending entries)
    (hothers : Ascending others)
    (hsame : ∀ path value, Keeps entries path value ↔ Keeps others path value) :
    entries.map Prod.snd = others.map Prod.snd := by
  induction entries generalizing others with
  | nil =>
      cases others with
      | nil => rfl
      | cons other others =>
          obtain ⟨_, hmem, -⟩ := (hsame other.1 other.2).mpr (keeps_cons.mpr (.inl ⟨rfl, rfl⟩))
          cases hmem
  | cons entry entries ih =>
      cases others with
      | nil =>
          obtain ⟨_, hmem, -⟩ := (hsame entry.1 entry.2).mp (keeps_cons.mpr (.inl ⟨rfl, rfl⟩))
          cases hmem
      | cons other others =>
          obtain ⟨hentry, hrest⟩ := List.pairwise_cons.mp hentries
          obtain ⟨hother, hlater⟩ := List.pairwise_cons.mp hothers
          have hforth := (hsame entry.1 entry.2).mp (keeps_cons.mpr (.inl ⟨rfl, rfl⟩))
          have hback := (hsame other.1 other.2).mpr (keeps_cons.mpr (.inl ⟨rfl, rfl⟩))
          rw [keeps_cons] at hforth hback
          -- If one head stood in front of the other, the other list would keep nothing for it.
          have hhead : entry.1.steps = other.1.steps := by
            rcases before_or entry.1 other.1 with hbefore | hsteps | hbefore
            · rcases hforth with ⟨hsteps, -⟩ | hkeeps
              · exact hsteps.symm
              · exact absurd hkeeps (not_keeps_of_before hother (.inr hbefore))
            · exact hsteps
            · rcases hback with ⟨hsteps, -⟩ | hkeeps
              · exact hsteps
              · exact absurd hkeeps (not_keeps_of_before hentry (.inr hbefore))
          have hvalue : entry.2 = other.2 := by
            rcases hforth with ⟨-, hvalue⟩ | hkeeps
            · exact hvalue.symm
            · exact absurd hkeeps (not_keeps_of_before hother (.inl hhead))
          have htails : ∀ path value, Keeps entries path value ↔ Keeps others path value := by
            intro path value
            by_cases hpath : entry.1.steps = path.steps
            · exact iff_of_false (not_keeps_of_before hentry (.inl hpath.symm))
                (not_keeps_of_before hother (.inl (hpath.symm.trans hhead)))
            · have hpath' : other.1.steps ≠ path.steps := hhead ▸ hpath
              simpa [keeps_cons, hpath, hpath'] using hsame path value
          rw [List.map_cons, List.map_cons, hvalue, ih hrest hlater htails]

end Keeps

/-! ## One write -/

section Write

variable {path other : Path} {new value : α} {entries : List (Path × α)}

theorem path_of_mem_insertEntry {entry : Path × α} (hmem : entry ∈ insertEntry path new entries) :
    entry.1.steps = path.steps ∨ ∃ old ∈ entries, old.1 = entry.1 := by
  induction entries with
  | nil =>
      rw [List.mem_singleton.mp hmem]
      exact .inl rfl
  | cons first entries ih =>
      obtain ⟨key, old⟩ := first
      simp only [insertEntry] at hmem
      cases horder : path.compare key with
      | lt =>
          simp only [horder, List.mem_cons] at hmem
          rcases hmem with rfl | rfl | hmem
          · exact .inl rfl
          · exact .inr ⟨_, .head _, rfl⟩
          · exact .inr ⟨entry, .tail _ hmem, rfl⟩
      | eq =>
          simp only [horder, List.mem_cons] at hmem
          rcases hmem with rfl | hmem
          · exact .inr ⟨_, .head _, rfl⟩
          · exact .inr ⟨entry, .tail _ hmem, rfl⟩
      | gt =>
          simp only [horder, List.mem_cons] at hmem
          rcases hmem with rfl | hmem
          · exact .inr ⟨_, .head _, rfl⟩
          · rcases ih hmem with hpath | ⟨earlier, hearlier, hpath⟩
            · exact .inl hpath
            · exact .inr ⟨earlier, .tail _ hearlier, hpath⟩

theorem Ascending.insertEntry (hascending : Ascending entries) (path : Path) (new : α) :
    Ascending (insertEntry path new entries) := by
  induction entries with
  | nil => exact List.pairwise_singleton ..
  | cons first entries ih =>
      obtain ⟨key, old⟩ := first
      obtain ⟨hfirst, hrest⟩ := List.pairwise_cons.mp hascending
      simp only [PathMap.insertEntry]
      cases horder : path.compare key with
      | lt =>
          refine List.pairwise_cons.mpr ⟨?_, hascending⟩
          intro entry hmem
          rcases List.mem_cons.mp hmem with rfl | hmem
          · exact horder
          · exact before_trans horder (hfirst entry hmem)
      | eq => exact List.pairwise_cons.mpr ⟨hfirst, hrest⟩
      | gt =>
          refine List.pairwise_cons.mpr ⟨?_, ih hrest⟩
          intro entry hmem
          rcases path_of_mem_insertEntry hmem with hpath | ⟨earlier, hearlier, hpath⟩
          · exact (before_congr rfl hpath.symm).mp (OrientedCmp.lt_of_gt horder)
          · exact hpath ▸ hfirst earlier hearlier

/-- A write changes what is kept for its path, and nothing else. -/
theorem keeps_insertEntry (hascending : Ascending entries) :
    Keeps (insertEntry path new entries) other value ↔
      if path.steps = other.steps then new = value else Keeps entries other value := by
  induction entries with
  | nil => simp [insertEntry, Keeps]
  | cons first entries ih =>
      obtain ⟨key, old⟩ := first
      obtain ⟨hfirst, hrest⟩ := List.pairwise_cons.mp hascending
      simp only [insertEntry]
      cases horder : path.compare key with
      | lt =>
          have hbehind : ∀ entry ∈ (key, old) :: entries, path.Before entry.1 := by
            intro entry hmem
            rcases List.mem_cons.mp hmem with rfl | hmem
            · exact horder
            · exact before_trans horder (hfirst entry hmem)
          by_cases hpath : path.steps = other.steps
          · rw [keeps_cons, or_iff_left (not_keeps_of_before hbehind (.inl hpath.symm))]
            simp [hpath]
          · rw [keeps_cons]
            simp [hpath]
      | eq =>
          have hkey : path.steps = key.steps := same_iff.mp (Path.compare_eq_iff.mp horder)
          by_cases hpath : path.steps = other.steps
          · rw [keeps_cons,
              or_iff_left (not_keeps_of_before hfirst (.inl (hpath.symm.trans hkey)))]
            simp [← hkey, hpath]
          · simp [keeps_cons, ← hkey, hpath]
      | gt =>
          have hkey : key.steps ≠ path.steps := steps_ne_of_before (OrientedCmp.lt_of_gt horder)
          simp only [keeps_cons, ih hrest]
          by_cases hpath : path.steps = other.steps
          · simp [← hpath, hkey]
          · simp [hpath]

end Write

/-! ## All writes -/

theorem entries_ofWrites_concat (writes : List (Path × α)) (write : Path × α) :
    (ofWrites (writes ++ [write])).entries =
      insertEntry write.1 write.2 (ofWrites writes).entries := by
  simp [ofWrites, insert]

/-- A map that was written to has its entries in order. -/
theorem ascending_ofWrites (writes : List (Path × α)) : Ascending (ofWrites writes).entries := by
  induction writes using List.reverseRecOn with
  | nil => exact .nil
  | append_singleton writes write ih =>
      rw [entries_ofWrites_concat]
      exact ih.insertEntry write.1 write.2

/-- One more write takes the place of the earlier ones to its path. -/
theorem lastPerPath_concat (writes : List (Path × α)) (write : Path × α) :
    lastPerPath (writes ++ [write]) =
      (lastPerPath writes).filter (fun earlier => !write.1.same earlier.1) ++ [write] := by
  induction writes with
  | nil => rfl
  | cons first writes ih =>
      rw [List.cons_append, lastPerPath, lastPerPath, List.any_append, ih]
      cases hlater : writes.any (·.1.same first.1) with
      | true => simp
      | false => cases hwrite : write.1.same first.1 <;> simp [hwrite]

theorem keeps_filter {path : Path} {entries : List (Path × α)} {other : Path} {value : α} :
    Keeps (entries.filter fun entry => !path.same entry.1) other value ↔
      path.steps ≠ other.steps ∧ Keeps entries other value := by
  constructor
  · rintro ⟨entry, hmem, hsteps, hvalue⟩
    obtain ⟨hentry, hdiff⟩ := List.mem_filter.mp hmem
    simp only [Path.same, hsteps, Bool.not_eq_true', decide_eq_false_iff_not] at hdiff
    exact ⟨hdiff, entry, hentry, hsteps, hvalue⟩
  · rintro ⟨hdiff, entry, hentry, hsteps, hvalue⟩
    refine ⟨entry, List.mem_filter.mpr ⟨hentry, ?_⟩, hsteps, hvalue⟩
    simpa [Path.same, hsteps] using hdiff

/-- One more write replaces what was written to its path, and nothing else. -/
theorem keeps_lastPerPath_concat (writes : List (Path × α)) (write : Path × α) (path : Path)
    (value : α) :
    Keeps (lastPerPath (writes ++ [write])) path value ↔
      if write.1.steps = path.steps then write.2 = value
      else Keeps (lastPerPath writes) path value := by
  rw [lastPerPath_concat, keeps_append, keeps_filter, keeps_cons]
  by_cases hpath : write.1.steps = path.steps <;> simp [hpath, Keeps]

theorem mem_of_mem_lastPerPath {writes : List (Path × α)} {write : Path × α}
    (hmem : write ∈ lastPerPath writes) : write ∈ writes := by
  induction writes with
  | nil => exact hmem
  | cons first writes ih =>
      simp only [lastPerPath] at hmem
      split at hmem
      next => exact .tail _ (ih hmem)
      next =>
        rcases List.mem_cons.mp hmem with rfl | hmem
        · exact .head _
        · exact .tail _ (ih hmem)

/-- No two of the last writes are to the same path. -/
theorem pairwise_lastPerPath (writes : List (Path × α)) :
    (lastPerPath writes).Pairwise fun a b => a.1.steps ≠ b.1.steps := by
  induction writes with
  | nil => exact .nil
  | cons first writes ih =>
      rw [lastPerPath]
      split
      next => exact ih
      next hlast =>
        refine List.pairwise_cons.mpr ⟨?_, ih⟩
        intro write hmem hsteps
        refine hlast (List.any_eq_true.mpr ⟨write, mem_of_mem_lastPerPath hmem, ?_⟩)
        exact same_iff.mpr hsteps.symm

theorem ascending_inPathOrder (writes : List (Path × α)) :
    Ascending (inPathOrder (lastPerPath writes)) := by
  have : TransCmp fun a b : Path × α => a.1.compare b.1 := transCmp_on Path.compare Prod.fst
  have hperm : (inPathOrder (lastPerPath writes)).Perm (lastPerPath writes) :=
    List.mergeSort_perm ..
  have hdiff : (inPathOrder (lastPerPath writes)).Pairwise fun a b => a.1.steps ≠ b.1.steps :=
    (hperm.pairwise_iff fun hsteps => hsteps.symm).mpr (pairwise_lastPerPath writes)
  exact hdiff.imp₂ (fun _ _ hsteps hle => Path.before_of_steps_ne hsteps hle)
    (pairwise_sortBy (fun a b : Path × α => a.1.compare b.1) (lastPerPath writes))

/-- A map keeps what was written last to each path. -/
theorem keeps_ofWrites (writes : List (Path × α)) (path : Path) (value : α) :
    Keeps (ofWrites writes).entries path value ↔ Keeps (lastPerPath writes) path value := by
  induction writes using List.reverseRecOn with
  | nil => exact Iff.rfl
  | append_singleton writes write ih =>
      rw [entries_ofWrites_concat, keeps_insertEntry (ascending_ofWrites writes),
        keeps_lastPerPath_concat, ih]

/-- A map holds the values that were written last, in the order of the paths. -/
theorem values_ofWrites (writes : List (Path × α)) :
    (ofWrites writes).values = (inPathOrder (lastPerPath writes)).map Prod.snd := by
  have hperm : (inPathOrder (lastPerPath writes)).Perm (lastPerPath writes) :=
    List.mergeSort_perm ..
  refine values_eq_of_keeps (ascending_ofWrites writes) (ascending_inPathOrder writes) ?_
  intro path value
  rw [keeps_ofWrites, keeps_of_perm hperm]

end LiteralAudit.PathMap
