import LiteralAudit.Proofs.Path.Below
import Mathlib.Data.List.Nodup

/-!
# Places in a tree

A tree is well formed if the entries of each of its directories have different names, and names that
a file system admits.  In such a tree, going through all entries finds each file once, at the place
where it is looked up (`FileTree.mem_filePlaces`, `FileTree.nodup_filePlaces`).
-/

namespace LiteralAudit

/-! ## Looking up -/

namespace FileTree

/-- A place below a place is looked up in two steps. -/
theorem get?_append (place inner : Location) (tree : FileTree) :
    tree.get? (place ++ inner) = tree.get? place >>= get? inner := by
  induction place generalizing tree with
  | nil => rfl
  | cons name place ih =>
      simp only [List.cons_append, get?]
      cases DirectoryEntries.get? name tree.entries with
      | none => rfl
      | some sub => exact ih sub

theorem get?_cons_directory (name : FileName) (place : Location) (entries : DirectoryEntries) :
    get? (name :: place) (.directory entries) =
      DirectoryEntries.get? name entries >>= get? place := rfl

theorem get?_of_append {tree sub : FileTree} {place inner : Location}
    (hsub : tree.get? place = some sub) : tree.get? (place ++ inner) = sub.get? inner := by
  rw [get?_append, hsub]
  rfl

/-- Only a directory has something below it. -/
theorem get?_directory {tree sub : FileTree} {place inner : Location} (hinner : inner ≠ [])
    (hsub : tree.get? (place ++ inner) = some sub) :
    ∃ entries, tree.get? place = some (.directory entries) := by
  rw [get?_append] at hsub
  obtain ⟨outer, houter, hget⟩ := Option.bind_eq_some_iff.mp hsub
  obtain ⟨name, rest, rfl⟩ := List.exists_cons_of_ne_nil hinner
  cases outer with
  | directory entries => exact ⟨entries, houter⟩
  | _ => cases hget

/-! ## Well-formed trees -/

mutual

/-- Whether the entries of each directory have different names, and only such as a file system
admits. -/
def isWellFormed : FileTree → Bool
  | .file _ => true
  | .link _ => true
  | .directory entries => decide (entries.map Prod.fst).Nodup && areWellFormed entries

/-- Whether some entries have names that a file system admits and their trees are well formed. -/
def areWellFormed : DirectoryEntries → Bool
  | [] => true
  | (name, tree) :: entries =>
      decide (IsEntryName name) && isWellFormed tree && areWellFormed entries

end

theorem areWellFormed_cons {name : FileName} {tree : FileTree} {entries : DirectoryEntries} :
    areWellFormed ((name, tree) :: entries) = true ↔
      IsEntryName name ∧ tree.isWellFormed = true ∧ areWellFormed entries = true := by
  simp [areWellFormed, and_assoc]

theorem isWellFormed_directory {entries : DirectoryEntries} :
    isWellFormed (.directory entries) = true ↔
      (entries.map Prod.fst).Nodup ∧ areWellFormed entries = true := by
  simp [isWellFormed]

/-- What is found in well-formed entries is well formed, and its name is that of an entry. -/
theorem areWellFormed_get? {entries : DirectoryEntries} (hentries : areWellFormed entries = true)
    {name : FileName} {tree : FileTree} (hget : DirectoryEntries.get? name entries = some tree) :
    IsEntryName name ∧ tree.isWellFormed = true := by
  induction entries with
  | nil => cases hget
  | cons entry entries ih =>
      obtain ⟨other, sub⟩ := entry
      obtain ⟨hother, hsub, hrest⟩ := areWellFormed_cons.mp hentries
      simp only [DirectoryEntries.get?] at hget
      split at hget
      next hname =>
        cases hget
        exact ⟨hname ▸ hother, hsub⟩
      next => exact ih hrest hget

/-- Names that lead to something are names, and what they lead to is well formed. -/
theorem isWellFormed_get? {tree sub : FileTree} (htree : tree.isWellFormed = true)
    {place : Location} (hget : tree.get? place = some sub) :
    (∀ name ∈ place, IsEntryName name) ∧ sub.isWellFormed = true := by
  induction place generalizing tree with
  | nil =>
      cases hget
      exact ⟨by simp, htree⟩
  | cons name place ih =>
      cases tree with
      | directory entries =>
          rw [get?_cons_directory] at hget
          obtain ⟨inner, hinner, hget⟩ := Option.bind_eq_some_iff.mp hget
          obtain ⟨hname, hwell⟩ :=
            areWellFormed_get? (isWellFormed_directory.mp htree).2 hinner
          obtain ⟨hplace, hsub⟩ := ih hwell hget
          exact ⟨List.forall_mem_cons.mpr ⟨hname, hplace⟩, hsub⟩
      | _ => cases hget

/-! ## All files -/

mutual

/-- The places of the files of a tree, as they are come upon. -/
def filePlaces : FileTree → List Location
  | .file _ => [[]]
  | .link _ => []
  | .directory entries => filePlacesOfEntries entries

/-- The places of the files of some entries. -/
def filePlacesOfEntries : DirectoryEntries → List Location
  | [] => []
  | (name, tree) :: entries => (filePlaces tree).map (name :: ·) ++ filePlacesOfEntries entries

end

/-- A file is at a place. -/
def HasFile (tree : FileTree) (place : Location) : Prop :=
  ∃ bytes, tree.get? place = some (.file bytes)

theorem hasFile_append {tree sub : FileTree} {place inner : Location}
    (hsub : tree.get? place = some sub) : tree.HasFile (place ++ inner) ↔ sub.HasFile inner := by
  rw [HasFile, HasFile, get?_of_append hsub]

/-- The names that lead to a file are names. -/
theorem HasFile.isEntryName {tree : FileTree} {place inner : Location}
    (hfile : tree.HasFile (place ++ inner)) (htree : tree.isWellFormed = true) :
    ∀ name ∈ inner, IsEntryName name := by
  obtain ⟨bytes, hget⟩ := hfile
  intro name hmem
  exact (isWellFormed_get? htree hget).1 name (List.mem_append_right _ hmem)

theorem exists_name_of_mem {entries : DirectoryEntries} {place : Location}
    (hmem : place ∈ filePlacesOfEntries entries) :
    ∃ name ∈ entries.map Prod.fst, ∃ inner, place = name :: inner := by
  induction entries with
  | nil => cases hmem
  | cons entry entries ih =>
      obtain ⟨name, tree⟩ := entry
      rcases List.mem_append.mp hmem with hmem | hmem
      · obtain ⟨inner, -, rfl⟩ := List.mem_map.mp hmem
        exact ⟨name, .head _, inner, rfl⟩
      · obtain ⟨other, hother, inner, rfl⟩ := ih hmem
        exact ⟨other, .tail _ hother, inner, rfl⟩

theorem get?_eq_none {name : FileName} {entries : DirectoryEntries}
    (habsent : name ∉ entries.map Prod.fst) : DirectoryEntries.get? name entries = none := by
  induction entries with
  | nil => rfl
  | cons entry entries ih =>
      simp only [List.map_cons, List.mem_cons, not_or] at habsent
      rw [DirectoryEntries.get?, if_neg fun h => habsent.1 h.symm, ih habsent.2]

mutual

/-- The places of the files are listed completely, and nothing else is listed. -/
theorem mem_filePlaces : ∀ {tree : FileTree}, tree.isWellFormed = true →
    ∀ place, place ∈ tree.filePlaces ↔ tree.HasFile place
  | .file bytes, _, place => by
      cases place with
      | nil => simp [filePlaces, HasFile, get?]
      | cons name place => simp [filePlaces, HasFile, get?, entries, DirectoryEntries.get?]
  | .link target, _, place => by
      cases place with
      | nil => simp [filePlaces, HasFile, get?]
      | cons name place => simp [filePlaces, HasFile, get?, entries, DirectoryEntries.get?]
  | .directory entries, hwell, place => by
      obtain ⟨hnodup, hentries⟩ := isWellFormed_directory.mp hwell
      exact mem_filePlacesOfEntries hnodup hentries place

theorem mem_filePlacesOfEntries : ∀ {entries : DirectoryEntries},
    (entries.map Prod.fst).Nodup → areWellFormed entries = true →
      ∀ place, place ∈ filePlacesOfEntries entries ↔ (directory entries).HasFile place
  | [], _, _, place => by
      cases place with
      | nil => simp [filePlacesOfEntries, HasFile, get?]
      | cons name place => simp [filePlacesOfEntries, HasFile, get?, entries, DirectoryEntries.get?]
  | (name, tree) :: entries, hnodup, hentries, place => by
      obtain ⟨-, htree, hrest⟩ := areWellFormed_cons.mp hentries
      obtain ⟨habsent, hnodup⟩ := List.nodup_cons.mp hnodup
      have ihEntries := mem_filePlacesOfEntries hnodup hrest
      rw [filePlacesOfEntries, List.mem_append, ihEntries, List.mem_map]
      cases place with
      | nil => simp [HasFile, get?]
      | cons other inner =>
          simp only [HasFile, get?_cons_directory, DirectoryEntries.get?, List.cons.injEq]
          by_cases hname : name = other
          · subst hname
            rw [get?_eq_none habsent, if_pos rfl]
            simp [mem_filePlaces htree, HasFile]
          · simp [hname]

end

mutual

/-- No place of a file is listed twice, since the names of the entries of a directory differ. -/
theorem nodup_filePlaces : ∀ {tree : FileTree}, tree.isWellFormed = true → tree.filePlaces.Nodup
  | .file _, _ => List.nodup_singleton _
  | .link _, _ => List.nodup_nil
  | .directory _, hwell =>
      nodup_filePlacesOfEntries (isWellFormed_directory.mp hwell).1
        (isWellFormed_directory.mp hwell).2

theorem nodup_filePlacesOfEntries : ∀ {entries : DirectoryEntries},
    (entries.map Prod.fst).Nodup → areWellFormed entries = true →
      (filePlacesOfEntries entries).Nodup
  | [], _, _ => List.nodup_nil
  | (name, tree) :: entries, hnodup, hentries => by
      obtain ⟨-, htree, hrest⟩ := areWellFormed_cons.mp hentries
      obtain ⟨habsent, hnodup⟩ := List.nodup_cons.mp hnodup
      have hfirst : ((filePlaces tree).map (name :: ·)).Nodup :=
        (nodup_filePlaces htree).map fun _ _ h => (List.cons.inj h).2
      refine List.nodup_append.mpr ⟨hfirst, nodup_filePlacesOfEntries hnodup hrest, ?_⟩
      intro place hmem other hother heq
      obtain ⟨inner, -, rfl⟩ := List.mem_map.mp hmem
      obtain ⟨first, hname, _, rfl⟩ := exists_name_of_mem hother
      exact habsent ((List.cons.inj heq).1 ▸ hname)

end

end FileTree

end LiteralAudit
