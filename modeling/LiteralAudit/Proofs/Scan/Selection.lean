import LiteralAudit.Proofs.Scan.Places
import LiteralAudit.Proofs.Sorting
import Mathlib.Data.List.Sort

/-!
# What a scan selects

A scan of a directory gives the paths of the files in it that it selects, in the order of paths
(`Scanner.scan_eq`).  In a well-formed tree different files have paths with different steps, so no
two paths of a scan compare as equal (`Scanner.scan_increasing`), and the scan is told by its
members (`Scanner.mem_scan`).
-/

namespace LiteralAudit

open Std (TransCmp OrientedCmp LawfulEqCmp)

/-! ## Sorted paths -/

namespace Path

/-- One path stands in front of another. -/
def Before (a b : Path) : Prop := a.compare b = .lt

instance : Std.Antisymm Before where
  antisymm a b hab hba := by
    rw [Before, OrientedCmp.gt_of_lt hab] at hba
    cases hba

instance : Std.Irrefl Before where
  irrefl a haa := by
    rw [Before, compare_eq_iff.mpr (by simp [same])] at haa
    cases haa

theorem before_of_steps_ne {a b : Path} (hsteps : a.steps ≠ b.steps)
    (hle : (a.compare b != .gt) = true) : a.Before b := by
  cases horder : a.compare b with
  | lt => exact horder
  | eq => exact absurd (by simpa [same] using compare_eq_iff.mp horder) hsteps
  | gt => simp [horder] at hle

end Path

theorem sortPaths_perm (paths : List Path) : (sortPaths paths).Perm paths :=
  List.mergeSort_perm ..

theorem pairwise_sortPaths (paths : List Path) :
    (sortPaths paths).Pairwise fun a b => (a.compare b != .gt) = true :=
  pairwise_sortBy Path.compare paths

/-- Paths with different steps are in increasing order when they are sorted. -/
theorem sortPaths_increasing {paths : List Path} (hnodup : (paths.map Path.steps).Nodup) :
    (sortPaths paths).Pairwise Path.Before := by
  have hdiff : ((sortPaths paths).map Path.steps).Nodup :=
    ((sortPaths_perm paths).map _).nodup_iff.mpr hnodup
  exact (List.pairwise_map.mp hdiff).imp₂ (fun _ _ => Path.before_of_steps_ne)
    (pairwise_sortPaths paths)

/-! ## Selected files -/

namespace Scanner

/-- Whether a scan of a directory selects the file that names lead to. -/
def selects (scanner : Scanner) (system : FileSystem) (user : UserPlaces) (location : Location)
    (root : Path) (names : Location) : Bool :=
  let walk := IgnoreWalk.ofSystem system user
  scanner.filter.passes root names &&
    (!scanner.respectsIgnoreFiles ||
      (!meansStandardInput root &&
        walk.keepsBelow [walk.level location root] location root names))

variable {scanner : Scanner} {system : FileSystem} {user : UserPlaces} {location : Location}
  {root : Path} {entries : DirectoryEntries}

@[simp] theorem selects_plain (filter : FileFilter) :
    (Scanner.mk filter false).selects system user location root = filter.passes root := by
  funext names
  simp [selects]

/-- The walk without ignore files finds what the scan selects. -/
theorem plainFiles_eq (user : UserPlaces) (location : Location)
    (henters : scanner.filter.enters root = true)
    (hplain : scanner.respectsIgnoreFiles = false) :
    plainFiles scanner.filter system root (.directory entries) =
      ((FileTree.filePlacesOfEntries entries).filter
        (scanner.selects system user location root)).map root.below := by
  rw [plainFiles, FileFilter.filesOfEntries_eq _ henters]
  refine congrArg _ (List.filter_congr fun place _ => ?_)
  simp [selects, hplain]

/-- So does the walk with ignore files, although it asks the filter from the file upwards. -/
theorem respectfulFiles_eq (henters : scanner.filter.enters root = true)
    (hrespects : scanner.respectsIgnoreFiles = true)
    (hnames : ∀ place ∈ FileTree.filePlacesOfEntries entries, ∀ name ∈ place, IsEntryName name) :
    respectfulFiles scanner.filter system user location root (.directory entries) =
      ((FileTree.filePlacesOfEntries entries).filter
        (scanner.selects system user location root)).map root.below := by
  rw [respectfulFiles]
  split
  next hinput => simp [selects, hrespects, hinput]
  next hinput =>
    rw [keptFiles, IgnoreWalk.filesOfEntries_eq, List.filter_map, List.filter_map,
      List.filter_filter, List.filter_filter]
    refine congrArg _ (List.filter_congr fun place hmem => Bool.eq_iff_iff.mpr ?_)
    obtain ⟨name, -, inner, rfl⟩ := FileTree.exists_name_of_mem hmem
    have hup := scanner.filter.entersUpTo_below root (List.cons_ne_nil name inner) (hnames _ hmem)
    simp only [selects, hrespects, hinput, Function.comp_apply, Bool.and_eq_true, hup,
      FileFilter.passes_iff, Bool.not_true, Bool.false_or, Bool.not_false, true_and]
    constructor
    · rintro ⟨⟨hwants, hbetween⟩, hkept⟩
      refine ⟨⟨fun before hstarts hne => ?_, hwants⟩, hkept⟩
      by_cases hbefore : before = []
      · rw [hbefore]
        exact henters
      · exact hbetween before hstarts hbefore hne
    · rintro ⟨⟨hbetween, hwants⟩, hkept⟩
      exact ⟨⟨hwants, fun before hstarts _ hne => hbetween before hstarts hne⟩, hkept⟩

section Directory

variable (hwell : system.tree.isWellFormed = true) (hplace : system.place? root = .ok location)
  (hdirectory : system.tree.get? location = some (.directory entries))

include hwell hdirectory in
theorem isEntryName_of_mem {place : Location} (hmem : place ∈ FileTree.filePlacesOfEntries entries)
    {name : FileName} (hname : name ∈ place) : IsEntryName name := by
  have hsub := (FileTree.isWellFormed_get? hwell hdirectory).2
  obtain ⟨bytes, hfile⟩ := (FileTree.mem_filePlaces hsub place).mp hmem
  exact (FileTree.isWellFormed_get? hsub hfile).1 name hname

include hwell hplace hdirectory

/-- A scan of a directory gives the paths of the files that it selects, sorted. -/
theorem scan_eq : scanner.scan system user root =
    sortPaths (((FileTree.filePlacesOfEntries entries).filter
      (scanner.selects system user location root)).map root.below) := by
  simp only [scan, hplace, hdirectory, FileTree.isDirectory, Bool.true_and]
  cases henters : scanner.filter.enters root with
  | false =>
      have hnone : (FileTree.filePlacesOfEntries entries).filter
          (scanner.selects system user location root) = [] := by
        refine List.filter_eq_nil_iff.mpr fun place hmem => ?_
        obtain ⟨name, -, inner, rfl⟩ := FileTree.exists_name_of_mem hmem
        simp [selects, FileFilter.passes, henters]
      rw [hnone]
      simp [sortPaths]
  | true =>
      cases hrespects : scanner.respectsIgnoreFiles with
      | false => simp [plainFiles_eq user location henters hrespects]
      | true =>
          simp [respectfulFiles_eq henters hrespects fun place hmem name =>
            isEntryName_of_mem hwell hdirectory hmem]

/-- The files of a scan are those that it selects. -/
theorem mem_scan {path : Path} : path ∈ scanner.scan system user root ↔
    ∃ names, names ≠ [] ∧ system.tree.HasFile (location ++ names) ∧
      scanner.selects system user location root names = true ∧ path = root.below names := by
  have hsub := (FileTree.isWellFormed_get? hwell hdirectory).2
  rw [scan_eq hwell hplace hdirectory, (sortPaths_perm _).mem_iff, List.mem_map]
  refine exists_congr fun names => ?_
  rw [List.mem_filter, FileTree.hasFile_append hdirectory, ← FileTree.mem_filePlaces hsub]
  constructor
  · rintro ⟨⟨hmem, hselects⟩, rfl⟩
    obtain ⟨name, -, inner, rfl⟩ := FileTree.exists_name_of_mem hmem
    exact ⟨List.cons_ne_nil _ _, hmem, hselects, rfl⟩
  · rintro ⟨-, hmem, hselects, rfl⟩
    exact ⟨⟨hmem, hselects⟩, rfl⟩

/-- A file that passes the filter is found, if ignore files are not respected. -/
theorem mem_scan_of_passes {filter : FileFilter} (names : Location) (hsome : names ≠ [])
    (hfile : system.tree.HasFile (location ++ names)) (hpasses : filter.passes root names = true) :
    root.below names ∈ scan ⟨filter, false⟩ system user root := by
  refine (mem_scan hwell hplace hdirectory).mpr ⟨names, hsome, hfile, ?_, rfl⟩
  rwa [selects_plain]

/-- The path below a root is found only if the names themselves lead to such a file. -/
theorem below_mem_scan {filter : FileFilter} {names : Location}
    (hnames : ∀ name ∈ names, IsEntryName name) :
    root.below names ∈ scan ⟨filter, false⟩ system user root ↔
      system.tree.HasFile (location ++ names) ∧ names ≠ [] ∧
        filter.passes root names = true := by
  constructor
  · intro hmem
    obtain ⟨inner, hsome, hfile, hselects, hpath⟩ := (mem_scan hwell hplace hdirectory).mp hmem
    obtain rfl := Path.below_injective hnames (hfile.isEntryName hwell) rfl
      (congrArg Path.steps hpath)
    rw [selects_plain] at hselects
    exact ⟨hfile, hsome, hselects⟩
  · rintro ⟨hfile, hsome, hpasses⟩
    exact mem_scan_of_passes hwell hplace hdirectory names hsome hfile hpasses

/-- The paths of a scan are in strictly increasing order. -/
theorem scan_increasing : (scanner.scan system user root).Pairwise Path.Before := by
  have hsub := (FileTree.isWellFormed_get? hwell hdirectory).2
  rw [scan_eq hwell hplace hdirectory]
  refine sortPaths_increasing ?_
  rw [List.map_map]
  refine List.Nodup.map_on ?_ ((FileTree.nodup_filePlaces hsub).filter _)
  intro place hmem other hother hsteps
  exact Path.below_injective
    (fun name => isEntryName_of_mem hwell hdirectory (List.mem_of_mem_filter hmem))
    (fun name => isEntryName_of_mem hwell hdirectory (List.mem_of_mem_filter hother)) rfl hsteps

end Directory

end Scanner

end LiteralAudit
