import LiteralAudit.Proofs.Scan.Selection

/-!
# Scanning with ignore files

A scan that respects ignore files gives some of the paths that the plain scan of the same directory
gives, in the same order.  If no rule of an ignore file is about anything below the directory, it
gives all of them, unless the directory is spelled like the standard input, in which nothing is
found (`Scanner.respectful_scan`).  Where there are no ignore files there are no such rules
(`IgnoreWalk.silent_of_noIgnoreFiles`).
-/

namespace LiteralAudit

/-! ## Rules about nothing -/

/-- No rule decides about a path if none decides at any of the levels. -/
theorem IgnoreLevel.rule?_eq_none {levels : List IgnoreLevel} {user : IgnoreFile} {path : Path}
    {isDirectory : Bool} (hlevels : levels ≠ [])
    (hnone : ∀ level ∈ levels, rule? [level] user path isDirectory = none) :
    rule? levels user path isDirectory = none := by
  simp only [rule?, Option.orElse_eq_orElse, Option.orElse_eq_or, Option.or_eq_none_iff,
    List.findSome?_eq_none_iff, List.mem_singleton, forall_eq] at hnone ⊢
  obtain ⟨level, hmem⟩ := List.exists_mem_of_ne_nil levels hlevels
  exact ⟨fun level hmem => (hnone level hmem).1, fun level hmem => (hnone level hmem).2.1,
    fun level hmem => (hnone level hmem).2.2.1, (hnone level hmem).2.2.2⟩

namespace IgnoreWalk

/-- No rule of an ignore file is about anything below a directory. -/
def Silent (walk : IgnoreWalk) (tree : FileTree) (location : Location) (root : Path) : Prop :=
  ∀ outer inner sub, inner ≠ [] → tree.get? (location ++ outer ++ inner) = some sub →
    IgnoreLevel.rule? [walk.level (location ++ outer) (root.below outer)] walk.user
      (root.below (outer ++ inner)) sub.isDirectory = none

variable {walk : IgnoreWalk} {tree : FileTree} {location : Location} {root : Path}

/-- If no rule is about anything, every file below the root is kept. -/
theorem keepsBelow_of_silent (hsilent : walk.Silent tree location root) {names : Location}
    (hfile : tree.HasFile (location ++ names)) :
    walk.keepsBelow [walk.level location root] location root names = true := by
  refine (walk.keepsBelow_iff location root names).mpr fun inner hstarts hsome => ?_
  have hinner : ∃ sub, tree.get? (location ++ inner) = some sub ∧
      sub.isDirectory = decide (inner ≠ names) := by
    obtain ⟨bytes, hget⟩ := hfile
    obtain ⟨rest, rfl⟩ := hstarts
    by_cases hrest : rest = []
    · subst hrest
      exact ⟨_, by rwa [List.append_nil] at hget, by simp [FileTree.isDirectory]⟩
    · rw [← List.append_assoc] at hget
      obtain ⟨entries, hdirectory⟩ := FileTree.get?_directory hrest hget
      exact ⟨_, hdirectory, by simp [FileTree.isDirectory, hrest]⟩
  obtain ⟨sub, hsub, hkind⟩ := hinner
  rw [← hkind, ignores, IgnoreLevel.rule?_eq_none]
  · rfl
  · simpa [levelsAround] using hsome
  · intro level hmem
    obtain ⟨count, hcount, rfl⟩ := walk.mem_levelsAround.mp hmem
    have hrule := hsilent (inner.take count) (inner.drop count) sub
      (by simpa [List.drop_eq_nil_iff] using hcount)
    rw [List.append_assoc, List.take_append_drop] at hrule
    exact hrule hsub

end IgnoreWalk

/-! ## No ignore files -/

/-- There is no ignore file to be read in a directory or below it, and none of the user. -/
structure FileSystem.NoIgnoreFiles (system : FileSystem) (user : UserPlaces)
    (location : Location) : Prop where
  /-- There are no files with a name of ignore files. -/
  level : ∀ outer entries, system.tree.get? (location ++ outer) = some (.directory entries) →
    ∀ name ∈ ([".ignore", ".gitignore", ".git/info/exclude"] : List Text), ∀ bytes,
      FileSystem.read ⟨system.tree, location ++ outer⟩ (Path.ofText name) ≠ .ok bytes
  /-- There is no file where that of the user would be. -/
  user : ∀ path, GlobalIgnore.path? system user = some path → ∀ bytes,
    system.read path ≠ .ok bytes

theorem IgnoreFile.rule?_empty (anchor path : Path) (isDirectory : Bool) :
    (IgnoreFile.empty anchor).rule? path isDirectory = none := rfl

namespace IgnoreWalk

variable {system : FileSystem} {user : UserPlaces} {location : Location}

/-- Without a file of its own the user has no rules. -/
theorem user_of_noIgnoreFiles (hnone : system.NoIgnoreFiles user location) :
    (ofSystem system user).user = .empty ⟨[]⟩ := by
  show GlobalIgnore.file system user = _
  rw [GlobalIgnore.file]
  split
  next bytes hfound =>
    obtain ⟨path, hpath, hread⟩ := Option.map_eq_some_iff.mp hfound
    exact absurd hread (hnone.user path hpath bytes)
  next => rfl

theorem level_of_noIgnoreFiles (hnone : system.NoIgnoreFiles user location) {outer : Location}
    {entries : DirectoryEntries}
    (hdirectory : system.tree.get? (location ++ outer) = some (.directory entries)) (path : Path) :
    (ofSystem system user).level (location ++ outer) path =
      ⟨.empty path, .empty path, .empty path⟩ := by
  have hfile : ∀ name ∈ ([".ignore", ".gitignore", ".git/info/exclude"] : List Text),
      IgnoreLevel.file system.tree (location ++ outer) path name = .empty path := by
    intro name hname
    rw [IgnoreLevel.file]
    split
    next bytes hread => exact absurd hread (hnone.level outer entries hdirectory name hname bytes)
    next => rfl
  show IgnoreLevel.read system.tree (location ++ outer) path = _
  rw [IgnoreLevel.read, hfile ".ignore" (by simp), hfile ".gitignore" (by simp),
    hfile ".git/info/exclude" (by simp)]

/-- Without ignore files there are no rules. -/
theorem silent_of_noIgnoreFiles (hnone : system.NoIgnoreFiles user location) (root : Path) :
    (ofSystem system user).Silent system.tree location root := by
  intro outer inner sub hinner hsub
  obtain ⟨entries, hdirectory⟩ := FileTree.get?_directory hinner hsub
  rw [level_of_noIgnoreFiles hnone hdirectory, user_of_noIgnoreFiles hnone]
  simp [IgnoreLevel.rule?, IgnoreFile.rule?_empty]

end IgnoreWalk

/-! ## Both scans -/

namespace Scanner

open Text.Utf8 (encode)

variable {system : FileSystem} {location : Location} {root : Path} {entries : DirectoryEntries}

/-- What a scan with ignore files selects is selected without them. -/
theorem selects_plain_of_respectful {filter : FileFilter} {user : UserPlaces} {names : Location}
    (hselects : (Scanner.mk filter true).selects system user location root names = true) :
    (Scanner.mk filter false).selects system user location root names = true := by
  simp only [selects, Bool.and_eq_true] at hselects ⊢
  exact ⟨hselects.1, rfl⟩

section Directory

variable (filter : FileFilter) (user : UserPlaces) (hwell : system.tree.isWellFormed = true)
  (hplace : system.place? root = .ok location)
  (hdirectory : system.tree.get? location = some (.directory entries))

include hwell hplace hdirectory

/-- Respecting ignore files never adds a file, and keeps the order. -/
theorem respectful_sublist : (scan ⟨filter, true⟩ system user root).Sublist
    (scan ⟨filter, false⟩ system user root) := by
  have hfiles : ((FileTree.filePlacesOfEntries entries).filter
        ((Scanner.mk filter true).selects system user location root)).map root.below |>.Sublist
      (((FileTree.filePlacesOfEntries entries).filter
        ((Scanner.mk filter false).selects system user location root)).map root.below) :=
    (List.monotone_filter_right _ fun names => selects_plain_of_respectful).map _
  have hsubperm : (scan ⟨filter, true⟩ system user root).Subperm
      (scan ⟨filter, false⟩ system user root) := by
    rw [scan_eq hwell hplace hdirectory, scan_eq hwell hplace hdirectory]
    exact (sortPaths_perm _).subperm.trans (hfiles.subperm.trans (sortPaths_perm _).symm.subperm)
  exact List.sublist_of_subperm_of_pairwise hsubperm
    (scan_increasing hwell hplace hdirectory) (scan_increasing hwell hplace hdirectory)

/-- A root that means the standard input is not looked at, whatever the directory of that name
holds. -/
theorem respectful_standardInput (hinput : meansStandardInput root = true) :
    scan ⟨filter, true⟩ system user root = [] := by
  rw [scan_eq hwell hplace hdirectory]
  have hnone : (FileTree.filePlacesOfEntries entries).filter
      ((Scanner.mk filter true).selects system user location root) = [] := by
    refine List.filter_eq_nil_iff.mpr fun names _ => ?_
    simp [selects, hinput]
  rw [hnone]
  simp [sortPaths]

/-- If no rule is about anything below the root, respecting ignore files makes no difference. -/
theorem respectful_eq_plain (hinput : meansStandardInput root = false)
    (hsilent : (IgnoreWalk.ofSystem system user).Silent system.tree location root) :
    scan ⟨filter, true⟩ system user root = scan ⟨filter, false⟩ system user root := by
  have hsub := (FileTree.isWellFormed_get? hwell hdirectory).2
  rw [scan_eq hwell hplace hdirectory, scan_eq hwell hplace hdirectory]
  refine congrArg (fun names => sortPaths (names.map root.below)) (List.filter_congr ?_)
  intro names hmem
  have hbelow := (FileTree.mem_filePlaces hsub names).mp hmem
  have hfile := (FileTree.hasFile_append hdirectory).mpr hbelow
  simp [selects, hinput, IgnoreWalk.keepsBelow_of_silent hsilent hfile]

/-- A scan that respects ignore files gives a part of what the plain scan gives.  It gives all of it
if no rule is about anything below the directory, provided that the directory does not mean the
standard input. -/
theorem respectful_scan :
    (scan ⟨filter, true⟩ system user root).Sublist (scan ⟨filter, false⟩ system user root) ∧
      ((IgnoreWalk.ofSystem system user).Silent system.tree location root →
        (scan ⟨filter, true⟩ system user root = scan ⟨filter, false⟩ system user root ↔
          meansStandardInput root = false ∨ scan ⟨filter, false⟩ system user root = [])) ∧
      (system.NoIgnoreFiles user location →
        (IgnoreWalk.ofSystem system user).Silent system.tree location root) := by
  refine ⟨respectful_sublist filter user hwell hplace hdirectory, fun hsilent => ⟨?_, ?_⟩,
    fun hnone => IgnoreWalk.silent_of_noIgnoreFiles hnone root⟩
  · intro heq
    cases hinput : meansStandardInput root with
    | false => exact Or.inl rfl
    | true =>
        rw [← heq]
        exact Or.inr (respectful_standardInput filter user hwell hplace hdirectory hinput)
  · rintro (hinput | hnothing)
    · exact respectful_eq_plain filter user hwell hplace hdirectory hinput hsilent
    · have hsublist := respectful_sublist filter user hwell hplace hdirectory
      rw [hnothing] at hsublist ⊢
      exact List.sublist_nil.mp hsublist

end Directory

/-- A directory that is called like the standard input, with a file. -/
def dashedSystem : FileSystem :=
  ⟨.directory [(encode "-", .directory [(encode "a.css", .file [])])], []⟩

theorem noIgnoreFiles_dashedSystem : dashedSystem.NoIgnoreFiles .unknown [encode "-"] where
  level := by
    intro outer entries hdirectory name hname bytes hread
    cases outer with
    | nil =>
        have hmissing : ∀ name ∈ ([".ignore", ".gitignore", ".git/info/exclude"] : List Text),
            FileSystem.read ⟨dashedSystem.tree, [encode "-"]⟩ (.ofText name) = .error .missing := by
          simp only [List.forall_mem_cons]
          exact ⟨by cbv, by cbv, by cbv, by simp⟩
        cases (hmissing name hname).symm.trans hread
    | cons other inner =>
        change (if encode "a.css" = other then some (FileTree.file []) else none).bind
          (FileTree.get? inner) = some (.directory entries) at hdirectory
        split at hdirectory
        next => cases inner <;> cases hdirectory
        next => cases hdirectory
  user := nofun

theorem respectful_scan_dot_dash :
    dashedSystem.tree.isWellFormed = true ∧
      dashedSystem.place? (.ofText "./-") = .ok [encode "-"] ∧
      dashedSystem.tree.get? [encode "-"] = some (.directory [(encode "a.css", .file [])]) ∧
      dashedSystem.NoIgnoreFiles .unknown [encode "-"] ∧
      scan ⟨⟨["css"], [], []⟩, true⟩ dashedSystem .unknown (.ofText "./-") =
        scan ⟨⟨["css"], [], []⟩, false⟩ dashedSystem .unknown (.ofText "./-") := by
  have hwell : dashedSystem.tree.isWellFormed = true := by decide
  have hplace : dashedSystem.place? (.ofText "./-") = .ok [encode "-"] := by cbv
  have hdirectory : dashedSystem.tree.get? [encode "-"] =
      some (.directory [(encode "a.css", .file [])]) := rfl
  obtain ⟨-, hequal, hsilent⟩ :=
    respectful_scan ⟨["css"], [], []⟩ .unknown hwell hplace hdirectory
  exact ⟨hwell, hplace, hdirectory, noIgnoreFiles_dashedSystem,
    (hequal (hsilent noIgnoreFiles_dashedSystem)).mpr (Or.inl (by decide))⟩

/-- A directory that is spelled like the standard input is not scanned, although it holds a file and
no ignore file. -/
theorem not_forall_respectful_eq_plain :
    ¬ ∀ (filter : FileFilter) (system : FileSystem) (user : UserPlaces) (root : Path)
      (location : Location) (entries : DirectoryEntries), system.tree.isWellFormed = true →
      system.place? root = .ok location →
      system.tree.get? location = some (.directory entries) →
      (scan ⟨filter, true⟩ system user root).Sublist (scan ⟨filter, false⟩ system user root) ∧
        (system.NoIgnoreFiles user location →
          scan ⟨filter, true⟩ system user root = scan ⟨filter, false⟩ system user root) := by
  intro halways
  have hwell : dashedSystem.tree.isWellFormed = true := by decide
  have hplace : dashedSystem.place? (.ofText "-") = .ok [encode "-"] := by cbv
  have hdirectory : dashedSystem.tree.get? [encode "-"] =
      some (.directory [(encode "a.css", .file [])]) := rfl
  obtain ⟨-, hequal⟩ := halways ⟨[], [], []⟩ dashedSystem .unknown (.ofText "-") [encode "-"]
    [(encode "a.css", .file [])] hwell hplace hdirectory
  have hrespectful : scan ⟨⟨[], [], []⟩, true⟩ dashedSystem .unknown (.ofText "-") = [] :=
    respectful_standardInput _ _ hwell hplace hdirectory (by decide)
  have hplain : .ofText "-/a.css" ∈
      scan ⟨⟨[], [], []⟩, false⟩ dashedSystem .unknown (.ofText "-") :=
    mem_scan_of_passes hwell hplace hdirectory [encode "a.css"] (List.cons_ne_nil _ _) ⟨[], rfl⟩
      (by decide)
  rw [← hequal noIgnoreFiles_dashedSystem, hrespectful] at hplain
  cases hplain

end Scanner

end LiteralAudit
