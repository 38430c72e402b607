import LiteralAudit.Proofs.Audit.Totals
import LiteralAudit.Proofs.FileSystem.Differing
import LiteralAudit.Proofs.Scan.Selection
import LiteralAudit.Run.Audit

/-!
# Files do not influence each other

If two trees differ in one file only, a scan of a directory without ignore files gives the same
other paths in both, and each of them is read and audited alike.  So the summaries of the two audits
keep the same audits and failures for all other paths, and they count the same number of files, but
for that one file (`AuditRun.framed_auditTree`).
-/

namespace LiteralAudit

/-! ## Writing to another path -/

namespace PathMap

variable {α : Type}

theorem compare_beq_eq (a b : Path) : (a.compare b == .eq) = a.same b := by
  rw [Bool.eq_iff_iff, beq_iff_eq, Path.compare_eq_iff]

theorem get?_insert_of_not_same (map : PathMap α) {path other : Path} (value : α)
    (hdiff : other.same path = false) : (map.insert path value).get? other = map.get? other := by
  obtain ⟨entries⟩ := map
  refine congrArg (Option.map Prod.snd) ?_
  simp only [insert, compare_beq_eq]
  induction entries with
  | nil => simp [insertEntry, hdiff]
  | cons entry entries ih =>
      obtain ⟨key, old⟩ := entry
      simp only [insertEntry]
      cases horder : path.compare key with
      | lt => simp [hdiff]
      | eq =>
          have hkey : path.steps = key.steps := by
            simpa [Path.same] using Path.compare_eq_iff.mp horder
          rw [Path.same, hkey, ← Path.same] at hdiff
          simp [hdiff]
      | gt => simp only [List.find?_cons, ih]

end PathMap

namespace Summary

/-- Two summaries keep the same audits and failures for all paths but one. -/
def SameExceptAt (summary other : Summary) (path : Path) : Prop :=
  ∀ key, key.same path = false →
    summary.files.get? key = other.files.get? key ∧
      summary.failures.get? key = other.failures.get? key

/-- The outcome of a path changes a summary at this path alone. -/
theorem sameExceptAt_insertOutcome (summary : Summary) (outcome : Outcome) :
    SameExceptAt (summary.insertOutcome outcome) summary outcome.path := by
  intro key hdiff
  rw [insertOutcome]
  split
  next audit _ =>
    split
    next => exact ⟨rfl, rfl⟩
    next => exact ⟨PathMap.get?_insert_of_not_same _ audit hdiff, rfl⟩
  next failure _ => exact ⟨rfl, PathMap.get?_insert_of_not_same _ failure hdiff⟩

theorem foldl_count (summary : Summary) (count : Nat) (outcomes : List Outcome) :
    outcomes.foldl insertOutcome { summary with scanned := count } =
      { outcomes.foldl insertOutcome summary with scanned := count } := by
  induction outcomes generalizing summary with
  | nil => rfl
  | cons outcome outcomes ih =>
      have hstep : { summary with scanned := count }.insertOutcome outcome =
          { summary.insertOutcome outcome with scanned := count } := by
        simp only [insertOutcome]
        split
        next => split <;> rfl
        next => rfl
      rw [List.foldl_cons, hstep, ih, List.foldl_cons]

/-- One more outcome changes nothing for other paths. -/
theorem sameExceptAt_ofOutcomes_concat (outcomes : List Outcome) (last : Outcome) :
    SameExceptAt (ofOutcomes (outcomes ++ [last])) (ofOutcomes outcomes) last.path := by
  have hlast : ofOutcomes (outcomes ++ [last]) =
      { ofOutcomes outcomes with scanned := outcomes.length + 1 }.insertOutcome last := by
    rw [ofOutcomes, ofOutcomes, ← foldl_count, List.foldl_concat]
    simp
  rw [hlast]
  exact sameExceptAt_insertOutcome _ last

/-- Outcomes of paths in increasing order have different paths. -/
theorem distinctPaths_auditPaths {auditor : FileAuditor} {reader : FileReader} {paths : List Path}
    (hincreasing : paths.Pairwise Path.Before) :
    DistinctPaths (Outcome.auditPaths auditor reader paths) := by
  refine List.pairwise_map.mpr (hincreasing.imp fun {a b} hbefore => ?_)
  rw [← PathMap.compare_beq_eq, show a.compare b = .lt from hbefore]
  rfl

/-- Leaving a path out changes nothing for other paths. -/
theorem sameExceptAt_erase {auditor : FileAuditor} {reader : FileReader} {paths : List Path}
    (hincreasing : paths.Pairwise Path.Before) (path : Path) :
    SameExceptAt (ofOutcomes (Outcome.auditPaths auditor reader paths))
      (ofOutcomes (Outcome.auditPaths auditor reader (paths.erase path))) path := by
  by_cases hmem : path ∈ paths
  · have hperm : paths.Perm (paths.erase path ++ [path]) :=
      (List.perm_cons_erase hmem).trans (List.perm_append_singleton ..).symm
    have houtcomes : (Outcome.auditPaths auditor reader paths).Perm
        (Outcome.auditPaths auditor reader (paths.erase path) ++
          [⟨path, Outcome.auditPath auditor reader path⟩]) := by
      simpa [Outcome.auditPaths] using
        hperm.map fun path => (⟨path, Outcome.auditPath auditor reader path⟩ : Outcome)
    rw [← ofOutcomes_eq_of_perm (distinctPaths_auditPaths hincreasing) houtcomes]
    exact sameExceptAt_ofOutcomes_concat _ _
  · rw [List.erase_of_not_mem hmem]
    exact fun _ _ => ⟨rfl, rfl⟩

end Summary

/-! ## Audits of two trees -/

/-- Two worlds have well-formed trees that differ in the file at a place, and the same working
directory. -/
structure World.DiffersOnlyAt (world other : World) (place : Location) : Prop where
  tree : world.files.tree.DiffersOnlyAt other.files.tree place
  working : world.files.working = other.files.working
  well : world.files.tree.isWellFormed = true
  wellOther : other.files.tree.isWellFormed = true

theorem World.DiffersOnlyAt.symm {world other : World} {place : Location}
    (hdiffers : world.DiffersOnlyAt other place) : other.DiffersOnlyAt world place :=
  ⟨hdiffers.tree.symm, hdiffers.working.symm, hdiffers.wellOther, hdiffers.well⟩

namespace AuditRun

open Text.Utf8 (encode)

/-- The summary of the audit of a file or a directory. -/
def auditTree (world : World) (scanner : Scanner) (allowed : AllowedValues) (root : Path) :
    Except Failure Summary :=
  (paths world scanner root).map (summary world.files allowed)

/-- A place below a root is selected in one of two worlds. -/
def Selected (world other : World) (scanner : Scanner) (root : Path) (location place : Location) :
    Prop :=
  ∃ names, place = location ++ names ∧
    (root.below names ∈ scanner.scan world.files world.user root ∨
      root.below names ∈ scanner.scan other.files other.user root)

/-- The summaries of two worlds that differ in the file at a place agree in all else. -/
structure Framed (world other : World) (scanner : Scanner) (root : Path) (location place : Location)
    (result counterpart : Summary) : Prop where
  /-- All paths but that of the file have the same audits and failures. -/
  elsewhere : ∀ key, (∀ names, place = location ++ names → key.same (root.below names) = false) →
    result.files.get? key = counterpart.files.get? key ∧
      result.failures.get? key = counterpart.failures.get? key
  /-- A selected file that is in one world only is counted there. -/
  one : world.files.tree.HasFile place → ¬other.files.tree.HasFile place →
    Selected world other scanner root location place → result.scanned = counterpart.scanned + 1
  /-- It is counted in the other world if it is there. -/
  another : ¬world.files.tree.HasFile place → other.files.tree.HasFile place →
    Selected world other scanner root location place → counterpart.scanned = result.scanned + 1
  /-- A file that is in both worlds makes no difference to the count. -/
  both : (world.files.tree.HasFile place ↔ other.files.tree.HasFile place) →
    result.scanned = counterpart.scanned
  /-- A file that is not selected makes no difference at all. -/
  unselected : ¬Selected world other scanner root location place → result = counterpart

variable {world other : World} {filter : FileFilter} {root : Path} {location place : Location}
  {entries : DirectoryEntries}

theorem selected_below (world other : World) (scanner : Scanner) (root : Path) (location : Location)
    (names : Location) :
    Selected world other scanner root location (location ++ names) ↔
      root.below names ∈ scanner.scan world.files world.user root ∨
        root.below names ∈ scanner.scan other.files other.user root := by
  simp [Selected]

theorem paths_directory {scanner : Scanner} (hplace : world.files.place? root = .ok location)
    (hdirectory : world.files.tree.get? location = some (.directory entries)) :
    paths world scanner root = .ok (scanner.scan world.files world.user root) := by
  have hget : world.files.get? root = some (.directory entries) := by
    rw [FileSystem.get?, hplace]
    exact hdirectory
  rw [paths, hget]

/-- A path that is scanned in one world, other than that of the place, is scanned in the other world
and is read alike. -/
theorem mem_scan_of_differs (hdiffers : world.DiffersOnlyAt other place)
    (hplace : world.files.place? root = .ok location)
    (hdirectory : world.files.tree.get? location = some (.directory entries))
    {path : Path} (hmem : path ∈ Scanner.scan ⟨filter, false⟩ world.files world.user root)
    (hne : ∀ names, (∀ name ∈ names, IsEntryName name) → place = location ++ names →
      path ≠ root.below names) :
    path ∈ Scanner.scan ⟨filter, false⟩ other.files other.user root ∧
      world.files.read path = other.files.read path := by
  have hplaceOther := FileSystem.place?_of_differs hdiffers.tree hdiffers.working hplace hdirectory
  obtain ⟨_, hdirectoryOther⟩ := hdiffers.tree.get?_directory hdirectory
  obtain ⟨names, hsome, hfile, hselects, rfl⟩ :=
    (Scanner.mem_scan hdiffers.well hplace hdirectory).mp hmem
  have hnames := hfile.isEntryName hdiffers.well
  have helsewhere : location ++ names ≠ place := fun heq => hne names hnames heq.symm rfl
  rw [Scanner.selects_plain] at hselects
  constructor
  · rw [Scanner.below_mem_scan hdiffers.wellOther hplaceOther hdirectoryOther hnames]
    exact ⟨(hdiffers.tree.hasFile_iff helsewhere).mp hfile, hsome, hselects⟩
  · exact FileSystem.read_of_differs hdiffers.tree hdiffers.well hdiffers.wellOther hplace
      hplaceOther hfile helsewhere

/-- A summary depends on the tree only through the files that are read. -/
theorem summary_congr {files others : FileSystem} (allowed : AllowedValues) {paths : List Path}
    (hread : ∀ path ∈ paths, files.read path = others.read path) :
    summary files allowed paths = summary others allowed paths := by
  refine congrArg Summary.ofOutcomes (List.map_congr_left fun path hmem => ?_)
  rw [Outcome.auditPath, Outcome.auditPath, hread path hmem]

theorem scanned_summary (files : FileSystem) (allowed : AllowedValues) (paths : List Path) :
    (summary files allowed paths).scanned = paths.length := by
  rw [summary, Summary.ofOutcomes, Summary.scanned_foldl, Outcome.auditPaths]
  exact List.length_map ..

section Directory

variable (hdiffers : world.DiffersOnlyAt other place)
  (hplace : world.files.place? root = .ok location)
  (hdirectory : world.files.tree.get? location = some (.directory entries))

include hdiffers hplace hdirectory

/-- A file that no names lead to from the root makes no difference. -/
theorem summary_eq_of_outside
    (hnone : ∀ names, (∀ name ∈ names, IsEntryName name) → place ≠ location ++ names)
    (filter : FileFilter) (allowed : AllowedValues) :
    summary world.files allowed (Scanner.scan ⟨filter, false⟩ world.files world.user root) =
      summary other.files allowed (Scanner.scan ⟨filter, false⟩ other.files other.user root) := by
  have hplaceOther := FileSystem.place?_of_differs hdiffers.tree hdiffers.working hplace hdirectory
  obtain ⟨_, hdirectoryOther⟩ := hdiffers.tree.get?_directory hdirectory
  have hscan : Scanner.scan ⟨filter, false⟩ world.files world.user root =
      Scanner.scan ⟨filter, false⟩ other.files other.user root := by
    refine List.Pairwise.eq_of_mem_iff (Scanner.scan_increasing hdiffers.well hplace hdirectory)
      (Scanner.scan_increasing hdiffers.wellOther hplaceOther hdirectoryOther) fun path => ⟨?_, ?_⟩
    · intro hmem
      exact (mem_scan_of_differs hdiffers hplace hdirectory hmem
        fun names hnames heq => absurd heq (hnone names hnames)).1
    · intro hmem
      exact (mem_scan_of_differs hdiffers.symm hplaceOther hdirectoryOther hmem
        fun names hnames heq => absurd heq (hnone names hnames)).1
  rw [← hscan]
  refine summary_congr allowed fun path hmem => ?_
  exact (mem_scan_of_differs hdiffers hplace hdirectory hmem
    fun names hnames heq => absurd heq (hnone names hnames)).2

variable {names : Location} (hbelow : place = location ++ names)

include hbelow

/-- What is scanned in one world besides the file is scanned in the other, and is read alike. -/
theorem mem_erase_scan {path : Path}
    (hmem : path ∈ (Scanner.scan ⟨filter, false⟩ world.files world.user root).erase
      (root.below names)) :
    path ∈ (Scanner.scan ⟨filter, false⟩ other.files other.user root).erase (root.below names) ∧
      world.files.read path = other.files.read path := by
  have hincreasing :
      (Scanner.scan ⟨filter, false⟩ world.files world.user root).Pairwise Path.Before :=
    Scanner.scan_increasing hdiffers.well hplace hdirectory
  obtain ⟨hne, hmem⟩ := hincreasing.nodup.mem_erase_iff.mp hmem
  obtain ⟨hscan, hread⟩ := mem_scan_of_differs hdiffers hplace hdirectory hmem
    fun inner _ heq => by
      rw [hbelow, List.append_cancel_left_eq] at heq
      rwa [← heq]
  exact ⟨(List.mem_erase_of_ne hne).mpr hscan, hread⟩

/-- Without the path of the file, both scans are equal. -/
theorem erase_scan_eq :
    (Scanner.scan ⟨filter, false⟩ world.files world.user root).erase (root.below names) =
      (Scanner.scan ⟨filter, false⟩ other.files other.user root).erase (root.below names) := by
  have hplaceOther := FileSystem.place?_of_differs hdiffers.tree hdiffers.working hplace hdirectory
  obtain ⟨_, hdirectoryOther⟩ := hdiffers.tree.get?_directory hdirectory
  refine List.Pairwise.eq_of_mem_iff
    ((Scanner.scan_increasing hdiffers.well hplace hdirectory).sublist List.erase_sublist)
    ((Scanner.scan_increasing hdiffers.wellOther hplaceOther hdirectoryOther).sublist
      List.erase_sublist) fun path => ⟨fun hmem => ?_, fun hmem => ?_⟩
  · exact (mem_erase_scan hdiffers hplace hdirectory hbelow hmem).1
  · exact (mem_erase_scan hdiffers.symm hplaceOther hdirectoryOther hbelow hmem).1

/-- Without the file, the two audits are the same. -/
theorem summary_erase_scan (filter : FileFilter) (allowed : AllowedValues) :
    summary world.files allowed
        ((Scanner.scan ⟨filter, false⟩ world.files world.user root).erase (root.below names)) =
      summary other.files allowed
        ((Scanner.scan ⟨filter, false⟩ other.files other.user root).erase (root.below names)) := by
  rw [← erase_scan_eq hdiffers hplace hdirectory hbelow]
  exact summary_congr allowed fun path hmem =>
    (mem_erase_scan hdiffers hplace hdirectory hbelow hmem).2

end Directory

/-- The audit of a directory without the file at the given place counts one less if the file is
scanned. -/
theorem scanned_erase (files : FileSystem) (allowed : AllowedValues) (paths : List Path)
    (path : Path) :
    (summary files allowed paths).scanned =
      (summary files allowed (paths.erase path)).scanned + if path ∈ paths then 1 else 0 := by
  rw [scanned_summary, scanned_summary]
  split
  next hmem =>
    have hpositive := List.length_pos_of_mem hmem
    rw [List.length_erase_of_mem hmem]
    omega
  next habsent => rw [List.erase_of_not_mem habsent, Nat.add_zero]

/-- Leaving a path out of an audit changes the summary at this path alone. -/
theorem summary_sameExceptAt (files : FileSystem) (allowed : AllowedValues) {paths : List Path}
    (hincreasing : paths.Pairwise Path.Before) (path : Path) :
    Summary.SameExceptAt (summary files allowed paths) (summary files allowed (paths.erase path))
      path :=
  Summary.sameExceptAt_erase hincreasing path

section Directory

variable (hdiffers : world.DiffersOnlyAt other place)
  (hplace : world.files.place? root = .ok location)
  (hdirectory : world.files.tree.get? location = some (.directory entries))

include hdiffers hplace hdirectory

/-- A file outside the audited directory changes nothing. -/
theorem framed_of_outside
    (hnone : ∀ names, (∀ name ∈ names, IsEntryName name) → place ≠ location ++ names)
    (filter : FileFilter) (allowed : AllowedValues) :
    Framed world other ⟨filter, false⟩ root location place
      (summary world.files allowed (Scanner.scan ⟨filter, false⟩ world.files world.user root))
      (summary other.files allowed (Scanner.scan ⟨filter, false⟩ other.files other.user root)) := by
  rw [summary_eq_of_outside hdiffers hplace hdirectory hnone]
  have hunselected {tree : FileTree} (hwell : tree.isWellFormed = true)
      (hfile : tree.HasFile place) :
      ¬Selected world other ⟨filter, false⟩ root location place := by
    rintro ⟨names, rfl, -⟩
    exact hnone names (hfile.isEntryName hwell) rfl
  exact
    { elsewhere := fun _ _ => ⟨rfl, rfl⟩
      one := fun hfile _ hselected => absurd hselected (hunselected hdiffers.well hfile)
      another := fun _ hfile hselected => absurd hselected (hunselected hdiffers.wellOther hfile)
      both := fun _ => rfl
      unselected := fun _ => rfl }

/-- A file below the audited directory changes nothing but what is told of its own path, and the
count. -/
theorem framed_of_below {names : Location} (hnames : ∀ name ∈ names, IsEntryName name)
    (hbelow : place = location ++ names) (filter : FileFilter) (allowed : AllowedValues) :
    Framed world other ⟨filter, false⟩ root location place
      (summary world.files allowed (Scanner.scan ⟨filter, false⟩ world.files world.user root))
      (summary other.files allowed (Scanner.scan ⟨filter, false⟩ other.files other.user root)) := by
  have hplaceOther := FileSystem.place?_of_differs hdiffers.tree hdiffers.working hplace hdirectory
  obtain ⟨_, hdirectoryOther⟩ := hdiffers.tree.get?_directory hdirectory
  have hone : root.below names ∈ Scanner.scan ⟨filter, false⟩ world.files world.user root ↔
      world.files.tree.HasFile place ∧ names ≠ [] ∧ filter.passes root names = true := by
    rw [hbelow]
    exact Scanner.below_mem_scan hdiffers.well hplace hdirectory hnames
  have hanother : root.below names ∈ Scanner.scan ⟨filter, false⟩ other.files other.user root ↔
      other.files.tree.HasFile place ∧ names ≠ [] ∧ filter.passes root names = true := by
    rw [hbelow]
    exact Scanner.below_mem_scan hdiffers.wellOther hplaceOther hdirectoryOther hnames
  have hincreasing : (Scanner.scan ⟨filter, false⟩ world.files world.user root).Pairwise
      Path.Before := Scanner.scan_increasing hdiffers.well hplace hdirectory
  have hincreasingOther : (Scanner.scan ⟨filter, false⟩ other.files other.user root).Pairwise
      Path.Before := Scanner.scan_increasing hdiffers.wellOther hplaceOther hdirectoryOther
  have hselected := selected_below world other ⟨filter, false⟩ root location names
  rw [← hbelow] at hselected
  have hrest := summary_erase_scan hdiffers hplace hdirectory hbelow filter allowed
  have hcount := scanned_erase world.files allowed
    (Scanner.scan ⟨filter, false⟩ world.files world.user root) (root.below names)
  have hcountOther := scanned_erase other.files allowed
    (Scanner.scan ⟨filter, false⟩ other.files other.user root) (root.below names)
  rw [hrest] at hcount
  constructor
  case elsewhere =>
    intro key hkey
    have hsame := summary_sameExceptAt world.files allowed hincreasing (root.below names) key
      (hkey names hbelow)
    have hsameOther := summary_sameExceptAt other.files allowed hincreasingOther (root.below names)
      key (hkey names hbelow)
    rw [hrest] at hsame
    exact ⟨hsame.1.trans hsameOther.1.symm, hsame.2.trans hsameOther.2.symm⟩
  case one =>
    intro hfile hnofile hselects
    rw [hselected, hone, hanother] at hselects
    have hpasses := hselects.elim And.right And.right
    rw [hcount, hcountOther, if_pos (hone.mpr ⟨hfile, hpasses⟩),
      if_neg fun hmem => hnofile (hanother.mp hmem).1, Nat.add_zero]
  case another =>
    intro hnofile hfile hselects
    rw [hselected, hone, hanother] at hselects
    have hpasses := hselects.elim And.right And.right
    rw [hcount, hcountOther, if_pos (hanother.mpr ⟨hfile, hpasses⟩),
      if_neg fun hmem => hnofile (hone.mp hmem).1, Nat.add_zero]
  case both =>
    intro hfiles
    have hmem : root.below names ∈ Scanner.scan ⟨filter, false⟩ world.files world.user root ↔
        root.below names ∈ Scanner.scan ⟨filter, false⟩ other.files other.user root := by
      rw [hone, hanother, hfiles]
    rw [hcount, hcountOther, if_congr hmem rfl rfl]
  case unselected =>
    intro hunselected
    rw [hselected, not_or] at hunselected
    rwa [List.erase_of_not_mem hunselected.1, List.erase_of_not_mem hunselected.2] at hrest

end Directory

/-- Two trees that differ in one file have audits that agree in all but that file. -/
theorem framed_auditTree (hdiffers : world.DiffersOnlyAt other place)
    (hplace : world.files.place? root = .ok location)
    (hdirectory : world.files.tree.get? location = some (.directory entries))
    (filter : FileFilter) (allowed : AllowedValues) :
    ∃ result counterpart, auditTree world ⟨filter, false⟩ allowed root = .ok result ∧
      auditTree other ⟨filter, false⟩ allowed root = .ok counterpart ∧
      Framed world other ⟨filter, false⟩ root location place result counterpart := by
  have hplaceOther := FileSystem.place?_of_differs hdiffers.tree hdiffers.working hplace hdirectory
  obtain ⟨_, hdirectoryOther⟩ := hdiffers.tree.get?_directory hdirectory
  refine ⟨_, _, by rw [auditTree, paths_directory hplace hdirectory]; rfl,
    by rw [auditTree, paths_directory hplaceOther hdirectoryOther]; rfl, ?_⟩
  by_cases hbelow : ∃ names, (∀ name ∈ names, IsEntryName name) ∧ place = location ++ names
  · obtain ⟨names, hnames, hplaced⟩ := hbelow
    exact framed_of_below hdiffers hplace hdirectory hnames hplaced filter allowed
  · exact framed_of_outside hdiffers hplace hdirectory
      (fun names hnames heq => hbelow ⟨names, hnames, heq⟩) filter allowed

/-- A world with some files. -/
def worldOf (tree : FileTree) : World := ⟨⟨tree, []⟩, .bare, false, false⟩

/-- A directory with one file. -/
def oneFile : FileTree :=
  .directory [(encode "d", .directory [(encode "b.css", .file (encode "a { color: #123456; }"))])]

/-- The same with another file. -/
def twoFiles : FileTree :=
  oneFile.put [encode "d", encode "a.css"] (.file (encode "a { color: #654321; }"))

theorem framed_auditTree_oneFile :
    (worldOf oneFile).DiffersOnlyAt (worldOf twoFiles) [encode "d", encode "a.css"] ∧
      (worldOf oneFile).files.place? (.ofText "d/") = .ok [encode "d"] ∧
      ∃ result counterpart,
        auditTree (worldOf oneFile) ⟨⟨["css"], [], []⟩, false⟩ .builtIn (.ofText "d/") =
          .ok result ∧
        auditTree (worldOf twoFiles) ⟨⟨["css"], [], []⟩, false⟩ .builtIn (.ofText "d/") =
          .ok counterpart ∧
        counterpart.scanned = result.scanned + 1 ∧
        result.files.get? (.ofText "d/b.css") = counterpart.files.get? (.ofText "d/b.css") := by
  have hdirectory : oneFile.get? [encode "d"] =
      some (.directory [(encode "b.css", .file (encode "a { color: #123456; }"))]) := rfl
  have hdiffers : (worldOf oneFile).DiffersOnlyAt (worldOf twoFiles) [encode "d", encode "a.css"] :=
    { tree := FileTree.differsOnlyAt_put hdirectory (Or.inl (by decide)) _
      working := rfl
      well := by decide
      wellOther := by decide }
  have hplace : (worldOf oneFile).files.place? (.ofText "d/") = .ok [encode "d"] := by cbv
  obtain ⟨result, counterpart, hresult, hcounterpart, hframed⟩ :=
    framed_auditTree hdiffers hplace hdirectory ⟨["css"], [], []⟩ .builtIn
  refine ⟨hdiffers, hplace, result, counterpart, hresult, hcounterpart, ?_, ?_⟩
  · refine hframed.another ?_ ⟨_, rfl⟩ ⟨[encode "a.css"], rfl, Or.inr ?_⟩
    · rintro ⟨bytes, hfile⟩
      cases hfile
    · have hplaceOther : (worldOf twoFiles).files.place? (.ofText "d/") = .ok [encode "d"] := by cbv
      have hdirectoryOther : twoFiles.get? [encode "d"] =
          some (.directory [(encode "b.css", .file (encode "a { color: #123456; }")),
            (encode "a.css", .file (encode "a { color: #654321; }"))]) := rfl
      exact Scanner.mem_scan_of_passes hdiffers.wellOther hplaceOther hdirectoryOther
        [encode "a.css"] (List.cons_ne_nil _ _) ⟨_, rfl⟩ (by decide)
  · refine (hframed.elsewhere _ fun names hnames => ?_).1
    obtain rfl : [encode "a.css"] = names := (List.cons.inj hnames).2
    decide

end AuditRun

end LiteralAudit
