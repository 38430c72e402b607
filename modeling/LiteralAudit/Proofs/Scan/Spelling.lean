import LiteralAudit.Audit.Outcome
import LiteralAudit.Proofs.Audit.Moved
import LiteralAudit.Proofs.FileSystem.Following
import LiteralAudit.Proofs.Scan.Relative
import LiteralAudit.Proofs.Scan.Selection

/-!
# Scanning other spellings of a directory

Names and extensions are compared by steps, so they do not depend on how the root of a scan is
spelled.  Globs are matched against the spelling, and so are the rules of ignore files.  Two
spellings of a directory are scanned alike exactly if no file is left out by a glob or an ignore
file through one of them only (`Scanner.scan_respelled`), and each file is audited alike
(`Scanner.respelled_of_same`).
-/

namespace LiteralAudit

/-! ## Tests of steps -/

namespace FileFilter

variable (filter : FileFilter) {path other : Path}

theorem excludesName_of_steps (hsteps : path.steps = other.steps) :
    filter.excludesName path = filter.excludesName other := by
  rw [excludesName, excludesName, Path.fileName?, Path.fileName?, hsteps]

theorem wantsExtension_of_steps (hsteps : path.steps = other.steps) :
    filter.wantsExtension path = filter.wantsExtension other := by
  rw [wantsExtension, wantsExtension, Path.extension?, Path.extension?, Path.fileName?,
    Path.fileName?,    hsteps]

end FileFilter

namespace Scanner

open Text.Utf8 (encode)

/-- What a scan asks about the steps of a file and of the directories on the way to it. -/
def Considers (scanner : Scanner) (root : Path) (names : Location) : Prop :=
  (∀ inner, inner <+: names → inner ≠ names →
    scanner.filter.excludesName (root.below inner) = false) ∧
  scanner.filter.wantsExtension (root.below names) = true ∧
  (scanner.respectsIgnoreFiles = true → meansStandardInput root = false)

/-- A glob or an ignore file leaves out a file or a directory on the way to it. -/
def LeavesOut (scanner : Scanner) (system : FileSystem) (user : UserPlaces) (location : Location)
    (root : Path) (names : Location) : Prop :=
  (∃ inner, inner <+: names ∧ scanner.filter.leavesOut (root.below inner) = true) ∨
  (scanner.respectsIgnoreFiles = true ∧
    (IgnoreWalk.ofSystem system user).keepsBelow [IgnoreLevel.read system.tree location root]
      location root names = false)

variable {scanner : Scanner} {system : FileSystem} {user : UserPlaces} {location : Location}
  {root other : Path} {entries : DirectoryEntries} {names : Location}

/-- A scan selects what it considers and does not leave out. -/
theorem selects_iff : scanner.selects system user location root names = true ↔
    scanner.Considers root names ∧ ¬scanner.LeavesOut system user location root names := by
  have hpasses : scanner.filter.passes root names = true ↔
      (∀ inner, inner <+: names → inner ≠ names →
        scanner.filter.excludesName (root.below inner) = false) ∧
      scanner.filter.wantsExtension (root.below names) = true ∧
      ∀ inner, inner <+: names → scanner.filter.leavesOut (root.below inner) = false := by
    simp only [FileFilter.passes_iff, FileFilter.enters, FileFilter.wants, Bool.and_eq_true,
      Bool.not_eq_true']
    constructor
    · rintro ⟨henters, hext, hkept⟩
      refine ⟨fun inner hstarts hne => (henters inner hstarts hne).1, hext, fun inner hstarts => ?_⟩
      by_cases hne : inner = names
      · rw [hne]
        exact hkept
      · exact (henters inner hstarts hne).2
    · rintro ⟨hnames, hext, hkept⟩
      exact ⟨fun inner hstarts hne => ⟨hnames inner hstarts hne, hkept inner hstarts⟩, hext,
        hkept names (List.prefix_refl _)⟩
  rw [selects, Bool.and_eq_true, hpasses, Considers, LeavesOut]
  cases scanner.respectsIgnoreFiles with
  | false => simp [and_assoc]
  | true =>
      simp only [Bool.not_true, Bool.false_or, Bool.and_eq_true, Bool.not_eq_true', forall_const,
        true_and, not_or, not_exists, not_and, Bool.not_eq_true, Bool.not_eq_false]
      tauto

/-- How a root is spelled makes no difference to what is considered. -/
theorem considers_of_steps (hsteps : root.steps = other.steps)
    (hnames : ∀ name ∈ names, IsEntryName name) :
    scanner.Considers root names ↔ scanner.Considers other names := by
  have hbelow {inner : Location} (hstarts : inner <+: names) :
      (root.below inner).steps = (other.below inner).steps := by
    have hinner : ∀ name ∈ inner, IsEntryName name :=
      fun name hmem => hnames name (hstarts.subset hmem)
    rw [root.steps_below hinner, other.steps_below hinner, hsteps]
  refine and_congr (forall_congr' fun inner => forall_congr' fun hstarts => ?_) (and_congr ?_ ?_)
  · rw [scanner.filter.excludesName_of_steps (hbelow hstarts)]
  · rw [scanner.filter.wantsExtension_of_steps (hbelow (List.prefix_refl _))]
  · rw [meansStandardInput, meansStandardInput, Path.same, Path.same, hsteps]

/-! ## The steps of a scan -/

section Directory

variable (hwell : system.tree.isWellFormed = true) (hplace : system.place? root = .ok location)
  (hdirectory : system.tree.get? location = some (.directory entries))

include hwell hplace hdirectory

/-- The steps of the paths of a scan are told by the steps of its root and by what it selects. -/
theorem steps_scan : (scanner.scan system user root).map Path.steps =
    (((FileTree.filePlacesOfEntries entries).filter
      (scanner.selects system user location root)).map
        fun names => root.steps ++ names.map PathStep.name).mergeSort
          fun a b => compareSteps a b != .gt := by
  have hsort (paths : List Path) : (sortPaths paths).map Path.steps =
      (paths.map Path.steps).mergeSort fun a b => compareSteps a b != .gt :=
    List.map_mergeSort fun _ _ _ _ => rfl
  rw [scan_eq hwell hplace hdirectory, hsort, List.map_map]
  refine congrArg (List.mergeSort · _) (List.map_congr_left fun names hmem => ?_)
  have hplaced := List.mem_of_mem_filter hmem
  exact root.steps_below fun name => isEntryName_of_mem hwell hdirectory hplaced

/-- Which files are selected can be told from the steps of the paths that are found. -/
theorem selects_iff_steps_mem {names : Location} (hsome : names ≠ [])
    (hfile : system.tree.HasFile (location ++ names)) :
    scanner.selects system user location root names = true ↔
      root.steps ++ names.map PathStep.name ∈ (scanner.scan system user root).map Path.steps := by
  have hnames := hfile.isEntryName hwell
  rw [← root.steps_below hnames, List.mem_map]
  constructor
  · intro hselects
    exact ⟨_, (mem_scan hwell hplace hdirectory).mpr ⟨names, hsome, hfile, hselects, rfl⟩, rfl⟩
  · rintro ⟨path, hscan, hsteps⟩
    obtain ⟨inner, -, hinner, hselects, rfl⟩ := (mem_scan hwell hplace hdirectory).mp hscan
    rwa [← Path.below_injective (hinner.isEntryName hwell) hnames rfl hsteps]

/-- Two spellings of a directory are scanned alike if the same files are selected. -/
theorem steps_scan_eq_iff (hother : system.place? other = .ok location)
    (hsteps : root.steps = other.steps) :
    (scanner.scan system user root).map Path.steps =
        (scanner.scan system user other).map Path.steps ↔
      ∀ names, names ≠ [] → system.tree.HasFile (location ++ names) →
        (scanner.selects system user location root names = true ↔
          scanner.selects system user location other names = true) := by
  have hsub := (FileTree.isWellFormed_get? hwell hdirectory).2
  constructor
  · intro hequal names hsome hfile
    rw [selects_iff_steps_mem hwell hplace hdirectory hsome hfile,
      selects_iff_steps_mem hwell hother hdirectory hsome hfile, hequal, hsteps]
  · intro hselects
    rw [steps_scan hwell hplace hdirectory, steps_scan hwell hother hdirectory, hsteps]
    refine congrArg (fun places : List Location => List.mergeSort (places.map _) _)
      (List.filter_congr fun names hmem => ?_)
    obtain ⟨name, -, inner, rfl⟩ := FileTree.exists_name_of_mem hmem
    have hfile := (FileTree.hasFile_append hdirectory).mpr
      ((FileTree.mem_filePlaces hsub _).mp hmem)
    exact Bool.eq_iff_iff.mpr (hselects _ (List.cons_ne_nil _ _) hfile)

/-- Two spellings of a directory are scanned alike if the same files are left out. -/
theorem scan_respelled (hother : system.place? other = .ok location)
    (hsteps : root.steps = other.steps) :
    (scanner.scan system user root).map Path.steps =
        (scanner.scan system user other).map Path.steps ↔
      ∀ names, names ≠ [] → system.tree.HasFile (location ++ names) →
        scanner.Considers root names →
        (scanner.LeavesOut system user location root names ↔
          scanner.LeavesOut system user location other names) := by
  rw [steps_scan_eq_iff hwell hplace hdirectory hother hsteps]
  refine forall₃_congr fun names _ hfile => ?_
  rw [selects_iff, selects_iff, ← considers_of_steps hsteps (hfile.isEntryName hwell),
    and_congr_right_iff]
  exact imp_congr_right fun _ => not_iff_not

end Directory

/-! ## Two spellings -/

/-- What is the same for two spellings of a directory, and what it depends on. -/
structure Respelled (scanner : Scanner) (system : FileSystem) (user : UserPlaces)
    (location : Location) (root other : Path) : Prop where
  /-- The other spelling leads to the directory too. -/
  place : system.place? other = .ok location
  /-- The scans are equal path by path exactly if every file that is considered is left out through
  both spellings or through none. -/
  scans_iff : (scanner.scan system user root).map Path.steps =
      (scanner.scan system user other).map Path.steps ↔
    ∀ names, names ≠ [] → system.tree.HasFile (location ++ names) →
      scanner.Considers root names →
      (scanner.LeavesOut system user location root names ↔
        scanner.LeavesOut system user location other names)
  /-- Without globs they are equal, also if ignore files are respected, unless a spelling has more
  than one idle dot in front or the user has an ignore file of their own. -/
  scans : scanner.filter.excludes = [] →
    (scanner.respectsIgnoreFiles = true → root.IsPlainlySpelled ∧ other.IsPlainlySpelled ∧
      (GlobalIgnore.file system user).rules = []) →
    (scanner.scan system user root).map Path.steps = (scanner.scan system user other).map Path.steps
  /-- The audits of a file have the same findings. -/
  audits : ∀ (auditor : StyleAuditor) (names : Location) (bytes : List UInt8),
    system.tree.get? (location ++ names) = some (.file bytes) →
    (root.below names).bytes.length ≤ FileSystem.pathLimit →
    (other.below names).bytes.length ≤ FileSystem.pathLimit →
    ∃ audit, Outcome.auditPath auditor.toFileAuditor system.read (root.below names) = .ok audit ∧
      Outcome.auditPath auditor.toFileAuditor system.read (other.below names) =
        .ok (audit.movedTo (other.below names))

/-- Nothing is left out by a scan without globs, ignore files apart. -/
theorem leavesOut_iff (hglobs : scanner.filter.excludes = []) :
    scanner.LeavesOut system user location root names ↔
      scanner.respectsIgnoreFiles = true ∧
        (IgnoreWalk.ofSystem system user).keepsBelow [IgnoreLevel.read system.tree location root]
          location root names = false := by
  simp [LeavesOut, FileFilter.leavesOut, hglobs]

/-- Two spellings of a directory with the same steps differ in globs and ignore files only. -/
theorem respelled_of_same (scanner : Scanner) (user : UserPlaces)
    (hwell : system.tree.isWellFormed = true) (hplace : system.place? root = .ok location)
    (hdirectory : system.tree.get? location = some (.directory entries))
    (hsame : root.same other = true) (hfits : other.bytes.length ≤ FileSystem.pathLimit) :
    scanner.Respelled system user location root other := by
  have hsteps : root.steps = other.steps := by simpa [Path.same] using hsame
  have hother := FileSystem.place?_of_same hplace hdirectory hsame hfits
  have hscans := @scan_respelled scanner system user location root other entries hwell hplace
    hdirectory hother hsteps
  constructor
  case place => exact hother
  case scans_iff => exact hscans
  case scans =>
    intro hglobs hrespects
    refine hscans.mpr fun names _ hfile _ => ?_
    rw [leavesOut_iff hglobs, leavesOut_iff hglobs]
    refine and_congr_right fun hrespectful => ?_
    obtain ⟨hroot, hrespelled, huser⟩ := hrespects hrespectful
    rw [IgnoreWalk.keepsBelow_of_plain hroot hrespelled huser (hfile.isEntryName hwell)]
  case audits =>
    intro auditor names bytes hfile hroot hrespelled
    refine ⟨auditor.audit (root.below names) (Text.Utf8.decodeLossy bytes), ?_, ?_⟩
    · rw [Outcome.auditPath, FileSystem.read_below hwell hplace hfile hroot]
      rfl
    · rw [Outcome.auditPath, FileSystem.read_below hwell hother hfile hrespelled]
      exact congrArg Except.ok (auditor.audit_eq_movedTo _ _ _)

/-- A directory with a file. -/
def slashedSystem : FileSystem :=
  ⟨.directory [(encode "d", .directory [(encode "a.css", .file [])])], []⟩

theorem respelled_of_same_slash :
    slashedSystem.tree.isWellFormed = true ∧
      slashedSystem.place? (.ofText "d") = .ok [encode "d"] ∧
      slashedSystem.tree.get? [encode "d"] = some (.directory [(encode "a.css", .file [])]) ∧
      (Path.ofText "d").same (.ofText "d//./") = true ∧
      Respelled ⟨⟨["css"], ["dist"], []⟩, true⟩ slashedSystem .unknown [encode "d"] (.ofText "d")
        (.ofText "d//./") ∧
      (scan ⟨⟨["css"], ["dist"], []⟩, true⟩ slashedSystem .unknown (.ofText "d")).map Path.steps =
        (scan ⟨⟨["css"], ["dist"], []⟩, true⟩ slashedSystem .unknown (.ofText "d//./")).map
          Path.steps := by
  have hwell : slashedSystem.tree.isWellFormed = true := by decide
  have hplace : slashedSystem.place? (.ofText "d") = .ok [encode "d"] := by cbv
  have hdirectory : slashedSystem.tree.get? [encode "d"] =
      some (.directory [(encode "a.css", .file [])]) := rfl
  have hsame : (Path.ofText "d").same (.ofText "d//./") = true := by decide
  have hrespelled := respelled_of_same ⟨⟨["css"], ["dist"], []⟩, true⟩ .unknown hwell hplace
    hdirectory hsame (by decide)
  exact ⟨hwell, hplace, hdirectory, hsame, hrespelled,
    hrespelled.scans rfl fun _ => ⟨by decide, by decide, rfl⟩⟩

/-- A glob that matches a directory does not match it with a slash at its end. -/
theorem not_forall_scan_eq_of_same :
    ¬ ∀ (extensions excludedNames excludes : List Text) (filter : FileFilter)
      (respectsIgnoreFiles : Bool) (system : FileSystem) (user : UserPlaces) (root other : Path)
      (location : Location) (entries : DirectoryEntries),
      FileFilter.ofLists extensions excludedNames excludes = .ok filter →
      system.tree.isWellFormed = true → system.place? root = .ok location →
      system.place? other = .ok location →
      system.tree.get? location = some (.directory entries) → root.same other = true →
      (scan ⟨filter, respectsIgnoreFiles⟩ system user root).map Path.steps =
        (scan ⟨filter, respectsIgnoreFiles⟩ system user other).map Path.steps := by
  intro halways
  have hwell : slashedSystem.tree.isWellFormed = true := by decide
  have hplace : slashedSystem.place? (.ofText "d") = .ok [encode "d"] := by cbv
  have hslash : slashedSystem.place? (.ofText "d/") = .ok [encode "d"] := by cbv
  have hdirectory : slashedSystem.tree.get? [encode "d"] =
      some (.directory [(encode "a.css", .file [])]) := rfl
  have hequal := halways [] [] ["d"] ⟨[], [], [⟨[.char 'd']⟩]⟩ false slashedSystem .unknown
    (.ofText "d") (.ofText "d/") [encode "d"] [(encode "a.css", .file [])] (by cbv) hwell hplace
    hslash hdirectory (by decide)
  have hroot : scan ⟨⟨[], [], [⟨[.char 'd']⟩]⟩, false⟩ slashedSystem .unknown (.ofText "d") =
      [] := by
    refine List.eq_nil_iff_forall_not_mem.mpr fun path hmem => ?_
    obtain ⟨names, hsome, -, hselects, -⟩ := (mem_scan hwell hplace hdirectory).mp hmem
    rw [selects_plain, FileFilter.passes_iff] at hselects
    exact absurd (hselects.1 [] List.nil_prefix hsome.symm) (by decide)
  have hother : .ofText "d/a.css" ∈
      scan ⟨⟨[], [], [⟨[.char 'd']⟩]⟩, false⟩ slashedSystem .unknown (.ofText "d/") :=
    mem_scan_of_passes hwell hslash hdirectory [encode "a.css"] (List.cons_ne_nil _ _) ⟨[], rfl⟩
      (by decide)
  rw [hroot] at hequal
  rw [List.map_eq_nil_iff.mp hequal.symm] at hother
  cases hother

end Scanner

end LiteralAudit
