import LiteralAudit.Proofs.Run.Frame
import LiteralAudit.Proofs.Run.Settings

/-!
# Audits that scan nothing

A scan refuses a root that is a directory with an excluded name, or that a glob leaves out, and
nothing below it is audited (`scan_refused`).  An audit looks at the name of its root once more, to
say why there is nothing in its report (`tellsRoot_iff_excludesName`).  It does not look at the
globs: of a root that is refused because of a glob alone, nothing is said.
-/

namespace LiteralAudit

/-! ## Refused roots -/

theorem FileSystem.exists_directory {system : FileSystem} {path : Path}
    (h : system.holdsDirectory path = true) : ∃ location entries,
      system.place? path = .ok location ∧
        system.tree.get? location = some (.directory entries) := by
  rw [holdsDirectory, get?] at h
  cases hplace : system.place? path with
  | error fault => simp [hplace] at h
  | ok location =>
      rw [hplace] at h
      cases htree : system.tree.get? location with
      | none => simp [htree] at h
      | some tree =>
          cases tree with
          | file bytes => simp [htree, FileTree.isDirectory] at h
          | link target => simp [htree, FileTree.isDirectory] at h
          | directory entries => exact ⟨location, entries, rfl, htree⟩

/-- Nothing is scanned below a root that the filter does not enter. -/
theorem Scanner.scan_refused {scanner : Scanner} {system : FileSystem} {root : Path}
    (user : UserPlaces) (hdirectory : system.holdsDirectory root = true)
    (hrefused : scanner.filter.enters root = false) : scanner.scan system user root = [] := by
  obtain ⟨location, entries, hplace, htree⟩ := system.exists_directory hdirectory
  simp only [scan, hplace, htree, FileTree.isDirectory, hrefused, Bool.not_false, Bool.and_true,
    if_true]

namespace AuditRun

/-- What is said about a root that is not audited, behind its name. -/
def rootWords : Text := " is an excluded directory; nothing under it is audited"

/-- Says that nothing below a root is audited. -/
def rootNotice (root : Path) : Notice := .note (root.display ++ rootWords)

/-- An audit of a directory comes to the point where it scans the directory. -/
structure ScansRoot (world : World) (line : CommandLine) (request : AuditRequest)
    (loaded : LoadedConfig) (scanner : Scanner) : Prop where
  /-- Its configuration can be loaded. -/
  load : world.loadConfig line request.config = .ok loaded
  /-- The settings in effect are not refused. -/
  check : (request.override loaded.config).check = .ok ()
  /-- The scanner is made from these settings. -/
  scanner : world.scanner (request.override loaded.config).scanner
    (request.override loaded.config).audit.extensions = .ok scanner
  /-- There is a directory to audit. -/
  directory : world.files.holdsDirectory request.path = true

/-- A run says, behind what it says about its configuration, that nothing below its root is
audited. -/
def TellsRoot (world : World) (line : CommandLine) (request : AuditRequest)
    (loaded : LoadedConfig) : Prop :=
  ∃ told, ({ line with command := .audit request }.run world).notices =
    World.configNotices line loaded ++ told ∧ rootNotice request.path ∈ told

/-- The notice about the root is told from others by its last words. -/
theorem rootNotice_ne_note (root : Path) {front back : Text}
    (hlength : back.length ≤ rootWords.length) (hback : ¬ back <:+ rootWords) :
    rootNotice root ≠ .note (front ++ back) := by
  intro hequal
  have htexts : root.display ++ rootWords = front ++ back := congrArg Notice.message hequal
  have hsuffix : back <:+ root.display ++ rootWords := by
    rw [htexts]
    exact List.suffix_append front back
  exact hback (List.suffix_of_suffix_length_le hsuffix (List.suffix_append _ _) hlength)

theorem rootNotice_not_mem_allowedValues (world : World) (line : CommandLine)
    (config : AuditConfig) (root : Path) :
    rootNotice root ∉ (allowedValues world line config).2 := by
  intro hmem
  rw [allowedValues] at hmem
  split at hmem
  next => exact List.not_mem_nil hmem
  next path _ =>
    split at hmem
    next allowed _ =>
      rw [World.ifVerbose] at hmem
      split at hmem
      next => exact List.not_mem_nil hmem
      next => exact rootNotice_ne_note root (by decide) (by decide) (List.mem_singleton.mp hmem)
    next failure _ =>
      split at hmem
      next => exact List.not_mem_nil hmem
      next => cases List.mem_singleton.mp hmem

theorem rootNotice_ne_summaryNotice (root : Path) (summary : Summary) :
    rootNotice root ≠ summaryNotice summary :=
  rootNotice_ne_note root (by decide) (by decide)

/-- Of a directory it is said that it is excluded exactly if its name is. -/
theorem mem_excludedNotices {world : World} {line : CommandLine} {config : ScanConfig} {root : Path}
    (hdirectory : world.files.holdsDirectory root = true) (hverbose : line.verbose ≠ 0) :
    rootNotice root ∈ excludedNotices world line config root ↔
      hasExcludedName config root = true := by
  rw [excludedNotices, hdirectory, Bool.true_and, World.ifVerbose, if_neg hverbose]
  split
  next hname => exact iff_of_true (List.mem_singleton_self _) hname
  next hname => exact iff_of_false List.not_mem_nil hname

section

variable {world : World} {line : CommandLine} {request : AuditRequest} {loaded : LoadedConfig}
  {scanner : Scanner} (h : ScansRoot world line request loaded scanner)

include h

/-- The name that an audit looks at is the one that its scanner looks at. -/
theorem ScansRoot.excludesName_eq (root : Path) :
    scanner.filter.excludesName root =
      hasExcludedName (request.override loaded.config).scanner root := by
  have hscanner := h.scanner
  rw [World.scanner] at hscanner
  obtain ⟨filter, hfilter, rfl⟩ := map_eq_ok.mp hscanner
  obtain ⟨globs, -, -, rfl⟩ := FileFilter.ofLists_eq_ok.mp hfilter
  rfl

theorem ScansRoot.paths_eq :
    paths world scanner request.path =
      .ok (scanner.scan world.files world.user request.path) := by
  obtain ⟨location, entries, hplace, htree⟩ := world.files.exists_directory h.directory
  exact paths_directory hplace htree

/-- What such an audit says: what there is to say about its tokens and about its root, and how much
was audited. -/
theorem ScansRoot.exists_notices :
    ∃ summary, (runWith world line request (request.override loaded.config)).1 =
      (allowedValues world line (request.override loaded.config).audit).2 ++
        (excludedNotices world line (request.override loaded.config).scanner request.path ++
          World.ifVerbose line [summaryNotice summary]) := by
  refine ⟨summary world.files (allowedValues world line (request.override loaded.config).audit).1
    (scanner.scan world.files world.user request.path), ?_⟩
  rw [runWith, Steps.fst_onSuccess h.check, Steps.fst_after, Steps.fst_onSuccess h.scanner,
    Steps.fst_after, Steps.fst_onSuccess h.paths_eq, Steps.fst_after,
    Steps.fst_onSuccess_eq_nil fun _ => rfl, List.append_nil]

/-- An audit that is to say much says that its root is excluded exactly if the name of the root
is. -/
theorem ScansRoot.mem_notices_iff (hverbose : line.verbose ≠ 0) :
    rootNotice request.path ∈ (runWith world line request (request.override loaded.config)).1 ↔
      scanner.filter.excludesName request.path = true := by
  obtain ⟨summary, hnotices⟩ := h.exists_notices
  have hsummary : rootNotice request.path ∉ World.ifVerbose line [summaryNotice summary] := by
    rw [World.ifVerbose, if_neg hverbose, List.mem_singleton]
    exact rootNotice_ne_summaryNotice request.path summary
  rw [hnotices, List.mem_append, List.mem_append, mem_excludedNotices h.directory hverbose,
    h.excludesName_eq]
  simp only [rootNotice_not_mem_allowedValues, hsummary, false_or, or_false]

/-- What is said about the root depends on its name alone. -/
theorem ScansRoot.tellsRoot_iff_excludesName (hverbose : line.verbose ≠ 0) :
    TellsRoot world line request loaded ↔ scanner.filter.excludesName request.path = true := by
  have hcommand : ScansRoot world { line with command := .audit request } request loaded scanner :=
    ⟨h.load, h.check, h.scanner, h.directory⟩
  obtain ⟨ends, hrun, hends⟩ :=
    CommandLine.exists_notices_run { line with command := .audit request } world
  rw [← hcommand.mem_notices_iff hverbose, TellsRoot, hrun, steps_of_loadConfig h.load,
    Steps.fst_after, List.append_assoc]
  have hnone : rootNotice request.path ∉ ends := fun hmem => nomatch hends _ hmem
  constructor
  · rintro ⟨told, htold, hmem⟩
    rw [← List.append_cancel_left htold] at hmem
    exact (List.mem_append.mp hmem).resolve_right hnone
  · intro hmem
    exact ⟨_, rfl, List.mem_append_left _ hmem⟩

/-- An audit that is to say much says that nothing below its root is audited if the name of the root
is excluded.  That is so exactly if the scanner refuses the root, unless a glob leaves the root out
and its name is not excluded.  If the scanner refuses the root, then nothing is audited. -/
theorem ScansRoot.tellsRoot_iff (hverbose : line.verbose ≠ 0) :
    (TellsRoot world line request loaded ↔
        scanner.filter.excludesName request.path = true) ∧
      ((TellsRoot world line request loaded ↔ scanner.filter.enters request.path = false) ↔
        (scanner.filter.leavesOut request.path = true →
          scanner.filter.excludesName request.path = true)) ∧
      (scanner.filter.enters request.path = false →
        paths world scanner request.path = .ok []) := by
  have htells := h.tellsRoot_iff_excludesName hverbose
  refine ⟨htells, ?_, fun hrefused => ?_⟩
  · rw [htells, FileFilter.enters]
    cases scanner.filter.excludesName request.path <;>
      cases scanner.filter.leavesOut request.path <;> simp
  · rw [h.paths_eq, Scanner.scan_refused world.user h.directory hrefused]

end

/-- A directory with one style sheet. -/
def styleSheets : FileTree :=
  .directory [(Text.Utf8.encode "a.css", .file (Text.Utf8.encode "a { color: #123456; }"))]

/-- A world with two such directories, one of them with a name that is excluded by default. -/
def twoDirectories : World :=
  worldOf <| .directory
    [(Text.Utf8.encode "dist", styleSheets), (Text.Utf8.encode "src", styleSheets)]

/-- A request to audit a directory without what some globs match. -/
def directoryRequest (root : Text) (exclude : List Text) : AuditRequest :=
  ⟨.ofText root, none, none, none, none, exclude, .text, none, none⟩

/-- A command line with a request that is to say much. -/
def verboseLine (request : AuditRequest) : CommandLine := ⟨1, false, .auto, true, .audit request⟩

/-- The scanner with the default settings and some globs. -/
def defaultScanner (globs : List Glob) : Scanner :=
  ⟨⟨AuditConfig.default.extensions.map (·.dropWhile (· = '.')), ScanConfig.default.excludeDirs,
    globs⟩, ScanConfig.default.gitignore⟩

theorem tellsRoot_iff_dist :
    ScansRoot twoDirectories (verboseLine (directoryRequest "dist" [])) (directoryRequest "dist" [])
        ⟨.default, none⟩ (defaultScanner []) ∧
      (TellsRoot twoDirectories (verboseLine (directoryRequest "dist" []))
        (directoryRequest "dist" []) ⟨.default, none⟩ ↔
          (defaultScanner []).filter.excludesName (.ofText "dist") = true) ∧
      paths twoDirectories (defaultScanner []) (.ofText "dist") = .ok [] := by
  have hscans : ScansRoot twoDirectories (verboseLine (directoryRequest "dist" []))
      (directoryRequest "dist" []) ⟨.default, none⟩ (defaultScanner []) :=
    ⟨rfl, rfl, rfl, by cbv⟩
  obtain ⟨htells, -, hpaths⟩ := hscans.tellsRoot_iff Nat.one_ne_zero
  exact ⟨hscans, htells, hpaths (by decide)⟩

/-- Nothing is said about a root that a glob leaves out. -/
theorem not_forall_tellsRoot_iff_refused :
    ¬ ∀ (world : World) (line : CommandLine) (request : AuditRequest) (loaded : LoadedConfig)
      (scanner : Scanner), ScansRoot world line request loaded scanner → line.verbose ≠ 0 →
        (TellsRoot world line request loaded ↔ scanner.filter.enters request.path = false) := by
  intro halways
  let scanner := defaultScanner [⟨[.char 's', .char 'r', .char 'c']⟩]
  have hscans : ScansRoot twoDirectories (verboseLine (directoryRequest "src" ["src"]))
      (directoryRequest "src" ["src"]) ⟨.default, none⟩ scanner :=
    ⟨rfl, by cbv, by cbv, by cbv⟩
  have hrefused : scanner.filter.enters (.ofText "src") = false := by decide
  have hname : scanner.filter.excludesName (.ofText "src") = false := by decide
  have htells := (halways _ _ _ _ _ hscans Nat.one_ne_zero).mpr hrefused
  have hexcluded := (hscans.tellsRoot_iff_excludesName Nat.one_ne_zero).mp htells
  cases hname.symm.trans hexcluded

end AuditRun

end LiteralAudit
