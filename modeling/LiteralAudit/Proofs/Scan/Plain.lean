import LiteralAudit.Proofs.Scan.Filter
import LiteralAudit.Proofs.Scan.Selection
import LiteralAudit.Proofs.Text.Utf8

/-!
# Scanning without ignore files

The tests of a filter are told by the settings that it was made from (`FileFilter.follows_ofLists`):
an extension is what follows the last dot of a name, unless that dot is the first character.  A scan
that respects no ignore files gives, in increasing order, exactly the wanted files whose directories
are all entered, the root among them (`Scanner.scansExactly_plain`).
-/

namespace LiteralAudit

/-! ## Extensions -/

/-- A name has something, a dot and an extension without a dot. -/
def HasExtension (name : FileName) (ext : List UInt8) : Prop :=
  ∃ stem, stem ≠ [] ∧ 0x2e ∉ ext ∧ name = stem ++ 0x2e :: ext

theorem span_dot {ext : List UInt8} (hext : 0x2e ∉ ext) (before : List UInt8) :
    (ext.reverse ++ 0x2e :: before).span (· ≠ 0x2e) = (ext.reverse, 0x2e :: before) := by
  have hall : ∀ byte ∈ ext.reverse, decide (byte ≠ 0x2e) = true := by
    intro byte hmem
    have hbyte : byte ≠ 0x2e := fun h => hext (h ▸ List.mem_reverse.mp hmem)
    simpa using hbyte
  rw [List.span_eq_takeWhile_dropWhile, List.takeWhile_append_of_pos hall,
    List.dropWhile_append_of_pos hall, List.takeWhile_cons_of_neg (by simp),
    List.dropWhile_cons_of_neg (by simp), List.append_nil]

/-- The extension of a name is what follows its last dot, unless nothing is in front of that. -/
theorem extensionOf?_eq_some {name : FileName} {ext : List UInt8} :
    Path.extensionOf? name = some ext ↔ HasExtension name ext := by
  constructor
  · intro h
    have happend := List.takeWhile_append_dropWhile (p := (· ≠ 0x2e)) (l := name.reverse)
    rw [Path.extensionOf?, List.span_eq_takeWhile_dropWhile] at h
    split at h
    next => cases h
    next => cases h
    next behind dot byte rest hspan =>
      obtain ⟨rfl, hdrop⟩ := Prod.mk.inj hspan
      obtain rfl := Option.some.inj h
      have hdot : dot = 0x2e := by
        have hhead := List.head?_dropWhile_not (fun byte => decide (byte ≠ 0x2e)) name.reverse
        rw [hdrop] at hhead
        simpa using hhead
      rw [hdrop, hdot] at happend
      refine ⟨(byte :: rest).reverse, by simp, ?_, ?_⟩
      · intro hmem
        simpa using List.mem_takeWhile_imp (List.mem_reverse.mp hmem)
      · have hname := congrArg List.reverse happend
        rw [List.reverse_reverse, List.reverse_append] at hname
        rw [List.reverse_cons, List.append_assoc] at hname
        exact hname.symm
  · rintro ⟨stem, hstem, hext, rfl⟩
    obtain ⟨byte, before, hbefore⟩ :=
      List.exists_cons_of_ne_nil (List.reverse_ne_nil_iff.mpr hstem)
    have hreverse : (stem ++ 0x2e :: ext).reverse = ext.reverse ++ 0x2e :: byte :: before := by
      simp [hbefore]
    rw [Path.extensionOf?, hreverse, span_dot hext]
    simp

/-! ## The tests of a filter -/

namespace FileFilter

open Text.Utf8 (encode decode? decode?_eq_some)

theorem any_decode? {bytes : List UInt8} {texts : List Text} :
    (decode? bytes).any texts.contains = true ↔ ∃ text ∈ texts, bytes = encode text := by
  rw [Option.any_eq_true]
  constructor
  · rintro ⟨text, hdecode, hmem⟩
    exact ⟨text, by simpa using hmem, decode?_eq_some.mp hdecode⟩
  · rintro ⟨text, hmem, hbytes⟩
    exact ⟨text, decode?_eq_some.mpr hbytes, by simpa using hmem⟩

theorem fileName?_child (directory : Path) {name : FileName} (hname : IsEntryName name) :
    (directory.child name).fileName? = some name := by
  rw [Path.fileName?, Path.steps_child _ hname, List.getLast?_concat]

/-- What the settings of a filter say about an entry of a directory. -/
structure Follows (filter : FileFilter) (extensions excludedNames excludes : List Text) : Prop where
  /-- A path is left out by a glob that matches it as it is spelled. -/
  leavesOut : ∀ path, filter.leavesOut path = true ↔
    ∃ text ∈ excludes, ∃ glob, Glob.read text = .ok glob ∧ glob.accepts .wholePath path = true
  /-- A file is wanted if its extension is, with or without the leading dots of the setting. -/
  wants : ∀ (directory : Path) (name : FileName), IsEntryName name →
    (filter.wants (directory.child name) = true ↔
      (extensions = [] ∨
        ∃ ext ∈ extensions, HasExtension name (encode (ext.dropWhile (· = '.')))) ∧
      filter.leavesOut (directory.child name) = false)
  /-- A directory is entered unless its name is excluded. -/
  enters : ∀ (directory : Path) (name : FileName), IsEntryName name →
    (filter.enters (directory.child name) = true ↔
      (∀ excluded ∈ excludedNames, name ≠ encode excluded) ∧
      filter.leavesOut (directory.child name) = false)

section Entry

variable (filter : FileFilter) (directory : Path) {name : FileName} (hname : IsEntryName name)

include hname

/-- A file is wanted for its extension if that is listed, or if none is. -/
theorem wantsExtension_child : filter.wantsExtension (directory.child name) = true ↔
    filter.extensions = [] ∨ ∃ ext ∈ filter.extensions, HasExtension name (encode ext) := by
  have hext : (directory.child name).extension? >>= decode? =
      (Path.extensionOf? name).bind decode? := by
    rw [Path.extension?, fileName?_child _ hname]
    rfl
  rw [wantsExtension, Bool.or_eq_true, List.isEmpty_iff, hext]
  refine or_congr_right ?_
  cases hfound : Path.extensionOf? name with
  | none => simp [← extensionOf?_eq_some, hfound]
  | some found =>
      rw [Option.bind_some, any_decode?]
      simp [← extensionOf?_eq_some, hfound]

/-- A name is excluded exactly if it is listed. -/
theorem excludesName_child : filter.excludesName (directory.child name) = true ↔
    ∃ excluded ∈ filter.excludedNames, name = encode excluded := by
  rw [excludesName, fileName?_child _ hname]
  exact any_decode?

end Entry

/-- A filter follows the settings that it was made from. -/
theorem follows_ofLists {filter : FileFilter} {extensions excludedNames excludes : List Text}
    {limit : GlobLimit} (hfilter : ofLists extensions excludedNames excludes limit = .ok filter) :
    filter.Follows extensions excludedNames excludes := by
  obtain ⟨globs, hglobs, -, rfl⟩ := ofLists_eq_ok.mp hfilter
  constructor
  case leavesOut =>
    intro path
    simp only [FileFilter.leavesOut, List.any_eq_true, hglobs.mem_iff]
    constructor
    · rintro ⟨glob, ⟨text, hmem, hread⟩, haccepts⟩
      exact ⟨text, hmem, glob, hread, haccepts⟩
    · rintro ⟨text, hmem, glob, hread, haccepts⟩
      exact ⟨glob, ⟨text, hmem, hread⟩, haccepts⟩
  case wants =>
    intro directory name hname
    rw [FileFilter.wants, Bool.and_eq_true, wantsExtension_child _ _ hname, Bool.not_eq_true']
    simp
  case enters =>
    intro directory name hname
    rw [FileFilter.enters, Bool.and_eq_true, Bool.not_eq_true', Bool.not_eq_true',
      ← Bool.not_eq_true, excludesName_child _ _ hname]
    simp

end FileFilter

/-! ## The files of a scan -/

namespace Scanner

open Text.Utf8 (encode)

/-- Some paths are in increasing order, and they are those of the wanted files below a root that is
entered, in directories that are entered. -/
structure ScansExactly (filter : FileFilter) (tree : FileTree) (location : Location) (root : Path)
    (found : List Path) : Prop where
  /-- Each path comes before the next one, so none comes twice. -/
  increasing : found.Pairwise fun a b => a.compare b = .lt
  /-- A path is found if it is that of a file, links not followed, and the filter lets it pass. -/
  members : ∀ path, path ∈ found ↔ ∃ names, names ≠ [] ∧ tree.HasFile (location ++ names) ∧
    path = root.below names ∧ filter.enters root = true ∧
    (∀ inner, inner <+: names → inner ≠ [] → inner ≠ names →
      filter.enters (root.below inner) = true) ∧
    filter.wants path = true

variable {filter : FileFilter} {system : FileSystem} {location : Location} {root : Path}
  {entries : DirectoryEntries}

/-- The root must be entered too, and it is asked on its own. -/
theorem passes_iff_between {names : Location} (hsome : names ≠ []) :
    filter.passes root names = true ↔
      filter.enters root = true ∧
      (∀ inner, inner <+: names → inner ≠ [] → inner ≠ names →
        filter.enters (root.below inner) = true) ∧
      filter.wants (root.below names) = true := by
  simp only [FileFilter.passes_iff, ← and_assoc]
  refine and_congr_left' ⟨?_, ?_⟩
  · intro h
    exact ⟨h [] List.nil_prefix hsome.symm, fun inner hstarts _ hne => h inner hstarts hne⟩
  · rintro ⟨hroot, hbetween⟩ inner hstarts hne
    by_cases hinner : inner = []
    · rw [hinner]
      exact hroot
    · exact hbetween inner hstarts hinner hne

/-- A scan that respects no ignore files gives exactly the wanted files below a directory, and
the tests of its filter are those of the settings. -/
theorem scansExactly_plain {extensions excludedNames excludes : List Text} {limit : GlobLimit}
    (hfilter : FileFilter.ofLists extensions excludedNames excludes limit = .ok filter)
    (hwell : system.tree.isWellFormed = true) (hplace : system.place? root = .ok location)
    (hdirectory : system.tree.get? location = some (.directory entries)) (user : UserPlaces) :
    filter.Follows extensions excludedNames excludes ∧
      ScansExactly filter system.tree location root
        (scan ⟨filter, false⟩ system user root) := by
  refine ⟨FileFilter.follows_ofLists hfilter, scan_increasing hwell hplace hdirectory,
    fun path => ?_⟩
  rw [mem_scan hwell hplace hdirectory]
  refine exists_congr fun names => ?_
  constructor
  · rintro ⟨hsome, hfile, hselects, rfl⟩
    rw [selects_plain] at hselects
    exact ⟨hsome, hfile, rfl, (passes_iff_between hsome).mp hselects⟩
  · rintro ⟨hsome, hfile, rfl, hpasses⟩
    refine ⟨hsome, hfile, ?_, rfl⟩
    rw [selects_plain]
    exact (passes_iff_between hsome).mpr hpasses

/-- Dotted names, a link, a directory with an excluded name and a file that is called like it. -/
def nestedEntries : DirectoryEntries :=
  [(encode "sub", .directory
      [(encode "c.css", .file []), (encode "dist", .file []), (encode "e.min.css", .file [])]),
    (encode "dist", .directory [(encode "b.css", .file [])]),
    (encode "l.css", .link (.ofText "a.css")), (encode ".css", .file []),
    (encode "a.css", .file [])]

/-- A directory `d` with these entries. -/
def nestedSystem : FileSystem := ⟨.directory [(encode "d", .directory nestedEntries)], []⟩

theorem scansExactly_plain_nested : ∃ filter,
    FileFilter.ofLists [".css"] ["dist"] ["*.min.css"] = .ok filter ∧
      nestedSystem.tree.isWellFormed = true ∧
      nestedSystem.place? (.ofText "d//") = .ok [encode "d"] ∧
      nestedSystem.tree.get? [encode "d"] = some (.directory nestedEntries) ∧
      filter.Follows [".css"] ["dist"] ["*.min.css"] ∧
      ScansExactly filter nestedSystem.tree [encode "d"] (.ofText "d//")
        (scan ⟨filter, false⟩ nestedSystem .unknown (.ofText "d//")) := by
  have hfilter : ∃ filter, FileFilter.ofLists [".css"] ["dist"] ["*.min.css"] = .ok filter :=
    ⟨_, by cbv⟩
  have hwell : nestedSystem.tree.isWellFormed = true := by decide
  have hplace : nestedSystem.place? (.ofText "d//") = .ok [encode "d"] := by cbv
  have hdirectory : nestedSystem.tree.get? [encode "d"] = some (.directory nestedEntries) := rfl
  obtain ⟨filter, hfilter⟩ := hfilter
  exact ⟨filter, hfilter, hwell, hplace, hdirectory,
    scansExactly_plain hfilter hwell hplace hdirectory .unknown⟩

example : scan ⟨⟨["css"], ["dist"], []⟩, false⟩ nestedSystem .unknown (.ofText "d//") =
    [.ofText "d//a.css", .ofText "d//sub/c.css", .ofText "d//sub/e.min.css"] := by cbv

end Scanner

end LiteralAudit
