import LiteralAudit.Proofs.FileTree.Places
import LiteralAudit.Proofs.Path.Order
import LiteralAudit.Scan.Walk
import Mathlib.Data.List.Infix

/-!
# What walks find

A walk goes through all entries of a directory, so what it finds are the places of all files in the
directory, less those it turns away from (`FileFilter.filesOfEntries_eq`,
`IgnoreWalk.filesOfEntries_eq`).  Turning away from directories on the way down is the same as
asking about the directories of a file on the way up (`FileFilter.entersUpTo_below`): the way up
from a path below a root meets the spellings of the way down, and ends at the root in whatever
spelling it comes.
-/

namespace LiteralAudit

/-! ## The way up -/

namespace Path

/-- The path is below a root and is not the root itself. -/
def isInside (root path : Path) : Bool := !path.same root && startsWith root path

theorem isInside_of_same {root path : Path} (hsame : path.same root = true) :
    isInside root path = false := by
  rw [isInside, hsame]
  rfl

theorem isInside_below (root : Path) {names : Location} (hnames : ∀ name ∈ names, IsEntryName name)
    (hsome : names ≠ []) : isInside root (root.below names) = true := by
  simp [isInside, same, startsWith, steps_below root hnames, hsome]

/-- The parents of a path that are below a root, the longest first. -/
def ascent (root path : Path) (fuel : Nat) : List Path :=
  (ancestorsFrom fuel path).takeWhile (isInside root)

theorem ascent_of_same {root path : Path} (hsame : path.same root = true) (fuel : Nat) :
    ascent root path fuel = [] := by
  cases fuel with
  | zero => simp [ascent, ancestorsFrom, isInside_of_same hsame]
  | succ fuel => simp [ascent, ancestorsFrom, isInside_of_same hsame]

/-- On the way up from an entry comes the entry, and then what comes on the way up from its
directory. -/
theorem ascent_concat (root : Path) {names : Location} {name : FileName}
    (hnames : ∀ other ∈ names ++ [name], IsEntryName other) (fuel : Nat) :
    ascent root (root.below (names ++ [name])) (fuel + 1) =
      root.below (names ++ [name]) :: ascent root (root.below names) fuel := by
  have hname : IsEntryName name := hnames name (by simp)
  rw [ascent, ancestorsFrom, List.takeWhile_cons_of_pos (isInside_below root hnames (by simp)),
    below_concat]
  refine congrArg _ ?_
  cases names using List.reverseRecOn with
  | nil =>
      rw [below_nil, root.parent?_child hname]
      show ascent root _ fuel = ascent root root fuel
      rw [ascent_of_same root.same_parent, ascent_of_same (by simp [same])]
  | append_singleton names last =>
      have hlast : IsEntryName last := hnames last (by simp)
      rw [below_concat, parent?_child_child _ hlast hname]
      rfl

/-- The way up meets every directory of the way down. -/
theorem all_ascent (root : Path) (test : Path → Bool) {names : Location}
    (hnames : ∀ name ∈ names, IsEntryName name) {fuel : Nat} (hfuel : names.length ≤ fuel) :
    (ascent root (root.below names) fuel).all test = true ↔
      ∀ inner, inner <+: names → inner ≠ [] → test (root.below inner) = true := by
  induction names using List.reverseRecOn generalizing fuel with
  | nil =>
      rw [below_nil, ascent_of_same (by simp [same])]
      simp
  | append_singleton names name ih =>
      obtain ⟨fuel, rfl⟩ : ∃ n, fuel = n + 1 := ⟨fuel - 1, by simp at hfuel; omega⟩
      have hrest : ∀ other ∈ names, IsEntryName other :=
        fun other hmem => hnames other (List.mem_append_left _ hmem)
      rw [ascent_concat root hnames, List.all_cons, Bool.and_eq_true,
        ih hrest (by simp at hfuel; omega)]
      simp only [List.prefix_concat_iff]
      constructor
      · rintro ⟨hlast, hinner⟩ inner (rfl | hstarts) hsome
        · exact hlast
        · exact hinner inner hstarts hsome
      · intro h
        exact ⟨h _ (Or.inl rfl) (by simp), fun inner hstarts => h inner (Or.inr hstarts)⟩

/-- The parents of an entry that are below a root are on the way up from its directory. -/
theorem takeWhile_ancestors (root : Path) {names : Location} {name : FileName}
    (hnames : ∀ other ∈ names ++ [name], IsEntryName other) :
    ∃ fuel, names.length ≤ fuel ∧
      ((root.below (names ++ [name])).ancestors.drop 1).takeWhile (isInside root) =
        ascent root (root.below names) fuel := by
  have hlength := root.length_le_below hnames
  rw [List.length_append, List.length_singleton] at hlength
  obtain ⟨fuel, hfuel⟩ : ∃ fuel, (root.below (names ++ [name])).bytes.length = fuel + 1 :=
    ⟨(root.below (names ++ [name])).bytes.length - 1, by omega⟩
  have hconcat := ascent_concat root hnames fuel
  rw [ascent, ancestorsFrom,
    List.takeWhile_cons_of_pos (isInside_below root hnames (by simp))] at hconcat
  refine ⟨fuel, by omega, ?_⟩
  rw [ancestors, hfuel, ancestorsFrom]
  exact (List.cons.inj hconcat).2

end Path

/-! ## Walking without ignore files -/

namespace FileFilter

variable (filter : FileFilter)

/-- Whether a file is wanted and the directories on the way to it are entered. -/
def passes : Path → Location → Bool
  | path, [] => filter.wants path
  | path, name :: names => filter.enters path && passes (path.child name) names

/-- A file passes exactly if it is wanted and each directory from the root down to it is entered. -/
theorem passes_iff (path : Path) (names : Location) :
    filter.passes path names = true ↔
      (∀ inner, inner <+: names → inner ≠ names → filter.enters (path.below inner) = true) ∧
        filter.wants (path.below names) = true := by
  induction names generalizing path with
  | nil => simp [passes]
  | cons name names ih =>
      rw [passes, Bool.and_eq_true, ih, ← and_assoc]
      refine and_congr_left' ⟨?_, ?_⟩
      · rintro ⟨henters, hbelow⟩ inner hstarts hne
        cases inner with
        | nil => exact henters
        | cons other inner =>
            obtain ⟨rfl, htail⟩ := List.cons_prefix_cons.mp hstarts
            exact hbelow inner htail fun h => hne (h ▸ rfl)
      · intro h
        refine ⟨h [] List.nil_prefix (List.cons_ne_nil _ _).symm, fun inner hstarts hne => ?_⟩
        exact h (name :: inner) (List.cons_prefix_cons.mpr ⟨rfl, hstarts⟩)
          fun h => hne (List.cons.inj h).2

mutual

/-- A walk without ignore files gives the paths of the files that pass. -/
theorem files_eq : ∀ (tree : FileTree) (path : Path),
    filter.files path tree = (tree.filePlaces.filter (filter.passes path)).map path.below
  | .file _, path => by
      cases hwants : filter.wants path <;> simp [files, FileTree.filePlaces, passes, hwants]
  | .link _, _ => rfl
  | .directory entries, path => by
      rw [files, FileTree.filePlaces]
      split
      next henters => exact filesOfEntries_eq henters entries
      next hclosed =>
        have hnone : (FileTree.filePlacesOfEntries entries).filter (filter.passes path) = [] := by
          refine List.filter_eq_nil_iff.mpr fun place hmem => ?_
          obtain ⟨name, -, inner, rfl⟩ := FileTree.exists_name_of_mem hmem
          simp [passes, hclosed]
        rw [hnone, List.map_nil]

theorem filesOfEntries_eq {path : Path} (henters : filter.enters path = true) :
    ∀ entries : DirectoryEntries, filter.filesOfEntries path entries =
      ((FileTree.filePlacesOfEntries entries).filter (filter.passes path)).map path.below
  | [] => rfl
  | (name, tree) :: entries => by
      have hfirst : (tree.filePlaces.map (name :: ·)).filter (filter.passes path) =
          (tree.filePlaces.filter (filter.passes (path.child name))).map (name :: ·) := by
        rw [List.filter_map]
        refine congrArg _ (List.filter_congr fun place _ => ?_)
        simp [passes, henters]
      rw [filesOfEntries, FileTree.filePlacesOfEntries, List.filter_append, List.map_append,
        files_eq tree, filesOfEntries_eq henters entries, hfirst, List.map_map]
      rfl

end

/-- Asking about the directories on the way up is asking about those on the way down. -/
theorem entersUpTo_below (root : Path) {names : Location} (hsome : names ≠ [])
    (hnames : ∀ name ∈ names, IsEntryName name) :
    filter.entersUpTo root (root.below names) = true ↔
      ∀ inner, inner <+: names → inner ≠ [] → inner ≠ names →
        filter.enters (root.below inner) = true := by
  obtain ⟨before, name, rfl⟩ : ∃ before name, names = before ++ [name] :=
    ⟨_, _, (List.dropLast_append_getLast hsome).symm⟩
  have hbefore : ∀ other ∈ before, IsEntryName other :=
    fun other hmem => hnames other (List.mem_append_left _ hmem)
  obtain ⟨fuel, hfuel, hup⟩ := Path.takeWhile_ancestors root hnames
  rw [entersUpTo]
  show (List.takeWhile (Path.isInside root) _).all _ = true ↔ _
  rw [hup, Path.all_ascent root _ hbefore hfuel]
  refine forall_congr' fun inner => ?_
  rw [List.prefix_concat_iff]
  constructor
  · rintro h (rfl | hstarts) hsome hne
    · exact absurd rfl hne
    · exact h hstarts hsome
  · intro h hstarts hsome
    refine h (Or.inr hstarts) hsome ?_
    rintro rfl
    have hlong := hstarts.length_le
    simp only [List.length_append, List.length_singleton] at hlong
    omega

end FileFilter

/-! ## Walking with ignore files -/

namespace IgnoreWalk

variable (walk : IgnoreWalk)

/-- Whether no ignore file leaves out a file or a directory on the way to it.  `levels` are the
ignore files of the directories around. -/
def keeps : List IgnoreLevel → Location → Path → Location → Bool
  | levels, _, path, [] => !walk.ignores levels path false
  | levels, location, path, name :: names =>
      !walk.ignores levels path true &&
        keeps (walk.level location path :: levels) (location ++ [name]) (path.child name) names

/-- Whether no ignore file leaves out a file below a directory or a directory between them. -/
def keepsBelow (levels : List IgnoreLevel) (location : Location) (path : Path) : Location → Bool
  | [] => true
  | name :: names => walk.keeps levels (location ++ [name]) (path.child name) names

/-- The ignore files of the directories around a place below a root, the innermost ones first. -/
def levelsAround (location : Location) (root : Path) (place : Location) : List IgnoreLevel :=
  (List.range place.length).reverse.map fun count =>
    walk.level (location ++ place.take count) (root.below (place.take count))

/-- The levels around a place are those of the directories on the way to it. -/
theorem mem_levelsAround {location : Location} {root : Path} {place : Location}
    {level : IgnoreLevel} : level ∈ walk.levelsAround location root place ↔
      ∃ count < place.length,
        walk.level (location ++ place.take count) (root.below (place.take count)) = level := by
  simp [levelsAround]

theorem levelsAround_concat (location : Location) (root : Path) (place : Location)
    (name : FileName) : walk.levelsAround location root (place ++ [name]) =
      walk.level (location ++ place) (root.below place) ::
        walk.levelsAround location root place := by
  rw [levelsAround, List.length_append, List.length_singleton, List.range_succ, List.reverse_append,
    List.reverse_singleton, List.singleton_append, List.map_cons, List.take_left]
  refine congrArg _ (List.map_congr_left fun count hmem => ?_)
  have hcount : count ≤ place.length := by
    rw [List.mem_reverse, List.mem_range] at hmem
    omega
  rw [List.take_append_of_le_length hcount]

/-- The induction is along the names that are still to go, `place` being what is behind. -/
theorem keeps_iff (location : Location) (root : Path) (place names : Location) :
    walk.keeps (walk.levelsAround location root place) (location ++ place) (root.below place)
        names =
        true ↔
      ∀ inner, inner <+: names →
        walk.ignores (walk.levelsAround location root (place ++ inner))
          (root.below (place ++ inner))
          (decide (inner ≠ names)) = false := by
  induction names generalizing place with
  | nil => simp [keeps]
  | cons name names ih =>
      have hrest := ih (place ++ [name])
      rw [levelsAround_concat, Path.below_concat, ← List.append_assoc] at hrest
      rw [keeps, Bool.and_eq_true, Bool.not_eq_true', hrest]
      constructor
      · rintro ⟨hkept, hinner⟩ inner hstarts
        cases inner with
        | nil => simpa using hkept
        | cons other inner =>
            obtain ⟨rfl, htail⟩ := List.cons_prefix_cons.mp hstarts
            simpa using hinner inner htail
      · intro h
        refine ⟨by simpa using h [] List.nil_prefix, fun inner htail => ?_⟩
        simpa using h (name :: inner) (List.cons_prefix_cons.mpr ⟨rfl, htail⟩)

/-- A file is kept if no ignore file around leaves out the file or a directory on the way to it. -/
theorem keepsBelow_iff (location : Location) (root : Path) (names : Location) :
    walk.keepsBelow [walk.level location root] location root names = true ↔
      ∀ inner, inner <+: names → inner ≠ [] →
        walk.ignores (walk.levelsAround location root inner) (root.below inner)
          (decide (inner ≠ names)) = false := by
  cases names with
  | nil => simp [keepsBelow]
  | cons name names =>
      have hlevels : walk.levelsAround location root [name] = [walk.level location root] := by
        simp [levelsAround]
      have hkeeps := walk.keeps_iff location root [name] names
      rw [hlevels] at hkeeps
      rw [keepsBelow]
      refine hkeeps.trans ⟨fun h inner hstarts hsome => ?_, fun h inner htail => ?_⟩
      · obtain ⟨other, inner, rfl⟩ := List.exists_cons_of_ne_nil hsome
        obtain ⟨rfl, htail⟩ := List.cons_prefix_cons.mp hstarts
        simpa using h inner htail
      · have hstarts : name :: inner <+: name :: names := List.cons_prefix_cons.mpr ⟨rfl, htail⟩
        simpa using h (name :: inner) hstarts (List.cons_ne_nil _ _)

mutual

/-- A walk with ignore files gives the paths of the files that are kept on the whole way. -/
theorem files_eq : ∀ (tree : FileTree) (levels : List IgnoreLevel) (location : Location)
    (path : Path), walk.files levels location path tree =
      (tree.filePlaces.filter (walk.keeps levels location path)).map path.below
  | .file _, levels, location, path => by
      cases hignores : walk.ignores levels path false <;>
        simp [files, FileTree.filePlaces, keeps, hignores]
  | .link _, _, _, _ => rfl
  | .directory entries, levels, location, path => by
      rw [files, FileTree.filePlaces, filesOfEntries_eq entries]
      split
      next hignores =>
        have hnone : (FileTree.filePlacesOfEntries entries).filter
            (walk.keeps levels location path) = [] := by
          refine List.filter_eq_nil_iff.mpr fun place hmem => ?_
          obtain ⟨name, -, inner, rfl⟩ := FileTree.exists_name_of_mem hmem
          simp [keeps, hignores]
        rw [hnone, List.map_nil]
      next hkept =>
        refine congrArg _ (List.filter_congr fun place hmem => ?_)
        obtain ⟨name, -, inner, rfl⟩ := FileTree.exists_name_of_mem hmem
        simp [keeps, keepsBelow, hkept]

theorem filesOfEntries_eq : ∀ (entries : DirectoryEntries) (levels : List IgnoreLevel)
    (location : Location) (path : Path), walk.filesOfEntries levels location path entries =
      ((FileTree.filePlacesOfEntries entries).filter
        (walk.keepsBelow levels location path)).map path.below
  | [], _, _, _ => rfl
  | (name, tree) :: entries, levels, location, path => by
      have hfirst : (tree.filePlaces.map (name :: ·)).filter
          (walk.keepsBelow levels location path) =
          (tree.filePlaces.filter
            (walk.keeps levels (location ++ [name]) (path.child name))).map (name :: ·) := by
        rw [List.filter_map]
        rfl
      rw [filesOfEntries, FileTree.filePlacesOfEntries, List.filter_append, List.map_append,
        files_eq tree, filesOfEntries_eq entries, hfirst, List.map_map]
      rfl

end

end IgnoreWalk

end LiteralAudit
