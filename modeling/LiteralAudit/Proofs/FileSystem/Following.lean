import LiteralAudit.Proofs.FileTree.Places
import LiteralAudit.Proofs.Path.Spelling

/-!
# Following paths

Where the pieces of a path lead to is a relation between places, with one case for each kind of
piece (`FileSystem.Leads`).  It holds exactly where following the path finds something
(`FileSystem.follow_eq_found`, `FileSystem.place?_eq_ok`).  Only the steps of a path matter to what
directory it leads to (`FileSystem.place?_of_same`), and from there names lead on through the tree
(`FileSystem.place?_below`).
-/

namespace LiteralAudit

theorem FileTree.get?_concat {tree : FileTree} {place : Location} {entries : DirectoryEntries}
    (hdirectory : tree.get? place = some (.directory entries)) (name : FileName) :
    tree.get? (place ++ [name]) = DirectoryEntries.get? name entries := by
  rw [get?_of_append hdirectory, get?_cons_directory]
  cases DirectoryEntries.get? name entries <;> rfl

namespace FileSystem

/-! ## Where pieces lead to -/

/-- The pieces of a path lead from one place to another, over no more links than are left. -/
inductive Leads (tree : FileTree) : (links : Nat) → (place : Location) →
    (pieces : List (List UInt8)) → (target : Location) → Prop where
  | here (links : Nat) (place : Location) : Leads tree links place [] place
  | idle {links : Nat} {place target : Location} {entries : DirectoryEntries} {piece : List UInt8}
      {pieces : List (List UInt8)} (hdirectory : tree.get? place = some (.directory entries))
      (hpiece : Path.stepOfPiece? piece = none) (hrest : Leads tree links place pieces target) :
      Leads tree links place (piece :: pieces) target
  | parent {links : Nat} {place target : Location} {entries : DirectoryEntries} {piece : List UInt8}
      {pieces : List (List UInt8)} (hdirectory : tree.get? place = some (.directory entries))
      (hpiece : Path.stepOfPiece? piece = some .parent)
      (hrest : Leads tree links place.dropLast pieces target) :
      Leads tree links place (piece :: pieces) target
  | entry {links : Nat} {place target : Location} {sub : FileTree} {name : FileName}
      {pieces : List (List UInt8)} (hname : Path.stepOfPiece? name = some (.name name))
      (hlength : name.length ≤ nameLimit) (hsub : tree.get? (place ++ [name]) = some sub)
      (hlink : sub.isLink = false) (hrest : Leads tree links (place ++ [name]) pieces target) :
      Leads tree links place (name :: pieces) target
  | link {links : Nat} {place target : Location} {path : Path} {name : FileName}
      {pieces : List (List UInt8)} (hname : Path.stepOfPiece? name = some (.name name))
      (hlength : name.length ≤ nameLimit) (hlink : tree.get? (place ++ [name]) = some (.link path))
      (hrest : Leads tree links (if path.isAbsolute then [] else place)
        (splitSlashes path.bytes ++ pieces) target) :
      Leads tree (links + 1) place (name :: pieces) target

variable {tree : FileTree} {links : Nat} {place target : Location} {pieces : List (List UInt8)}

theorem leads_of_follow (hfollow : follow tree true links place pieces = .ok (.found target)) :
    Leads tree links place pieces target := by
  generalize hlast : true = last at hfollow
  fun_induction follow tree last links place pieces
  case case1 =>
    cases hfollow
    exact .here ..
  case case2 hdirectory hidle ih =>
    exact .idle hdirectory (Path.stepOfPiece?_eq_none.mpr (by simpa using hidle)) (ih hfollow)
  case case3 hdirectory hidle ih =>
    exact .parent hdirectory rfl (ih hfollow)
  case case9 hdirectory hidle hparent hlength path hlink hfinal links ih =>
    exact .link (Path.stepOfPiece?_eq_name.mpr ⟨rfl, by simpa using hidle, hparent⟩)
      (Nat.le_of_not_lt hlength) ((FileTree.get?_concat hdirectory _).trans hlink) (ih hfollow)
  case case10 hdirectory hidle hparent hlength sub hlink hsub ih =>
    have hnone : sub.isLink = false := by
      cases sub with
      | link path => exact absurd rfl (hlink path)
      | _ => rfl
    exact .entry (Path.stepOfPiece?_eq_name.mpr ⟨rfl, by simpa using hidle, hparent⟩)
      (Nat.le_of_not_lt hlength) ((FileTree.get?_concat hdirectory _).trans hsub) hnone (ih hfollow)
  case case7 hfinal =>
    simp [← hlast] at hfinal
  all_goals cases hfollow

theorem follow_of_leads (hleads : Leads tree links place pieces target) :
    follow tree true links place pieces = .ok (.found target) := by
  induction hleads with
  | here links place => rw [follow]
  | idle hdirectory hpiece _ ih =>
      have hidle := Path.stepOfPiece?_eq_none.mp hpiece
      rw [follow, hdirectory]
      simpa [hidle] using ih
  | parent hdirectory hpiece _ ih =>
      obtain rfl := Path.stepOfPiece?_eq_parent.mp hpiece
      rw [follow, hdirectory]
      simpa using ih
  | @entry _ _ _ sub name _ hname hlength hsub hlink _ ih =>
      obtain ⟨-, hidle, hparent⟩ := Path.stepOfPiece?_eq_name.mp hname
      obtain ⟨entries, hdirectory⟩ := FileTree.get?_directory (List.cons_ne_nil _ _) hsub
      rw [FileTree.get?_concat hdirectory] at hsub
      rw [follow, hdirectory]
      simp only [hidle, hparent, Nat.not_lt.mpr hlength, hsub, Bool.or_eq_true,
        decide_eq_true_eq, if_false]
      cases sub with
      | link path => cases hlink
      | _ => exact ih
  | link hname hlength hlink _ ih =>
      obtain ⟨-, hidle, hparent⟩ := Path.stepOfPiece?_eq_name.mp hname
      obtain ⟨entries, hdirectory⟩ := FileTree.get?_directory (List.cons_ne_nil _ _) hlink
      rw [FileTree.get?_concat hdirectory] at hlink
      rw [follow, hdirectory]
      simpa [hidle, hparent, Nat.not_lt.mpr hlength, hlink] using ih

/-- Following the pieces of a path finds the place that they lead to. -/
theorem follow_eq_found : follow tree true links place pieces = .ok (.found target) ↔
    Leads tree links place pieces target :=
  ⟨leads_of_follow, follow_of_leads⟩

/-- The place that a path starts from. -/
def start (system : FileSystem) (path : Path) : Location :=
  if path.isAbsolute then [] else system.working

/-- A path leads to a place if it is admitted and its pieces lead there. -/
theorem place?_eq_ok {system : FileSystem} {path : Path} :
    system.place? path = .ok place ↔
      0 ∉ path.bytes ∧ path.bytes ≠ [] ∧ path.bytes.length ≤ pathLimit ∧
        Leads system.tree linkLimit (system.start path) (splitSlashes path.bytes) place := by
  have hdestination : system.place? path = .ok place ↔
      system.destination true path = .ok (.found place) := by
    rw [place?]
    split <;> simp [*]
  rw [hdestination, destination, ← follow_eq_found]
  split
  next hzero => simp_all
  next hzero =>
    split
    next hempty => simp_all
    next hempty =>
      split
      next hlong => simp [Nat.not_le.mpr hlong]
      next hshort => simp_all [start]

/-! ## Pieces that make no step -/

/-- Pieces that make no step stay in a directory. -/
theorem Leads.after_idle {entries : DirectoryEntries}
    (hdirectory : tree.get? place = some (.directory entries)) {idle : List (List UInt8)}
    (hidle : ∀ piece ∈ idle, Path.stepOfPiece? piece = none)
    (hleads : Leads tree links place pieces target) :
    Leads tree links place (idle ++ pieces) target := by
  induction idle with
  | nil => exact hleads
  | cons piece idle ih =>
      exact .idle hdirectory (hidle piece (.head _))
        (ih fun other hmem => hidle other (.tail _ hmem))

/-- Pieces that make the same steps lead to the same directory. -/
theorem Leads.of_steps {entries : DirectoryEntries} (hleads : Leads tree links place pieces target)
    (htarget : tree.get? target = some (.directory entries)) {others : List (List UInt8)}
    (hsteps : others.filterMap Path.stepOfPiece? = pieces.filterMap Path.stepOfPiece?) :
    Leads tree links place others target := by
  induction hleads generalizing others with
  | here links place =>
      have hidle := List.filterMap_eq_nil_iff.mp hsteps
      simpa using (Leads.here links place).after_idle htarget hidle
  | idle hdirectory hpiece _ ih =>
      rw [List.filterMap_cons_none hpiece] at hsteps
      exact ih htarget hsteps
  | parent hdirectory hpiece _ ih =>
      rw [List.filterMap_cons_some hpiece] at hsteps
      obtain ⟨idle, other, rest, rfl, hidle, hother, hrest⟩ := List.filterMap_eq_cons_iff.mp hsteps
      exact Leads.after_idle hdirectory hidle (.parent hdirectory hother (ih htarget hrest))
  | entry hname hlength hsub hlink _ ih =>
      rw [List.filterMap_cons_some hname] at hsteps
      obtain ⟨idle, other, rest, rfl, hidle, hother, hrest⟩ := List.filterMap_eq_cons_iff.mp hsteps
      obtain ⟨rfl, -, -⟩ := Path.stepOfPiece?_eq_name.mp hother
      obtain ⟨_, hdirectory⟩ := FileTree.get?_directory (List.cons_ne_nil _ _) hsub
      exact Leads.after_idle hdirectory hidle
        (.entry hname hlength hsub hlink (ih htarget hrest))
  | link hname hlength hlink _ ih =>
      rw [List.filterMap_cons_some hname] at hsteps
      obtain ⟨idle, other, rest, rfl, hidle, hother, hrest⟩ := List.filterMap_eq_cons_iff.mp hsteps
      obtain ⟨rfl, -, -⟩ := Path.stepOfPiece?_eq_name.mp hother
      obtain ⟨_, hdirectory⟩ := FileTree.get?_directory (List.cons_ne_nil _ _) hlink
      exact Leads.after_idle hdirectory hidle
        (.link hname hlength hlink (ih htarget (by simp [hrest])))

/-! ## Names that lead on -/

/-- Names that are in a tree lead to their own place, if there is no link at it. -/
theorem leads_names {names : Location} (hnames : ∀ name ∈ names, IsEntryName name) {sub : FileTree}
    (hsub : tree.get? (place ++ names) = some sub) (hlink : sub.isLink = false) :
    Leads tree links place names (place ++ names) := by
  induction names generalizing place with
  | nil =>
      rw [List.append_nil]
      exact .here ..
  | cons name names ih =>
      have hname := hnames name (.head _)
      rw [List.append_cons] at hsub ⊢
      have hfirst : ∃ first, tree.get? (place ++ [name]) = some first ∧ first.isLink = false := by
        cases names with
        | nil => exact ⟨sub, by simpa using hsub, hlink⟩
        | cons other names =>
            obtain ⟨entries, hdirectory⟩ := FileTree.get?_directory (List.cons_ne_nil _ _) hsub
            exact ⟨_, hdirectory, rfl⟩
      obtain ⟨first, hget, hnone⟩ := hfirst
      exact .entry (Path.stepOfPiece?_name hname) hname.length_le hget hnone
        (ih (fun other hmem => hnames other (.tail _ hmem)) hsub)

/-- Names lead on from where other pieces lead to. -/
theorem Leads.append {names : Location} (hleads : Leads tree links place pieces target)
    (hnames : ∀ name ∈ names, IsEntryName name) {sub : FileTree}
    (hsub : tree.get? (target ++ names) = some sub) (hlink : sub.isLink = false) :
    Leads tree links place (pieces ++ names) (target ++ names) := by
  induction hleads with
  | here links place => exact leads_names hnames hsub hlink
  | idle hdirectory hpiece _ ih => exact .idle hdirectory hpiece (ih hsub)
  | parent hdirectory hpiece _ ih => exact .parent hdirectory hpiece (ih hsub)
  | entry hname hlength hget hnone _ ih => exact .entry hname hlength hget hnone (ih hsub)
  | link hname hlength hget _ ih =>
      rw [List.append_assoc] at ih
      exact .link hname hlength hget (ih hsub)

/-! ## Paths to directories -/

section Directory

variable {system : FileSystem} {location : Location} {entries : DirectoryEntries}

/-- Paths with the same steps lead to the same directory. -/
theorem place?_of_same {path other : Path} (hplace : system.place? path = .ok location)
    (hdirectory : system.tree.get? location = some (.directory entries))
    (hsame : path.same other = true) (hfits : other.bytes.length ≤ pathLimit) :
    system.place? other = .ok location := by
  have hsteps : path.steps = other.steps := by simpa [Path.same] using hsame
  obtain ⟨hzero, hsome, -, hleads⟩ := place?_eq_ok.mp hplace
  refine place?_eq_ok.mpr ⟨?_, ?_, hfits, ?_⟩
  · rw [Path.mem_bytes_iff (by decide) (by decide)] at hzero ⊢
    rwa [← hsteps]
  · rwa [ne_eq, ← Path.steps_eq_nil, ← hsteps, Path.steps_eq_nil]
  · have hstart : system.start other = system.start path := by
      simp only [start, Path.isAbsolute_iff, hsteps]
    rw [hstart]
    refine hleads.of_steps hdirectory ?_
    show Path.laterSteps other.bytes = Path.laterSteps path.bytes
    rw [Path.laterSteps_eq, Path.laterSteps_eq, hsteps]

/-- Names lead from a directory to what is there in the tree. -/
theorem place?_below {root : Path} {names : Location} {sub : FileTree}
    (hwell : system.tree.isWellFormed = true) (hplace : system.place? root = .ok location)
    (hsub : system.tree.get? (location ++ names) = some sub) (hlink : sub.isLink = false)
    (hfits : (root.below names).bytes.length ≤ pathLimit) :
    system.place? (root.below names) = .ok (location ++ names) := by
  by_cases hnone : names = []
  · rw [hnone, List.append_nil]
    exact hplace
  have hnames : ∀ name ∈ names, IsEntryName name := fun name hmem =>
    (FileTree.isWellFormed_get? hwell hsub).1 name (List.mem_append_right _ hmem)
  obtain ⟨entries, hdirectory⟩ := FileTree.get?_directory hnone hsub
  obtain ⟨hzero, hsome, -, hleads⟩ := place?_eq_ok.mp hplace
  have hsteps : root.steps ≠ [] := by rwa [ne_eq, Path.steps_eq_nil]
  obtain ⟨pieces, hpieces, hsplit⟩ := Path.splitSlashes_below hsome
  refine place?_eq_ok.mpr ⟨?_, ?_, hfits, ?_⟩
  · rw [Path.mem_bytes_iff (by decide) (by decide)] at hzero ⊢
    rintro ⟨name, hmem, hbyte⟩
    rw [root.steps_below hnames, List.mem_append] at hmem
    rcases hmem with hmem | hmem
    · exact hzero ⟨name, hmem, hbyte⟩
    · obtain ⟨other, hother, hname⟩ := List.mem_map.mp hmem
      obtain rfl := PathStep.name.inj hname
      exact (hnames other hother).no_zero hbyte
  · rw [ne_eq, ← Path.steps_eq_nil, root.steps_below hnames]
    exact fun hnil => hsteps (List.append_eq_nil_iff.mp hnil).1
  · have hstart : system.start (root.below names) = system.start root := by
      simp only [start, Path.isAbsolute_iff, root.steps_below hnames,
        List.head?_append_of_ne_nil _ hsteps]
    rw [hstart, hsplit names hnames hnone]
    exact (hleads.of_steps hdirectory hpieces).append hnames hsub hlink

/-- What names lead to from a directory is read through the path below it. -/
theorem read_below {root : Path} {names : Location} {bytes : List UInt8}
    (hwell : system.tree.isWellFormed = true) (hplace : system.place? root = .ok location)
    (hfile : system.tree.get? (location ++ names) = some (.file bytes))
    (hfits : (root.below names).bytes.length ≤ pathLimit) :
    system.read (root.below names) = .ok bytes := by
  rw [read, place?_below hwell hplace hfile rfl hfits]
  simp only [hfile]

end Directory

/-- A path that is too long is not read, whatever the files are. -/
theorem read_of_tooLong {path : Path} (hlong : pathLimit < path.bytes.length) :
    ∃ fault, ∀ system : FileSystem, system.read path = .error fault := by
  have hsome : path.bytes ≠ [] := by
    intro hnil
    simp [hnil] at hlong
  refine ⟨if path.bytes.contains 0 then .zeroByte else .nameTooLong, fun system => ?_⟩
  by_cases hzero : 0 ∈ path.bytes <;> simp [read, place?, destination, hzero, hsome, hlong]

end FileSystem

end LiteralAudit
