import LiteralAudit.Proofs.FileSystem.Following

/-!
# Trees that differ in one file

Two trees may have the same at every place but one, where each has a file or nothing
(`FileTree.DiffersOnlyAt`).  A path that leads to a directory never leads through that place, so it
leads to the same directory in both (`FileSystem.place?_of_differs`), and files at other places are
read alike (`FileSystem.read_of_differs`).
-/

namespace LiteralAudit

namespace FileTree

/-- A tree without what is below it. -/
def surface : FileTree → FileTree
  | .directory _ => emptyDirectory
  | tree => tree

/-- Two trees have the same at every place but one, where each has a file or nothing. -/
structure DiffersOnlyAt (tree other : FileTree) (place : Location) : Prop where
  /-- At other places there are the same files and links, and directories in both or in none. -/
  elsewhere : ∀ location, location ≠ place →
    (tree.get? location).map surface = (other.get? location).map surface
  /-- The one tree has a file or nothing at the place. -/
  one : tree.get? place = none ∨ tree.HasFile place
  /-- The other tree has a file or nothing at the place. -/
  another : other.get? place = none ∨ other.HasFile place

theorem DiffersOnlyAt.symm {tree other : FileTree} {place : Location}
    (hdiffers : tree.DiffersOnlyAt other place) : other.DiffersOnlyAt tree place where
  elsewhere location hne := (hdiffers.elsewhere location hne).symm
  one := hdiffers.another
  another := hdiffers.one

variable {tree other : FileTree} {place location : Location}

theorem DiffersOnlyAt.ne_of_get? (hdiffers : tree.DiffersOnlyAt other place) {sub : FileTree}
    (hget : tree.get? location = some sub) (hfile : ∀ bytes, sub ≠ .file bytes) :
    location ≠ place := by
  rintro rfl
  rcases hdiffers.one with hnone | ⟨bytes, hbytes⟩
  · simp [hnone] at hget
  · rw [hget] at hbytes
    exact hfile bytes (Option.some.inj hbytes)

/-- A directory of one tree is a directory of the other, perhaps with other entries. -/
theorem DiffersOnlyAt.get?_directory (hdiffers : tree.DiffersOnlyAt other place)
    {entries : DirectoryEntries} (hget : tree.get? location = some (.directory entries)) :
    ∃ entries, other.get? location = some (.directory entries) := by
  have hsurface := hdiffers.elsewhere location (hdiffers.ne_of_get? hget fun _ => nofun)
  rw [hget] at hsurface
  obtain ⟨sub, hsub, hdirectory⟩ := Option.map_eq_some_iff.mp hsurface.symm
  cases sub with
  | directory entries => exact ⟨entries, hsub⟩
  | _ => cases hdirectory

theorem DiffersOnlyAt.get?_link (hdiffers : tree.DiffersOnlyAt other place) {target : Path}
    (hget : tree.get? location = some (.link target)) :
    other.get? location = some (.link target) := by
  have hsurface := hdiffers.elsewhere location (hdiffers.ne_of_get? hget fun _ => nofun)
  rw [hget] at hsurface
  obtain ⟨sub, hsub, hlink⟩ := Option.map_eq_some_iff.mp hsurface.symm
  cases sub with
  | link other => exact hsub.trans (congrArg some hlink)
  | _ => cases hlink

theorem DiffersOnlyAt.get?_file (hdiffers : tree.DiffersOnlyAt other place) {bytes : List UInt8}
    (hne : location ≠ place) (hget : tree.get? location = some (.file bytes)) :
    other.get? location = some (.file bytes) := by
  have hsurface := hdiffers.elsewhere location hne
  rw [hget] at hsurface
  obtain ⟨sub, hsub, hfile⟩ := Option.map_eq_some_iff.mp hsurface.symm
  cases sub with
  | file other => exact hsub.trans (congrArg some hfile)
  | _ => cases hfile

/-- At every other place both trees have the same files. -/
theorem DiffersOnlyAt.hasFile_iff (hdiffers : tree.DiffersOnlyAt other place)
    (hne : location ≠ place) : tree.HasFile location ↔ other.HasFile location :=
  ⟨fun ⟨bytes, hget⟩ => ⟨bytes, hdiffers.get?_file hne hget⟩,
    fun ⟨bytes, hget⟩ => ⟨bytes, hdiffers.symm.get?_file hne hget⟩⟩

/-! ## Writing a file -/

/-- Setting an entry changes what is found under its name, and nothing else. -/
theorem get?_set (name other : FileName) (new : FileTree) (entries : DirectoryEntries) :
    DirectoryEntries.get? other (DirectoryEntries.set name new entries) =
      if name = other then some new else DirectoryEntries.get? other entries := by
  induction entries with
  | nil => rfl
  | cons entry entries ih =>
      obtain ⟨first, old⟩ := entry
      rw [DirectoryEntries.set]
      split
      next hfirst => by_cases hname : name = other <;> simp [DirectoryEntries.get?, hfirst, hname]
      next hfirst =>
        rw [DirectoryEntries.get?, ih, DirectoryEntries.get?]
        split
        next hother => rw [if_neg fun hname => hfirst (hother.trans hname.symm)]
        next => rfl

/-- What is at a place below a directory in which an entry was replaced. -/
theorem get?_cons_set (name other : FileName) (new : FileTree) (entries : DirectoryEntries)
    (inner : Location) :
    get? (other :: inner) (.directory (DirectoryEntries.set name new entries)) =
      if name = other then new.get? inner else get? (other :: inner) (.directory entries) := by
  rw [get?_cons_directory, get?_set]
  split
  next => rfl
  next => rfl

theorem get?_below_file {inner : Location} (hinner : inner ≠ []) (bytes : List UInt8) :
    get? inner (.file bytes) = none := by
  cases inner with
  | nil => exact absurd rfl hinner
  | cons name inner => rfl

/-- A new file among the entries of a directory, or one in the place of an old file, changes nothing
else. -/
theorem differsOnlyAt_set {name : FileName} {entries : DirectoryEntries}
    (hfree : get? [name] (.directory entries) = none ∨ HasFile (.directory entries) [name])
    (bytes : List UInt8) :
    (FileTree.directory entries).DiffersOnlyAt
      (.directory (DirectoryEntries.set name (.file bytes) entries)) [name] := by
  have hbelow {inner : Location} (hinner : inner ≠ []) :
      get? (name :: inner) (.directory entries) = none := by
    rw [← List.singleton_append, get?_append]
    rcases hfree with hnone | ⟨old, hold⟩
    · rw [hnone]
      rfl
    · rw [hold]
      exact get?_below_file hinner old
  refine ⟨?_, hfree, Or.inr ⟨bytes, ?_⟩⟩
  · intro location hne
    cases location with
    | nil => rfl
    | cons other inner =>
        rw [get?_cons_set]
        split
        next hname =>
          subst hname
          have hinner : inner ≠ [] := fun hnil => hne (congrArg _ hnil)
          rw [hbelow hinner, get?_below_file hinner]
        next => rfl
  · rw [get?_cons_set, if_pos rfl]
    rfl

/-- If an entry of a directory differs in one file, so does the directory. -/
theorem DiffersOnlyAt.inDirectory {name : FileName} {entries : DirectoryEntries}
    (hentry : DirectoryEntries.get? name entries = some tree)
    (hdiffers : tree.DiffersOnlyAt other place) :
    (FileTree.directory entries).DiffersOnlyAt
      (.directory (DirectoryEntries.set name other entries)) (name :: place) := by
  have hold (location : Location) :
      get? (name :: location) (.directory entries) = tree.get? location := by
    rw [get?_cons_directory, hentry]
    rfl
  have hnew (location : Location) :
      get? (name :: location) (.directory (DirectoryEntries.set name other entries)) =
        other.get? location := by
    rw [get?_cons_set, if_pos rfl]
  refine ⟨?_, by simpa [HasFile, hold] using hdiffers.one,
    by simpa [HasFile, hnew] using hdiffers.another⟩
  intro location hne
  cases location with
  | nil => rfl
  | cons first rest =>
      by_cases hname : name = first
      · subst hname
        rw [hold, hnew]
        exact hdiffers.elsewhere rest fun heq => hne (congrArg _ heq)
      · rw [get?_cons_set, if_neg hname]

/-- Writing a file in a directory changes the tree at its place only. -/
theorem differsOnlyAt_put {directory : Location} {name : FileName} {entries : DirectoryEntries}
    (hdirectory : tree.get? directory = some (.directory entries))
    (hfree : tree.get? (directory ++ [name]) = none ∨ tree.HasFile (directory ++ [name]))
    (bytes : List UInt8) :
    tree.DiffersOnlyAt (tree.put (directory ++ [name]) (.file bytes)) (directory ++ [name]) := by
  induction directory generalizing tree with
  | nil =>
      cases hdirectory
      exact differsOnlyAt_set hfree bytes
  | cons first directory ih =>
      obtain ⟨outer, houter⟩ : ∃ outer, tree.get? [] = some (.directory outer) :=
        get?_directory (List.cons_ne_nil _ _) hdirectory
      obtain rfl := Option.some.inj houter
      rw [get?_cons_directory] at hdirectory
      obtain ⟨inner, hinner, hdirectory⟩ := Option.bind_eq_some_iff.mp hdirectory
      have hinside : get? (first :: directory ++ [name]) (.directory outer) =
          inner.get? (directory ++ [name]) := by
        rw [List.cons_append, get?_cons_directory, hinner]
        rfl
      have hput : (FileTree.directory outer).put (first :: directory ++ [name]) (.file bytes) =
          .directory (DirectoryEntries.set first
            (inner.put (directory ++ [name]) (.file bytes)) outer) := by
        rw [List.cons_append, put]
        simp only [FileTree.entries, hinner, Option.getD_some]
      rw [HasFile, hinside] at hfree
      rw [hput]
      exact (ih hdirectory hfree).inDirectory hinner

end FileTree

/-! ## Following paths in both trees -/

namespace FileSystem

variable {tree other : FileTree} {place location : Location}

/-- Nothing leads on from a file. -/
theorem Leads.eq_of_file {links : Nat} {start target : Location} {pieces : List (List UInt8)}
    (hleads : Leads tree links start pieces target) (hfile : tree.HasFile start) :
    target = start := by
  obtain ⟨bytes, hget⟩ := hfile
  cases hleads with
  | here => rfl
  | idle hdirectory => rw [hget] at hdirectory; cases hdirectory
  | parent hdirectory => rw [hget] at hdirectory; cases hdirectory
  | entry _ _ hsub =>
      obtain ⟨_, hdirectory⟩ := FileTree.get?_directory (List.cons_ne_nil _ _) hsub
      rw [hget] at hdirectory
      cases hdirectory
  | link _ _ hlink =>
      obtain ⟨_, hdirectory⟩ := FileTree.get?_directory (List.cons_ne_nil _ _) hlink
      rw [hget] at hdirectory
      cases hdirectory

/-- Whatever leads to a directory in one tree leads there in the other. -/
theorem Leads.of_differs (hdiffers : tree.DiffersOnlyAt other place) {links : Nat}
    {start target : Location} {pieces : List (List UInt8)}
    (hleads : Leads tree links start pieces target) {entries : DirectoryEntries}
    (htarget : tree.get? target = some (.directory entries)) :
    Leads other links start pieces target := by
  induction hleads with
  | here links start => exact .here ..
  | idle hdirectory hpiece _ ih =>
      obtain ⟨_, hdirectory⟩ := hdiffers.get?_directory hdirectory
      exact .idle hdirectory hpiece (ih htarget)
  | parent hdirectory hpiece _ ih =>
      obtain ⟨_, hdirectory⟩ := hdiffers.get?_directory hdirectory
      exact .parent hdirectory hpiece (ih htarget)
  | @entry _ _ _ sub _ _ hname hlength hsub hlink hrest ih =>
      cases sub with
      | directory entries =>
          obtain ⟨_, hdirectory⟩ := hdiffers.get?_directory hsub
          exact .entry hname hlength hdirectory rfl (ih htarget)
      | link path => cases hlink
      | file bytes =>
          rw [hrest.eq_of_file ⟨bytes, hsub⟩, hsub] at htarget
          cases htarget
  | link hname hlength hlink _ ih =>
      exact .link hname hlength (hdiffers.get?_link hlink) (ih htarget)

variable {system counterpart : FileSystem}

/-- A path leads to the same directory in both trees. -/
theorem place?_of_differs (hdiffers : system.tree.DiffersOnlyAt counterpart.tree place)
    (hworking : system.working = counterpart.working) {path : Path}
    (hplace : system.place? path = .ok location) {entries : DirectoryEntries}
    (hdirectory : system.tree.get? location = some (.directory entries)) :
    counterpart.place? path = .ok location := by
  obtain ⟨hzero, hsome, hfits, hleads⟩ := place?_eq_ok.mp hplace
  refine place?_eq_ok.mpr ⟨hzero, hsome, hfits, ?_⟩
  have hstart : counterpart.start path = system.start path := by
    rw [start, start, hworking]
  rw [hstart]
  exact hleads.of_differs hdiffers hdirectory

/-- Files at other places are read alike. -/
theorem read_of_differs (hdiffers : system.tree.DiffersOnlyAt counterpart.tree place)
    (hwell : system.tree.isWellFormed = true) (hwellOther : counterpart.tree.isWellFormed = true)
    {root : Path} (hplace : system.place? root = .ok location)
    (hplaceOther : counterpart.place? root = .ok location) {names : Location}
    (hfile : system.tree.HasFile (location ++ names)) (hne : location ++ names ≠ place) :
    system.read (root.below names) = counterpart.read (root.below names) := by
  obtain ⟨bytes, hget⟩ := hfile
  by_cases hfits : (root.below names).bytes.length ≤ pathLimit
  · rw [read_below hwell hplace hget hfits,
      read_below hwellOther hplaceOther (hdiffers.get?_file hne hget) hfits]
  · obtain ⟨fault, hread⟩ := read_of_tooLong (Nat.lt_of_not_le hfits)
    rw [hread, hread]

end FileSystem

end LiteralAudit
