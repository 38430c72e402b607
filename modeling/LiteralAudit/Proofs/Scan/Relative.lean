import LiteralAudit.Proofs.Path.Spelling
import LiteralAudit.Proofs.Scan.Places

/-!
# Paths relative to ignore files

A rule of an ignore file sees the names that lead from the directory of the file to a path, and
nothing of how the directory is spelled, unless more than one idle dot stands in front of it
(`IgnoreFile.relative_below`).  So two spellings of a root make no difference to the ignore files
below it, and if the user has no rules, the same files are kept (`IgnoreWalk.keepsBelow_of_plain`).
-/

namespace LiteralAudit

namespace IgnoreFile

/-! ## Dropping a leading dot -/

/-- The first step of a path is dropped if it is a dot, and nothing else ever is. -/
theorem dropHere_cases (path : Path) :
    (∃ rest, path.bytes = 0x2e :: 0x2f :: rest ∧ dropHere path = ⟨rest⟩) ∨
      (¬[0x2e, 0x2f] <+: path.bytes ∧ dropHere path = path) := by
  rw [dropHere]
  split
  next rest hbytes => exact Or.inl ⟨rest, hbytes, rfl⟩
  next hnot =>
    refine Or.inr ⟨?_, rfl⟩
    rintro ⟨rest, hrest⟩
    exact hnot rest hrest.symm

theorem dropHere_here (rest : List UInt8) : dropHere ⟨0x2e :: 0x2f :: rest⟩ = ⟨rest⟩ := rfl

theorem dropHere_of_ne {first second : UInt8} {rest : List UInt8}
    (hne : ¬(first = 0x2e ∧ second = 0x2f)) :
    dropHere ⟨first :: second :: rest⟩ = ⟨first :: second :: rest⟩ := by
  rcases dropHere_cases ⟨first :: second :: rest⟩ with ⟨others, hbytes, -⟩ | ⟨-, hkept⟩
  · simp only [List.cons.injEq] at hbytes
    exact absurd ⟨hbytes.1, hbytes.2.1⟩ hne
  · exact hkept

theorem dropHere_name {name : FileName} (hname : IsEntryName name) (rest : List UInt8) :
    dropHere ⟨name ++ rest⟩ = ⟨name ++ rest⟩ := by
  rcases name with _ | ⟨first, _ | ⟨second, name⟩⟩
  · exact absurd rfl hname.ne_nil
  · cases rest with
    | nil => exact ((dropHere_cases _).resolve_left (by simp)).2
    | cons second rest =>
        refine dropHere_of_ne fun h => hname.ne_here ?_
        rw [h.1]
  · refine dropHere_of_ne fun h => hname.no_slash ?_
    rw [h.2]
    simp

/-- A dot in front of a directory that is spelled with a slash is dropped from the paths below. -/
theorem dropHere_append {front : List UInt8} (hfront : front = [] ∨ front.getLast? = some 0x2f)
    {name : FileName} (hname : IsEntryName name) (rest : List UInt8) :
    dropHere ⟨front ++ (name ++ rest)⟩ = ⟨(dropHere ⟨front⟩).bytes ++ (name ++ rest)⟩ := by
  rcases front with _ | ⟨first, _ | ⟨second, front⟩⟩
  · exact dropHere_name hname rest
  · obtain rfl : first = 0x2f := by simpa using hfront
    obtain ⟨byte, others, hothers⟩ : ∃ byte others, name ++ rest = byte :: others := by
      cases name with
      | nil => exact absurd rfl hname.ne_nil
      | cons byte name => exact ⟨byte, name ++ rest, rfl⟩
    rw [hothers]
    exact dropHere_of_ne fun h => absurd h.1 (by decide)
  · by_cases h : first = 0x2e ∧ second = 0x2f
    · obtain ⟨rfl, rfl⟩ := h
      rfl
    · rw [dropHere_of_ne h]
      exact dropHere_of_ne h

/-- A spelling that ends in a slash or is empty keeps doing so. -/
theorem dropHere_last {front : List UInt8} (hfront : front = [] ∨ front.getLast? = some 0x2f) :
    (dropHere ⟨front⟩).bytes = [] ∨ (dropHere ⟨front⟩).bytes.getLast? = some 0x2f := by
  rcases dropHere_cases ⟨front⟩ with ⟨rest, hbytes, hdropped⟩ | ⟨-, hkept⟩
  · rw [hdropped]
    cases rest with
    | nil => exact Or.inl rfl
    | cons byte rest =>
        simp only at hbytes
        rw [hbytes] at hfront
        exact Or.inr (by simpa using hfront)
  · rwa [hkept]

end IgnoreFile

open IgnoreFile (dropHere dropHere_here dropHere_cases dropHere_append dropHere_last)

namespace Path

/-! ## Plainly spelled directories -/

theorem front_last (directory : Path) :
    directory.front = [] ∨ directory.front.getLast? = some 0x2f := by
  rcases directory.front_cases with ⟨-, hfront⟩ | ⟨bytes, -, hfront⟩ | ⟨-, hfront⟩
  · exact Or.inl hfront
  · exact Or.inr (by rw [hfront, List.getLast?_concat])
  · exact Or.inr (by rw [hfront, List.getLast?_concat])

/-- No more than one dot stands for nothing in front of what is below a directory. -/
def IsPlainlySpelled (directory : Path) : Prop :=
  dropHere (dropHere ⟨directory.front⟩) = dropHere ⟨directory.front⟩

instance (directory : Path) : Decidable directory.IsPlainlySpelled :=
  inferInstanceAs (Decidable (_ = _))

theorem IsPlainlySpelled.child {directory : Path} (hplain : directory.IsPlainlySpelled)
    {name : FileName} (hname : IsEntryName name) : (directory.child name).IsPlainlySpelled := by
  have hfront : (directory.child name).front = directory.front ++ (name ++ [0x2f]) := by
    rw [front_child _ hname, child_eq, List.append_assoc]
  rw [IsPlainlySpelled, hfront, dropHere_append directory.front_last hname,
    dropHere_append (dropHere_last directory.front_last) hname]
  exact congrArg (fun path : Path => Path.mk (path.bytes ++ (name ++ [0x2f]))) hplain

/-- What is below a plainly spelled directory is plainly spelled. -/
theorem IsPlainlySpelled.below {directory : Path} (hplain : directory.IsPlainlySpelled)
    {names : Location} (hnames : ∀ name ∈ names, IsEntryName name) :
    (directory.below names).IsPlainlySpelled := by
  induction names generalizing directory with
  | nil => exact hplain
  | cons name names ih =>
      exact ih (hplain.child (hnames name (.head _))) fun other hmem => hnames other (.tail _ hmem)

theorem exists_names_bytes {names : Location} (hnames : ∀ name ∈ names, IsEntryName name)
    (hsome : names ≠ []) :
    ∃ name rest, IsEntryName name ∧ (Path.below ⟨[]⟩ names).bytes = name ++ rest := by
  obtain ⟨name, names, rfl⟩ := List.exists_cons_of_ne_nil hsome
  have hname := hnames name (.head _)
  cases names with
  | nil => exact ⟨name, [], hname, (List.append_nil name).symm⟩
  | cons inner names =>
      refine ⟨name, 0x2f :: (Path.below ⟨[]⟩ (inner :: names)).bytes, hname, ?_⟩
      rw [below_cons, below_eq _ (fun other hmem => hnames other (.tail _ hmem))
        (List.cons_ne_nil _ _), front_child _ hname]
      simp [child_eq, front]

/-- Only a dot at the beginning is a step for the directory it is in. -/
theorem bytes_of_steps_here {path : Path} (hsteps : path.steps = [.here]) :
    path.bytes = [0x2e] ∨ ∃ rest, path.bytes = 0x2e :: 0x2f :: rest := by
  have hhead : (splitSlashes path.bytes).head? = some [0x2e] := by
    by_contra hhead
    simp only [steps, hhead, if_false] at hsteps
    split at hsteps
    next => cases hsteps
    next =>
      have hmem : PathStep.here ∈ laterSteps path.bytes := by
        rw [laterSteps, hsteps]
        exact .head _
      cases isMadeByPiece_of_mem hmem
  obtain ⟨pieces, hpieces⟩ := List.head?_eq_some_iff.mp hhead
  exact splitSlashes_head hpieces

end Path

/-! ## Relative paths -/

namespace IgnoreFile

theorem dropBytes?_append (start bytes : List UInt8) :
    dropBytes? start (start ++ bytes) = some bytes := by
  induction start with
  | nil => rfl
  | cons byte start ih => simpa [dropBytes?] using ih

/-- How the directory of an ignore file is spelled in front of the paths below it. -/
theorem anchor_cases (directory : Path) :
    ((dropHere directory).bytes = [0x2e] ∧ (dropHere ⟨directory.front⟩).bytes = []) ∨
      (dropHere ⟨directory.front⟩).bytes = (dropHere directory).bytes ∨
      (dropHere ⟨directory.front⟩).bytes = (dropHere directory).bytes ++ [0x2f] := by
  obtain ⟨bytes⟩ := directory
  rcases Path.front_cases ⟨bytes⟩ with ⟨hbytes, hfront⟩ | ⟨stem, hbytes, hfront⟩ | ⟨hsome, hfront⟩
  · refine Or.inr (Or.inl ?_)
    simp only at hbytes
    rw [hfront, hbytes]
  · refine Or.inr (Or.inl ?_)
    simp only at hbytes
    rw [hfront, hbytes]
  · rw [hfront]
    simp only at hsome ⊢
    rcases bytes with _ | ⟨first, _ | ⟨second, rest⟩⟩
    · exact absurd rfl hsome
    · by_cases hfirst : first = 0x2e
      · subst hfirst
        exact Or.inl ⟨rfl, rfl⟩
      · refine Or.inr (Or.inr ?_)
        have hkept : dropHere ⟨[first]⟩ = ⟨[first]⟩ := ((dropHere_cases _).resolve_left (by simp)).2
        rw [hkept]
        exact congrArg Path.bytes (dropHere_of_ne fun h => hfirst h.1)
    · refine Or.inr (Or.inr ?_)
      by_cases h : first = 0x2e ∧ second = 0x2f
      · obtain ⟨rfl, rfl⟩ := h
        rfl
      · rw [dropHere_of_ne h]
        exact congrArg Path.bytes (dropHere_of_ne h)

/-- A spelling that begins with a dot and a slash would lose them again. -/
theorem not_same_here {directory : Path} (hplain : directory.IsPlainlySpelled)
    (hsome : (dropHere ⟨directory.front⟩).bytes ≠ []) :
    (dropHere directory).same ⟨[0x2e]⟩ = false := by
  have hbegin : ∀ rest, (dropHere ⟨directory.front⟩).bytes ≠ 0x2e :: 0x2f :: rest := by
    intro rest hbytes
    have hpath : dropHere ⟨directory.front⟩ = ⟨0x2e :: 0x2f :: rest⟩ := congrArg Path.mk hbytes
    rw [Path.IsPlainlySpelled, hpath, dropHere_here] at hplain
    have hlength := congrArg (fun path : Path => path.bytes.length) hplain
    simp only [List.length_cons] at hlength
    omega
  by_contra hsame
  have hsteps : (dropHere directory).steps = [.here] := by
    simpa [Path.same, Path.steps, splitSlashes, Path.isAbsolute, Path.stepOfPiece?] using hsame
  rcases anchor_cases directory with ⟨-, hnone⟩ | hstem | hstem
  · exact hsome hnone
  · rcases Path.bytes_of_steps_here hsteps with hbytes | ⟨rest, hbytes⟩
    · rcases dropHere_last directory.front_last with hnone | hlast
      · exact hsome hnone
      · rw [hstem, hbytes] at hlast
        cases hlast
    · exact hbegin rest (hstem.trans hbytes)
  · rcases Path.bytes_of_steps_here hsteps with hbytes | ⟨rest, hbytes⟩
    · exact hbegin [] (by rw [hstem, hbytes]; rfl)
    · exact hbegin (rest ++ [0x2f]) (by rw [hstem, hbytes]; rfl)

theorem dropSlash_name {name : FileName} (hname : IsEntryName name) (rest : List UInt8) :
    dropSlash (name ++ rest) = name ++ rest := by
  cases name with
  | nil => exact absurd rfl hname.ne_nil
  | cons byte name =>
      have hbyte : byte ≠ 0x2f := by
        rintro rfl
        exact hname.no_slash (.head _)
      exact if_neg hbyte

/-- What is dropped in front of a path below a directory is dropped in front of the directory, and
only once. -/
theorem dropHere_below {directory : Path} {names : Location}
    (hnames : ∀ name ∈ names, IsEntryName name) (hsome : names ≠ []) :
    dropHere (directory.below names) =
      ⟨(dropHere ⟨directory.front⟩).bytes ++ (Path.below ⟨[]⟩ names).bytes⟩ := by
  obtain ⟨name, rest, hname, hbytes⟩ := Path.exists_names_bytes hnames hsome
  rw [directory.below_eq hnames hsome, hbytes, dropHere_append directory.front_last hname]

theorem dropHere_dropHere_below {directory : Path} (hplain : directory.IsPlainlySpelled)
    {names : Location} (hnames : ∀ name ∈ names, IsEntryName name) (hsome : names ≠ []) :
    dropHere (dropHere (directory.below names)) = dropHere (directory.below names) := by
  obtain ⟨name, rest, hname, hbytes⟩ := Path.exists_names_bytes hnames hsome
  rw [dropHere_below hnames hsome, hbytes,
    dropHere_append (dropHere_last directory.front_last) hname]
  exact congrArg (fun path : Path => Path.mk (path.bytes ++ (name ++ rest))) hplain

/-- An ignore file of a plainly spelled directory sees the names below it. -/
theorem relative_below {directory : Path} (hplain : directory.IsPlainlySpelled) {names : Location}
    (hnames : ∀ name ∈ names, IsEntryName name) (hsome : names ≠ []) :
    relative (dropHere directory) (dropHere (directory.below names)) = Path.below ⟨[]⟩ names := by
  have hslashless : dropSlash (Path.below ⟨[]⟩ names).bytes = (Path.below ⟨[]⟩ names).bytes := by
    obtain ⟨name, rest, hname, hbytes⟩ := Path.exists_names_bytes hnames hsome
    rw [hbytes, dropSlash_name hname]
  rw [relative, dropHere_dropHere_below hplain hnames hsome, dropHere_below hnames hsome]
  generalize Path.below ⟨[]⟩ names = result at hslashless ⊢
  by_cases hnone : (dropHere ⟨directory.front⟩).bytes = []
  · rw [hnone, List.nil_append]
    split
    next => rfl
    next hother =>
      rcases anchor_cases directory with ⟨hhere, -⟩ | hanchor | hanchor
      · have hsame : (dropHere directory).same ⟨[0x2e]⟩ = true := by
          rw [show dropHere directory = ⟨[0x2e]⟩ from congrArg Path.mk hhere]
          rfl
        simp [hsame] at hother
      · rw [← hanchor, hnone]
        exact congrArg Path.mk hslashless
      · simp [hnone] at hanchor
  · have hslash : 0x2f ∈ (dropHere ⟨directory.front⟩).bytes ++ result.bytes :=
      List.mem_append_left _
        (List.mem_of_getLast? ((dropHere_last directory.front_last).resolve_left hnone))
    rw [if_neg (by simp [not_same_here hplain hnone, hslash])]
    rcases anchor_cases directory with ⟨-, hempty⟩ | hanchor | hanchor
    · exact absurd hempty hnone
    · rw [hanchor, dropBytes?_append]
      exact congrArg Path.mk hslashless
    · rw [hanchor, List.append_assoc, dropBytes?_append]
      rfl

end IgnoreFile

/-! ## Rules below two spellings -/

namespace IgnoreLevel

/-- The rules of an ignore file in a directory. -/
def rulesAt (tree : FileTree) (location : Location) (name : Text) : List IgnoreRule :=
  match FileSystem.read ⟨tree, location⟩ (Path.ofText name) with
  | .ok bytes => IgnoreFile.rulesOf bytes
  | .error _ => []

/-- What an ignore file of a directory says about what names lead to depends on the names only. -/
theorem rule?_file_below {directory : Path} (hplain : directory.IsPlainlySpelled) {names : Location}
    (hnames : ∀ name ∈ names, IsEntryName name) (hsome : names ≠ []) (tree : FileTree)
    (location : Location) (name : Text) (isDirectory : Bool) :
    (file tree location directory name).rule? (dropHere (directory.below names)) isDirectory =
      (rulesAt tree location name).reverse.find?
        (IgnoreFile.isAbout (Path.below ⟨[]⟩ names) isDirectory) := by
  rw [file, rulesAt]
  cases FileSystem.read ⟨tree, location⟩ (Path.ofText name) with
  | ok bytes =>
      show (IgnoreFile.rulesOf bytes).reverse.find? (IgnoreFile.isAbout
        (IgnoreFile.relative (dropHere directory) (dropHere (directory.below names)))
        isDirectory) = _
      rw [IgnoreFile.relative_below hplain hnames hsome]
  | error fault => rfl

end IgnoreLevel

namespace IgnoreWalk

variable {system : FileSystem} {user : UserPlaces} {location : Location} {root other : Path}

/-- What the ignore files of a kind around a place say depends on the names below the root only. -/
theorem rules_around (user : UserPlaces) (location : Location)
    (hroot : root.IsPlainlySpelled) (hother : other.IsPlainlySpelled) {place : Location}
    (hnames : ∀ name ∈ place, IsEntryName name) (isDirectory : Bool) {name : Text}
    {pick : IgnoreLevel → IgnoreFile}
    (hpick : ∀ location path, pick (IgnoreLevel.read system.tree location path) =
      IgnoreLevel.file system.tree location path name) :
    ((ofSystem system user).levelsAround location root place).map (fun level =>
        (pick level).rule? (dropHere (root.below place)) isDirectory) =
      ((ofSystem system user).levelsAround location other place).map fun level =>
        (pick level).rule? (dropHere (other.below place)) isDirectory := by
  rw [levelsAround, levelsAround, List.map_map, List.map_map]
  refine List.map_congr_left fun count hmem => ?_
  have houter : ∀ name ∈ place.take count, IsEntryName name :=
    fun name hname => hnames name (List.mem_of_mem_take hname)
  have hinner : ∀ name ∈ place.drop count, IsEntryName name :=
    fun name hname => hnames name (List.mem_of_mem_drop hname)
  have hsome : place.drop count ≠ [] := by simpa using hmem
  have hrule {directory : Path} (hplain : directory.IsPlainlySpelled) :=
    IgnoreLevel.rule?_file_below (hplain.below houter) hinner hsome system.tree
      (location ++ place.take count) name isDirectory
  have hpath (directory : Path) : (directory.below (place.take count)).below (place.drop count) =
      directory.below place := by
    rw [← Path.below_append, List.take_append_drop]
  show (pick (IgnoreLevel.read _ _ _)).rule? _ _ = (pick (IgnoreLevel.read _ _ _)).rule? _ _
  rw [hpick, hpick, ← hpath root, ← hpath other, hrule hroot, hrule hother]

/-- Two plain spellings of a root are told the same by all rules below it. -/
theorem ignores_of_plain (hroot : root.IsPlainlySpelled) (hother : other.IsPlainlySpelled)
    (huser : (GlobalIgnore.file system user).rules = []) {place : Location}
    (hnames : ∀ name ∈ place, IsEntryName name) (isDirectory : Bool) :
    (ofSystem system user).ignores ((ofSystem system user).levelsAround location root place)
        (root.below place) isDirectory =
      (ofSystem system user).ignores ((ofSystem system user).levelsAround location other place)
        (other.below place) isDirectory := by
  have hkind (name : Text) (pick : IgnoreLevel → IgnoreFile)
      (hpick : ∀ location path, pick (IgnoreLevel.read system.tree location path) =
        IgnoreLevel.file system.tree location path name) :
      ((ofSystem system user).levelsAround location root place).findSome? (fun level =>
          (pick level).rule? (dropHere (root.below place)) isDirectory) =
        ((ofSystem system user).levelsAround location other place).findSome? fun level =>
          (pick level).rule? (dropHere (other.below place)) isDirectory := by
    have hmaps := congrArg (List.findSome? id)
      (rules_around user location hroot hother hnames isDirectory hpick)
    simpa [List.findSome?_map] using hmaps
  have hnone (path : Path) : (ofSystem system user).user.rule? path isDirectory = none := by
    show (GlobalIgnore.file system user).rule? path isDirectory = none
    rw [IgnoreFile.rule?, huser]
    rfl
  simp only [ignores, IgnoreLevel.rule?, hnone, hkind ".ignore" IgnoreLevel.own fun _ _ => rfl,
    hkind ".gitignore" IgnoreLevel.shared fun _ _ => rfl,
    hkind ".git/info/exclude" IgnoreLevel.unshared fun _ _ => rfl]

/-- Ignore files below a root keep the same files however the root is plainly spelled. -/
theorem keepsBelow_of_plain (hroot : root.IsPlainlySpelled) (hother : other.IsPlainlySpelled)
    (huser : (GlobalIgnore.file system user).rules = []) {names : Location}
    (hnames : ∀ name ∈ names, IsEntryName name) :
    (ofSystem system user).keepsBelow [IgnoreLevel.read system.tree location root] location root
        names =
      (ofSystem system user).keepsBelow [IgnoreLevel.read system.tree location other] location other
        names := by
  refine Bool.eq_iff_iff.mpr ?_
  refine ((ofSystem system user).keepsBelow_iff location root names).trans
    (Iff.trans ?_ ((ofSystem system user).keepsBelow_iff location other names).symm)
  refine forall₃_congr fun inner hstarts _ => ?_
  rw [ignores_of_plain hroot hother huser fun name hmem => hnames name (hstarts.subset hmem)]

end IgnoreWalk

end LiteralAudit
