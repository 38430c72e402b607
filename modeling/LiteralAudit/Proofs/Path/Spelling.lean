import LiteralAudit.Proofs.Path.Below

/-!
# What the steps of a path tell of its spelling

Paths with the same steps may be spelled in different ways, but they agree in whether they start at
the root (`Path.isAbsolute_iff`), in the steps of their pieces (`Path.laterSteps_eq`), in the bytes
of their names (`Path.mem_bytes_iff`) and in whether they are empty (`Path.steps_eq_nil`).  The
spelling of a path below a directory ends in the names that lead there (`Path.splitSlashes_below`).
-/

namespace LiteralAudit

theorem mem_splitSlashes {byte : UInt8} (hbyte : byte ≠ 0x2f) {bytes : List UInt8} :
    byte ∈ bytes ↔ ∃ piece ∈ splitSlashes bytes, byte ∈ piece := by
  induction bytes with
  | nil => simp [splitSlashes]
  | cons first bytes ih =>
      rw [List.mem_cons, ih, splitSlashes]
      split
      next hfirst => simp [hfirst, hbyte]
      next hfirst =>
        cases hpieces : splitSlashes bytes with
        | nil => exact absurd hpieces (splitSlashes_ne_nil bytes)
        | cons piece pieces => simp [or_assoc]

/-- The first piece stands at the beginning, with a slash behind it if there is more. -/
theorem splitSlashes_head {bytes piece : List UInt8} {pieces : List (List UInt8)}
    (hpieces : splitSlashes bytes = piece :: pieces) :
    bytes = piece ∨ ∃ rest, bytes = piece ++ 0x2f :: rest := by
  induction bytes generalizing piece pieces with
  | nil => exact Or.inl (List.cons.inj hpieces).1
  | cons byte bytes ih =>
      rw [splitSlashes] at hpieces
      split at hpieces
      next hbyte =>
        obtain ⟨rfl, -⟩ := List.cons.inj hpieces
        exact Or.inr ⟨bytes, by rw [hbyte]; rfl⟩
      next =>
        split at hpieces
        next hnil => exact absurd hnil (splitSlashes_ne_nil bytes)
        next first others hbytes =>
          obtain ⟨rfl, -⟩ := List.cons.inj hpieces
          refine (ih hbytes).imp (congrArg _) ?_
          rintro ⟨rest, rfl⟩
          exact ⟨rest, rfl⟩

namespace Path

/-! ## Pieces and steps -/

theorem stepOfPiece?_eq_none {piece : List UInt8} :
    stepOfPiece? piece = none ↔ piece = [] ∨ piece = [0x2e] := by
  rw [stepOfPiece?]
  split
  next h => simpa using h
  next h => split <;> simpa using h

theorem stepOfPiece?_eq_parent {piece : List UInt8} :
    stepOfPiece? piece = some .parent ↔ piece = [0x2e, 0x2e] := by
  rw [stepOfPiece?]
  split
  next h =>
    have hpiece : piece = [] ∨ piece = [0x2e] := by simpa using h
    rcases hpiece with rfl | rfl <;> simp
  next => split <;> simp [*]

theorem stepOfPiece?_eq_name {piece : List UInt8} {name : FileName} :
    stepOfPiece? piece = some (.name name) ↔
      piece = name ∧ ¬(piece = [] ∨ piece = [0x2e]) ∧ piece ≠ [0x2e, 0x2e] := by
  rw [stepOfPiece?]
  split
  next h => simp_all
  next h => split <;> simp_all

/-- The steps of a path that are made by its pieces. -/
def isMadeByPiece : PathStep → Bool
  | .parent => true
  | .name _ => true
  | _ => false

theorem isMadeByPiece_of_mem {bytes : List UInt8} {step : PathStep}
    (hmem : step ∈ laterSteps bytes) : isMadeByPiece step = true := by
  obtain ⟨piece, -, hstep⟩ := List.mem_filterMap.mp hmem
  rw [stepOfPiece?] at hstep
  split at hstep
  next => cases hstep
  next => split at hstep <;> cases hstep <;> rfl

/-- The steps are those of the pieces, with one in front of them for a root or a leading dot. -/
theorem steps_cases (path : Path) :
    (path.isAbsolute = true ∧ path.steps = .root :: laterSteps path.bytes) ∨
      (path.isAbsolute = false ∧ path.steps = .here :: laterSteps path.bytes) ∨
      (path.isAbsolute = false ∧ path.steps = laterSteps path.bytes) := by
  cases habsolute : path.isAbsolute with
  | true => simp [steps, habsolute, laterSteps]
  | false =>
      by_cases hhere : (splitSlashes path.bytes).head? = some [0x2e] <;>
        simp [steps, habsolute, laterSteps, hhere]

/-- The steps behind the first piece are those that pieces make.  The others are told by the first
byte. -/
theorem laterSteps_eq (path : Path) : laterSteps path.bytes = path.steps.filter isMadeByPiece := by
  have hlater : (laterSteps path.bytes).filter isMadeByPiece = laterSteps path.bytes :=
    List.filter_eq_self.mpr fun _ => isMadeByPiece_of_mem
  rcases path.steps_cases with ⟨-, hsteps⟩ | ⟨-, hsteps⟩ | ⟨-, hsteps⟩ <;>
    simp [hsteps, isMadeByPiece, hlater]

/-- A path is absolute exactly if its first step is the root. -/
theorem isAbsolute_iff (path : Path) : path.isAbsolute = true ↔ path.steps.head? = some .root := by
  rcases path.steps_cases with ⟨habsolute, hsteps⟩ | ⟨habsolute, hsteps⟩ | ⟨habsolute, hsteps⟩
  · simp [habsolute, hsteps]
  · simp [habsolute, hsteps]
  · rw [habsolute, hsteps]
    simp only [Bool.false_eq_true, false_iff]
    intro hhead
    cases isMadeByPiece_of_mem (List.mem_of_mem_head? hhead)

/-- Only the empty path has no step. -/
theorem steps_eq_nil {path : Path} : path.steps = [] ↔ path.bytes = [] := by
  obtain ⟨bytes⟩ := path
  constructor
  · intro hsteps
    cases bytes with
    | nil => rfl
    | cons byte bytes =>
        exfalso
        by_cases hbyte : byte = 0x2f
        · rw [hbyte, steps_slash] at hsteps
          cases hsteps
        · obtain ⟨piece, pieces, hpieces⟩ :
              ∃ piece pieces, splitSlashes (byte :: bytes) = (byte :: piece) :: pieces := by
            rw [splitSlashes, if_neg hbyte]
            split
            next => exact ⟨[], [], rfl⟩
            next piece pieces _ => exact ⟨piece, pieces, rfl⟩
          have hrelative : isAbsolute ⟨byte :: bytes⟩ = false := by simpa [isAbsolute] using hbyte
          by_cases hhere : byte :: piece = [0x2e]
          · simp [steps, hrelative, hpieces, hhere] at hsteps
          · have hstep : stepOfPiece? (byte :: piece) ≠ none := by
              simpa [stepOfPiece?_eq_none] using hhere
            simp only [steps, hrelative, hpieces, List.head?_cons, Option.some.injEq, hhere,
              if_false, Bool.false_eq_true, List.filterMap_eq_nil_iff] at hsteps
            exact hstep (hsteps _ (.head _))
  · intro hbytes
    simp only at hbytes
    rw [hbytes]
    rfl

/-- Apart from slashes and dots, the bytes of a path are those of its names. -/
theorem mem_bytes_iff {byte : UInt8} (hslash : byte ≠ 0x2f) (hdot : byte ≠ 0x2e) (path : Path) :
    byte ∈ path.bytes ↔ ∃ name, .name name ∈ path.steps ∧ byte ∈ name := by
  have hname (name : FileName) : .name name ∈ path.steps ↔ .name name ∈ laterSteps path.bytes := by
    rw [laterSteps_eq, List.mem_filter]
    simp [isMadeByPiece]
  rw [mem_splitSlashes hslash]
  simp only [hname]
  simp only [laterSteps, List.mem_filterMap, stepOfPiece?_eq_name]
  constructor
  · rintro ⟨piece, hmem, hbyte⟩
    refine ⟨piece, ⟨piece, hmem, rfl, ?_, ?_⟩, hbyte⟩
    · rintro (rfl | rfl)
      · cases hbyte
      · exact hdot (List.mem_singleton.mp hbyte)
    · rintro rfl
      simp [hdot] at hbyte
  · rintro ⟨name, ⟨piece, hmem, rfl, -⟩, hbyte⟩
    exact ⟨piece, hmem, hbyte⟩

/-! ## The spelling below a directory -/

/-- Behind the spelling of a directory come the names, with slashes between them. -/
theorem below_eq (directory : Path) {names : Location} (hnames : ∀ name ∈ names, IsEntryName name)
    (hsome : names ≠ []) :
    directory.below names = ⟨directory.front ++ (below ⟨[]⟩ names).bytes⟩ := by
  induction names generalizing directory with
  | nil => exact absurd rfl hsome
  | cons name names ih =>
      have hname := hnames name (.head _)
      have hrest : ∀ other ∈ names, IsEntryName other :=
        fun other hmem => hnames other (.tail _ hmem)
      cases names with
      | nil => simp [child_eq, front]
      | cons inner names =>
          rw [below_cons directory, below_cons ⟨[]⟩, ih (directory.child name) hrest,
            ih (child ⟨[]⟩ name) hrest, front_child _ hname, front_child _ hname, child_eq,
            child_eq]
          · simp [front]
          · exact List.cons_ne_nil _ _
          · exact List.cons_ne_nil _ _

/-- Names that are joined by slashes are split at them again. -/
theorem splitSlashes_names {names : Location} (hnames : ∀ name ∈ names, IsEntryName name)
    (hsome : names ≠ []) : splitSlashes (below ⟨[]⟩ names).bytes = names := by
  induction names with
  | nil => exact absurd rfl hsome
  | cons name names ih =>
      have hname := hnames name (.head _)
      have hrest : ∀ other ∈ names, IsEntryName other :=
        fun other hmem => hnames other (.tail _ hmem)
      rw [below_cons]
      cases names with
      | nil => exact splitSlashes_of_not_mem hname.no_slash
      | cons inner names =>
          rw [below_eq _ hrest (List.cons_ne_nil _ _), front_child _ hname, List.append_assoc,
            List.singleton_append, splitSlashes_append, ih hrest (List.cons_ne_nil _ _)]
          exact congrArg (· ++ _) (splitSlashes_of_not_mem hname.no_slash)

/-- The last pieces of a path below a directory are the names that lead there, and the pieces in
front of them make the steps of the directory. -/
theorem splitSlashes_below {directory : Path} (hdirectory : directory.bytes ≠ []) :
    ∃ pieces, pieces.filterMap stepOfPiece? = laterSteps directory.bytes ∧
      ∀ names : Location, (∀ name ∈ names, IsEntryName name) → names ≠ [] →
        splitSlashes (directory.below names).bytes = pieces ++ names := by
  obtain ⟨stem, hstem, hfront⟩ : ∃ stem, laterSteps stem = laterSteps directory.bytes ∧
      directory.front = stem ++ [0x2f] := by
    rcases directory.front_cases with ⟨hbytes, -⟩ | ⟨stem, hbytes, hfront⟩ | ⟨-, hfront⟩
    · exact absurd hbytes hdirectory
    · refine ⟨stem, ?_, hfront⟩
      rw [hbytes, laterSteps_append]
      simp [laterSteps, splitSlashes, stepOfPiece?]
    · exact ⟨directory.bytes, rfl, hfront⟩
  refine ⟨splitSlashes stem, hstem, fun names hnames hsome => ?_⟩
  rw [directory.below_eq hnames hsome, hfront, List.append_assoc, List.singleton_append,
    splitSlashes_append, splitSlashes_names hnames hsome]

end Path

end LiteralAudit
