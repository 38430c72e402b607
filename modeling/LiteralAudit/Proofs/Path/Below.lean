import LiteralAudit.FileSystem
import Mathlib.Data.List.Induction
import Mathlib.Data.List.TakeWhile

/-!
# Paths below a directory

A name in a directory adds one step to the steps of the directory, however the directory is spelled
(`Path.steps_child`), and so names that lead on from it add one step each (`Path.steps_below`).
Going back up, the parents of such a path are the paths on the way down, as they were spelled, until
the directory is reached, which may come back in another spelling (`Path.parent?_child`,
`Path.parent?_child_child`).
-/

namespace LiteralAudit

/-! ## Names -/

/-- What a file system admits as the name of an entry. -/
structure IsEntryName (name : FileName) : Prop where
  ne_nil : name ≠ []
  ne_here : name ≠ [0x2e]
  ne_parent : name ≠ [0x2e, 0x2e]
  no_slash : 0x2f ∉ name
  no_zero : 0 ∉ name
  length_le : name.length ≤ FileSystem.nameLimit

instance (name : FileName) : Decidable (IsEntryName name) :=
  decidable_of_iff
    (name ≠ [] ∧ name ≠ [0x2e] ∧ name ≠ [0x2e, 0x2e] ∧ 0x2f ∉ name ∧ 0 ∉ name ∧
      name.length ≤ FileSystem.nameLimit)
    ⟨fun ⟨a, b, c, d, e, f⟩ => ⟨a, b, c, d, e, f⟩, fun ⟨a, b, c, d, e, f⟩ => ⟨a, b, c, d, e, f⟩⟩

/-! ## Pieces -/

theorem splitSlashes_ne_nil (bytes : List UInt8) : splitSlashes bytes ≠ [] := by
  cases bytes with
  | nil => simp [splitSlashes]
  | cons byte bytes =>
      simp only [splitSlashes]
      split
      next => simp
      next => split <;> simp

theorem splitSlashes_append (front back : List UInt8) :
    splitSlashes (front ++ 0x2f :: back) = splitSlashes front ++ splitSlashes back := by
  induction front with
  | nil => simp [splitSlashes]
  | cons byte front ih =>
      rw [List.cons_append, splitSlashes, splitSlashes, ih]
      split
      next => simp
      next =>
        cases hfront : splitSlashes front with
        | nil => exact absurd hfront (splitSlashes_ne_nil front)
        | cons piece pieces => rfl

theorem splitSlashes_of_not_mem {bytes : List UInt8} (hslash : 0x2f ∉ bytes) :
    splitSlashes bytes = [bytes] := by
  induction bytes with
  | nil => rfl
  | cons byte bytes ih =>
      simp only [List.mem_cons, not_or] at hslash
      rw [splitSlashes, ih hslash.2, if_neg fun h => hslash.1 h.symm]

namespace Path

theorem stepOfPiece?_name {name : FileName} (hname : IsEntryName name) :
    stepOfPiece? name = some (.name name) := by
  simp [stepOfPiece?, hname.ne_nil, hname.ne_here, hname.ne_parent]

/-- The steps of the pieces behind the first slash. -/
def laterSteps (bytes : List UInt8) : List PathStep :=
  (splitSlashes bytes).filterMap stepOfPiece?

theorem laterSteps_append (front back : List UInt8) :
    laterSteps (front ++ 0x2f :: back) = laterSteps front ++ laterSteps back := by
  rw [laterSteps, splitSlashes_append, List.filterMap_append]
  rfl

theorem laterSteps_name {name : FileName} (hname : IsEntryName name) :
    laterSteps name = [.name name] := by
  rw [laterSteps, splitSlashes_of_not_mem hname.no_slash]
  simp [stepOfPiece?_name hname]

theorem steps_slash (bytes : List UInt8) : steps ⟨0x2f :: bytes⟩ = .root :: laterSteps bytes := by
  simp [steps, isAbsolute, splitSlashes, stepOfPiece?, laterSteps]

theorem steps_name {name : FileName} (hname : IsEntryName name) :
    steps ⟨name⟩ = [.name name] := by
  have hrelative : isAbsolute ⟨name⟩ = false := by
    cases name with
    | nil => rfl
    | cons byte name =>
        have hbyte : byte ≠ 0x2f := by
          rintro rfl
          exact hname.no_slash (.head _)
        simpa [isAbsolute] using hbyte
  simp [steps, hrelative, splitSlashes_of_not_mem hname.no_slash, stepOfPiece?_name hname,
    hname.ne_here]

/-- What follows a slash behind a path adds its steps to those of the path. -/
theorem steps_append {front : List UInt8} (hfront : front ≠ []) (back : List UInt8) :
    steps ⟨front ++ 0x2f :: back⟩ = steps ⟨front⟩ ++ laterSteps back := by
  have habsolute : isAbsolute ⟨front ++ 0x2f :: back⟩ = isAbsolute ⟨front⟩ := by
    cases front with
    | nil => exact absurd rfl hfront
    | cons => rfl
  have hhead : (splitSlashes (front ++ 0x2f :: back)).head? = (splitSlashes front).head? := by
    rw [splitSlashes_append, List.head?_append]
    cases hpieces : splitSlashes front with
    | nil => exact absurd hpieces (splitSlashes_ne_nil front)
    | cons piece pieces => rfl
  simp only [steps, habsolute, hhead]
  rw [splitSlashes_append, List.filterMap_append]
  split
  next => rfl
  next => split <;> rfl

/-! ## Entries of a directory -/

/-- The spelling of a directory in front of the name of an entry. -/
def front (directory : Path) : List UInt8 :=
  match directory.bytes.getLast? with
  | none => []
  | some byte => if byte = 0x2f then directory.bytes else directory.bytes ++ [0x2f]

theorem child_eq (directory : Path) (name : FileName) :
    directory.child name = ⟨directory.front ++ name⟩ := by
  cases hlast : directory.bytes.getLast? with
  | none =>
      rw [List.getLast?_eq_none_iff] at hlast
      simp [child, front, hlast]
  | some byte => by_cases hbyte : byte = 0x2f <;> simp [child, front, hlast, hbyte]

/-- The three forms of the spelling in front of an entry. -/
theorem front_cases (directory : Path) :
    (directory.bytes = [] ∧ directory.front = []) ∨
      (∃ bytes, directory.bytes = bytes ++ [0x2f] ∧ directory.front = bytes ++ [0x2f]) ∨
      (directory.bytes ≠ [] ∧ directory.front = directory.bytes ++ [0x2f]) := by
  obtain ⟨bytes⟩ := directory
  cases bytes using List.reverseRecOn with
  | nil => exact Or.inl ⟨rfl, rfl⟩
  | append_singleton bytes byte =>
      by_cases hbyte : byte = 0x2f
      · subst hbyte
        exact Or.inr (Or.inl ⟨bytes, rfl, by simp [front]⟩)
      · exact Or.inr (Or.inr ⟨by simp, by simp [front, hbyte]⟩)

/-- A slash at the end of a spelling makes no step. -/
theorem steps_slash_end {bytes : List UInt8} (hbytes : bytes ≠ []) :
    steps ⟨bytes ++ [0x2f]⟩ = steps ⟨bytes⟩ := by
  rw [steps_append hbytes]
  simp [laterSteps, splitSlashes, stepOfPiece?]

/-- A path with a slash put behind it has the same steps. -/
theorem steps_front (directory : Path) : steps ⟨directory.front⟩ = directory.steps := by
  rcases directory.front_cases with ⟨hbytes, hfront⟩ | ⟨bytes, hbytes, hfront⟩ | ⟨hbytes, hfront⟩
  · rw [hfront, ← hbytes]
  · rw [hfront, ← hbytes]
  · rw [hfront, steps_slash_end hbytes]

/-- A name in a directory adds one step. -/
theorem steps_child (directory : Path) {name : FileName} (hname : IsEntryName name) :
    (directory.child name).steps = directory.steps ++ [.name name] := by
  have hslashed (bytes : List UInt8) :
      steps ⟨bytes ++ [0x2f] ++ name⟩ = steps ⟨bytes ++ [0x2f]⟩ ++ [.name name] := by
    rw [List.append_assoc, List.singleton_append]
    cases bytes with
    | nil =>
        rw [List.nil_append, List.nil_append, steps_slash, steps_slash, laterSteps_name hname]
        rfl
    | cons byte bytes =>
        rw [steps_append (List.cons_ne_nil _ _), steps_slash_end (List.cons_ne_nil _ _),
          laterSteps_name hname]
  rw [child_eq, ← directory.steps_front]
  rcases directory.front_cases with ⟨-, hfront⟩ | ⟨bytes, -, hfront⟩ | ⟨-, hfront⟩
  · rw [hfront, List.nil_append, steps_name hname]
    rfl
  · rw [hfront, hslashed]
  · rw [hfront, hslashed]

/-! ## Spellings without an idle end -/

/-- The bytes make no step behind a slash. -/
def IsIdle (bytes : List UInt8) : Prop := laterSteps bytes = []

theorem isIdle_slashes {bytes : List UInt8} (hslashes : ∀ byte ∈ bytes, byte = 0x2f) :
    IsIdle bytes := by
  induction bytes with
  | nil => rfl
  | cons byte bytes ih =>
      obtain rfl := hslashes byte (.head _)
      have hrest := ih fun byte hmem => hslashes byte (.tail _ hmem)
      rw [IsIdle, ← List.nil_append (0x2f :: bytes), laterSteps_append, hrest]
      rfl

theorem isIdle_here {bytes : List UInt8} (hslashes : ∀ byte ∈ bytes, byte = 0x2f) :
    IsIdle (0x2e :: bytes) := by
  cases bytes with
  | nil => rfl
  | cons byte bytes =>
      obtain rfl := hslashes byte (.head _)
      have hrest := isIdle_slashes fun byte hmem => hslashes byte (.tail _ hmem)
      rw [IsIdle, ← List.singleton_append, laterSteps_append, hrest]
      rfl

/-- Slashes at the end of a path add no step. -/
theorem steps_append_slashes {bytes slashes : List UInt8} (hbytes : bytes ≠ [])
    (hslashes : ∀ byte ∈ slashes, byte = 0x2f) : steps ⟨bytes ++ slashes⟩ = steps ⟨bytes⟩ := by
  cases slashes with
  | nil => rw [List.append_nil]
  | cons byte slashes =>
      obtain rfl := hslashes byte (.head _)
      rw [steps_append hbytes, isIdle_slashes fun byte hmem => hslashes byte (.tail _ hmem),
        List.append_nil]

/-- The bytes at the end that are slashes, and what is before them. -/
theorem exists_slashes (reversed : List UInt8) :
    ∃ slashes : List UInt8, (∀ byte ∈ slashes, byte = 0x2f) ∧
      reversed.reverse = (reversed.dropWhile (· = 0x2f)).reverse ++ slashes := by
  refine ⟨(reversed.takeWhile (· = 0x2f)).reverse, ?_, ?_⟩
  · intro byte hmem
    simpa using List.mem_takeWhile_imp (List.mem_reverse.mp hmem)
  · rw [← List.reverse_append, List.takeWhile_append_dropWhile]

/-- Slashes and dots that add no step may be dropped from the end. -/
theorem steps_dropIdleFrom (fuel : Nat) (reversed : List UInt8) :
    steps ⟨(dropIdleFrom fuel reversed).reverse⟩ = steps ⟨reversed.reverse⟩ := by
  induction fuel generalizing reversed with
  | zero => rfl
  | succ fuel ih =>
      obtain ⟨slashes, hslashes, hreversed⟩ := exists_slashes reversed
      simp only [dropIdleFrom]
      split
      next hnone =>
        rw [hnone, List.reverse_nil, List.nil_append] at hreversed
        cases slashes with
        | nil => simp [List.reverse_eq_nil_iff.mp hreversed]
        | cons byte slashes =>
            obtain rfl := hslashes byte (.head _)
            have hsome : reversed.isEmpty = false := by
              cases reversed with
              | nil => simp at hreversed
              | cons => rfl
            rw [hsome, hreversed, steps_slash,
              isIdle_slashes fun byte hmem => hslashes byte (.tail _ hmem)]
            rfl
      next rest hhere =>
        rw [ih, hreversed, hhere]
        simp only [List.reverse_cons, List.append_assoc, List.singleton_append]
        -- A dot behind a slash is dropped together with the slashes behind it.
        cases hrest : rest.reverse with
        | nil =>
            show steps ⟨0x2f :: []⟩ = steps ⟨0x2f :: 0x2e :: slashes⟩
            rw [steps_slash, steps_slash, isIdle_here hslashes]
            rfl
        | cons byte rest =>
            show steps ⟨byte :: rest ++ [0x2f]⟩ = steps ⟨byte :: rest ++ 0x2f :: 0x2e :: slashes⟩
            rw [steps_slash_end (List.cons_ne_nil _ _), steps_append (List.cons_ne_nil _ _),
              isIdle_here hslashes, List.append_nil]
      next rest hsome _ =>
        rw [hreversed, steps_append_slashes _ hslashes]
        simpa using hsome

/-- What is dropped at the end of a spelling makes no step. -/
theorem steps_dropIdle (bytes : List UInt8) : steps ⟨dropIdle bytes⟩ = steps ⟨bytes⟩ := by
  rw [dropIdle, steps_dropIdleFrom, List.reverse_reverse]

/-- Nothing but slashes is dropped behind a name. -/
theorem dropIdle_name {name : FileName} (hname : IsEntryName name) (before : List UInt8)
    {slashes : List UInt8} (hslashes : ∀ byte ∈ slashes, byte = 0x2f) :
    dropIdle (before ++ name ++ slashes) = before ++ name := by
  have hlast : ∃ last others, name.reverse = last :: others := by
    cases hname' : name.reverse with
    | nil => exact absurd (List.reverse_eq_nil_iff.mp hname') hname.ne_nil
    | cons last others => exact ⟨last, others, rfl⟩
  obtain ⟨last, others, hreverse⟩ := hlast
  have hbytes : ∀ byte ∈ last :: others, byte ≠ 0x2f := by
    intro byte hmem hbyte
    rw [← hreverse, List.mem_reverse, hbyte] at hmem
    exact hname.no_slash hmem
  have hdrop : (before ++ name ++ slashes).reverse.dropWhile (· = 0x2f) =
      last :: (others ++ before.reverse) := by
    rw [List.reverse_append, List.dropWhile_append_of_pos (by simpa using hslashes),
      List.reverse_append, hreverse, List.cons_append, List.dropWhile_cons_of_neg]
    simpa using hbytes last (.head _)
  have hback : (last :: (others ++ before.reverse)).reverse = before ++ name := by
    rw [← List.cons_append, ← hreverse, List.reverse_append, List.reverse_reverse,
      List.reverse_reverse]
  rw [dropIdle, dropIdleFrom, hdrop]
  split
  next h => cases h
  next rest hhere =>
    -- Only the name `.` could end in a dot behind a slash.
    obtain ⟨rfl, hrest⟩ := List.cons.inj hhere
    cases others with
    | nil => exact absurd (List.reverse_eq_iff.mp hreverse) hname.ne_here
    | cons byte others => exact absurd (List.cons.inj hrest).1 (hbytes byte (.tail _ (.head _)))
  next => exact hback

/-! ## Parents -/

theorem dropBytesWhile_front (directory : Path) {name : FileName} (hname : IsEntryName name) :
    dropBytesWhile (· ≠ 0x2f) (directory.front ++ name) = directory.front := by
  have hdrop : ∀ bytes : List UInt8, (bytes = [] ∨ ∃ before, bytes = before ++ [0x2f]) →
      bytes.reverse.dropWhile (· ≠ 0x2f) = bytes.reverse := by
    rintro bytes (rfl | ⟨before, rfl⟩)
    · rfl
    · simp
  rw [dropBytesWhile, List.reverse_append, List.dropWhile_append_of_pos, hdrop,
    List.reverse_reverse]
  · rcases directory.front_cases with ⟨-, hfront⟩ | ⟨bytes, -, hfront⟩ | ⟨-, hfront⟩
    · exact Or.inl hfront
    · exact Or.inr ⟨_, hfront⟩
    · exact Or.inr ⟨_, hfront⟩
  · intro byte hmem
    have hbyte : byte ≠ 0x2f := fun h => hname.no_slash (h ▸ List.mem_reverse.mp hmem)
    simpa using hbyte

/-- The parent of an entry has the steps of the directory. -/
theorem parent?_child (directory : Path) {name : FileName} (hname : IsEntryName name) :
    (directory.child name).parent? = some ⟨dropIdle directory.front⟩ := by
  have hidle : dropIdle (directory.front ++ name) = directory.front ++ name := by
    simpa using @dropIdle_name name hname directory.front [] (by simp)
  rw [parent?, directory.steps_child hname, List.getLast?_concat]
  simp only [child_eq, hidle, directory.dropBytesWhile_front hname]

/-- Dropping the idle end of a directory with a slash behind it gives the same directory, perhaps
spelled in another way. -/
theorem same_parent (directory : Path) : same ⟨dropIdle directory.front⟩ directory = true := by
  rw [same, decide_eq_true_iff, steps_dropIdle, steps_front]

theorem front_child (directory : Path) {name : FileName} (hname : IsEntryName name) :
    (directory.child name).front = (directory.child name).bytes ++ [0x2f] := by
  obtain ⟨byte, others, hbyte⟩ : ∃ byte others, name = others ++ [byte] := by
    cases name using List.reverseRecOn with
    | nil => exact absurd rfl hname.ne_nil
    | append_singleton others byte => exact ⟨byte, others, rfl⟩
  have hslash : byte ≠ 0x2f := by
    rintro rfl
    exact hname.no_slash (by simp [hbyte])
  rw [child_eq, hbyte, ← List.append_assoc]
  simp [front, hslash]

/-- Behind a name, a directory is spelled as the parent of its entries. -/
theorem parent?_child_child (directory : Path) {name inner : FileName} (hname : IsEntryName name)
    (hinner : IsEntryName inner) :
    ((directory.child name).child inner).parent? = some (directory.child name) := by
  have hidle := @dropIdle_name name hname directory.front [0x2f] (by simp)
  rw [parent?_child _ hinner, front_child _ hname, child_eq, hidle]

/-! ## Names that lead on -/

/-- The path that names lead to from a directory. -/
def below (directory : Path) (names : Location) : Path := names.foldl child directory

@[simp] theorem below_nil (directory : Path) : directory.below [] = directory := rfl

@[simp] theorem below_cons (directory : Path) (name : FileName) (names : Location) :
    directory.below (name :: names) = (directory.child name).below names := rfl

theorem below_append (directory : Path) (names inner : Location) :
    directory.below (names ++ inner) = (directory.below names).below inner :=
  List.foldl_append ..

theorem below_concat (directory : Path) (names : Location) (name : FileName) :
    directory.below (names ++ [name]) = (directory.below names).child name :=
  directory.below_append names [name]

/-- Each name adds one step. -/
theorem steps_below (directory : Path) {names : Location}
    (hnames : ∀ name ∈ names, IsEntryName name) :
    (directory.below names).steps = directory.steps ++ names.map PathStep.name := by
  induction names generalizing directory with
  | nil => simp
  | cons name names ih =>
      rw [below_cons, ih _ fun other hmem => hnames other (.tail _ hmem),
        steps_child _ (hnames name (.head _)), List.append_assoc]
      rfl

/-- The names that lead from a directory to a path are told by the steps of the path. -/
theorem below_injective {directory other : Path} {names inner : Location}
    (hnames : ∀ name ∈ names, IsEntryName name) (hinner : ∀ name ∈ inner, IsEntryName name)
    (hdirectories : directory.steps = other.steps)
    (hsteps : (directory.below names).steps = (other.below inner).steps) : names = inner := by
  rw [steps_below _ hnames, steps_below _ hinner, hdirectories,
    List.append_cancel_left_eq] at hsteps
  exact (List.map_inj_right fun _ _ h => PathStep.name.inj h).mp hsteps

/-- Each name adds a byte at least. -/
theorem length_le_below (directory : Path) {names : Location}
    (hnames : ∀ name ∈ names, IsEntryName name) :
    directory.bytes.length + names.length ≤ (directory.below names).bytes.length := by
  induction names generalizing directory with
  | nil => simp
  | cons name names ih =>
      have hrest := ih (directory.child name) fun other hmem => hnames other (.tail _ hmem)
      have hname : 0 < name.length := List.length_pos_iff.mpr (hnames name (.head _)).ne_nil
      have hfront : directory.bytes.length ≤ directory.front.length := by
        rcases directory.front_cases with ⟨h, hfront⟩ | ⟨bytes, h, hfront⟩ | ⟨h, hfront⟩ <;>
          simp [h, hfront]
      rw [child_eq, List.length_append] at hrest
      rw [below_cons, child_eq, List.length_cons]
      omega

end Path

end LiteralAudit
