import LiteralAudit.Proofs.Text.Line
import LiteralAudit.Yaml.SyntaxFault

/-!
# Places that reading reaches

A cursor reaches another by reading characters, and each line break on the way counts once
(`Reaches`).  Everything that reads a text keeps to this.  So the place of a cursor is told by the
text behind it: what is left has the bytes that the place does not count yet
(`Reaches.offset_add`), and the lines too, as far as both count lines alike
(`Reaches.line_add_le`, `Reaches.le_line_add`).

The only line that is counted without a break is the one behind an unfinished last line.

What reads a text may fail.  `Reads` says that it stops at a cursor that it reaches, and fails at
a place that it reaches; `Reads.bind` takes this from one step to the next.
-/

namespace LiteralAudit.Yaml

/-- The breaks of YAML that end no line elsewhere. -/
def isForeignBreak (c : Char) : Bool := c = '\u0085' || c = '\u2028' || c = '\u2029'

/-- The number of foreign breaks in a text. -/
def foreignBreaks (text : Text) : Nat := text.countP isForeignBreak

theorem isBreak_eq_true {c : Char} :
    isBreak c = true ↔ c = '\n' ∨ c = '\r' ∨ isForeignBreak c = true := by
  simp only [isBreak, isForeignBreak, Bool.or_eq_true, decide_eq_true_eq, or_assoc]

/-- Where the line breaks of both kinds agree, a break ends the first line. -/
theorem splitLines_break {c : Char} {rest : Text} (hbreak : isBreak c = true)
    (hforeign : isForeignBreak c = false)
    (hpair : ∀ later, c = '\r' → rest = '\n' :: later → False) :
    Text.splitLines (c :: rest) = [] :: Text.splitLines rest := by
  rcases isBreak_eq_true.mp hbreak with rfl | rfl | hc
  · exact Text.splitLines_feed rest
  · refine Text.splitLines_return fun hhead => ?_
    obtain ⟨later, hlater⟩ := List.head?_eq_some_iff.mp hhead
    exact hpair later rfl hlater
  · rw [hc] at hforeign
    cases hforeign

theorem foreignBreaks_cons_of_not {c : Char} (h : isForeignBreak c = false) (text : Text) :
    foreignBreaks (c :: text) = foreignBreaks text :=
  List.countP_cons_of_neg (by rw [h]; exact Bool.false_ne_true)

namespace Cursor

/-- The number of lines at and behind a cursor.  A line that has begun is one of them. -/
def linesLeft (cursor : Cursor) : Nat :=
  max (if cursor.place.column = 0 then 0 else 1) (Text.splitLines cursor.rest).length

/-- A cursor reaches another by reading characters. -/
inductive Reaches : Cursor → Cursor → Prop
  /-- Nothing is read. -/
  | refl (cursor : Cursor) : Reaches cursor cursor
  /-- A character is read. -/
  | char {c : Char} {rest : Text} {place : Place} {stop : Cursor} : isBreak c = false →
      Reaches ⟨rest, place.after c⟩ stop → Reaches ⟨c :: rest, place⟩ stop
  /-- A carriage return and a line feed are read. -/
  | pair {rest : Text} {place : Place} {stop : Cursor} :
      Reaches ⟨rest, place.newLine 2⟩ stop → Reaches ⟨'\r' :: '\n' :: rest, place⟩ stop
  /-- Another line break is read. -/
  | newLine {c : Char} {rest : Text} {place : Place} {stop : Cursor} : isBreak c = true →
      (∀ later, c = '\r' → rest = '\n' :: later → False) →
      Reaches ⟨rest, place.newLine c.utf8Size⟩ stop → Reaches ⟨c :: rest, place⟩ stop
  /-- The text ends on a line of its own. -/
  | final {place : Place} : place.column ≠ 0 → Reaches ⟨[], place⟩ ⟨[], place.newLine 0⟩

/-! ## Counting lines -/

section Lines

variable {c : Char} {rest : Text} {place : Place}

theorem linesLeft_newLine (size : Nat) :
    (Cursor.mk rest (place.newLine size)).linesLeft = (Text.splitLines rest).length :=
  Nat.max_eq_right (Nat.zero_le _)

theorem linesLeft_pair :
    (Cursor.mk ('\r' :: '\n' :: rest) place).linesLeft = (Text.splitLines rest).length + 1 := by
  rw [linesLeft, Text.splitLines_pair, List.length_cons]
  split <;> omega

/-- A character of a line is on that line. -/
theorem linesLeft_cons (hfeed : c ≠ '\n') (hreturn : c ≠ '\r') :
    (Cursor.mk (c :: rest) place).linesLeft = max 1 (Text.splitLines rest).length := by
  rw [linesLeft, Text.splitLines_cons hfeed hreturn]
  cases Text.splitLines rest with
  | nil =>
      simp only [Text.consLine, List.length_cons, List.length_nil]
      split <;> rfl
  | cons line lines =>
      simp only [Text.consLine, List.length_cons]
      split <;> omega

/-- A break that is not foreign ends a line. -/
theorem linesLeft_break (hbreak : isBreak c = true) (hforeign : isForeignBreak c = false)
    (hpair : ∀ later, c = '\r' → rest = '\n' :: later → False) :
    (Cursor.mk (c :: rest) place).linesLeft = (Text.splitLines rest).length + 1 := by
  rw [linesLeft, splitLines_break hbreak hforeign hpair, List.length_cons]
  split <;> omega

end Lines

namespace Reaches

variable {a b c : Cursor}

theorem trans (h : Reaches a b) (h' : Reaches b c) : Reaches a c := by
  induction h with
  | refl => exact h'
  | char hc _ ih => exact .char hc (ih h')
  | pair _ ih => exact .pair (ih h')
  | newLine hc hpair _ ih => exact .newLine hc hpair (ih h')
  | final hcolumn =>
      cases h' with
      | refl => exact .final hcolumn
      | final hzero => exact absurd rfl hzero

/-- What is left is the end of what there was. -/
theorem rest_suffix (h : Reaches a b) : b.rest <:+ a.rest := by
  induction h with
  | refl => exact List.suffix_rfl
  | char _ _ ih => exact ih.trans (List.suffix_cons _ _)
  | pair _ ih => exact (ih.trans (List.suffix_cons _ _)).trans (List.suffix_cons _ _)
  | newLine _ _ _ ih => exact ih.trans (List.suffix_cons _ _)
  | final => exact List.suffix_rfl

/-- Every byte is either counted or left. -/
theorem offset_add (h : Reaches a b) :
    b.place.offset + Text.byteSize b.rest = a.place.offset + Text.byteSize a.rest := by
  induction h with
  | refl => rfl
  | char _ _ ih =>
      rw [ih]
      exact Nat.add_assoc _ _ _
  | pair _ ih =>
      rw [ih]
      have hreturn : ('\r' : Char).utf8Size = 1 := rfl
      have hfeed : ('\n' : Char).utf8Size = 1 := rfl
      simp only [Text.byteSize, Place.newLine]
      omega
  | newLine _ _ _ ih =>
      rw [ih]
      exact Nat.add_assoc _ _ _
  | final => rfl

/-- Every line is either counted or left. -/
theorem le_line_add (h : Reaches a b) :
    a.place.line + a.linesLeft ≤ b.place.line + b.linesLeft := by
  induction h with
  | refl => exact Nat.le_refl _
  | @char c rest place stop hc _ ih =>
      refine Nat.le_trans ?_ ih
      have hne : c ≠ '\n' ∧ c ≠ '\r' := by
        constructor <;> rintro rfl <;> cases hc
      rw [linesLeft_cons hne.1 hne.2]
      exact Nat.le_refl _
  | @pair rest place stop _ ih =>
      refine Nat.le_trans ?_ ih
      rw [linesLeft_pair, linesLeft_newLine]
      show place.line + _ ≤ place.line + 1 + _
      omega
  | @newLine c rest place stop hc hpair _ ih =>
      refine Nat.le_trans ?_ ih
      rw [linesLeft_newLine]
      show place.line + _ ≤ place.line + 1 + _
      cases hforeign : isForeignBreak c with
      | true =>
          have hne : c ≠ '\n' ∧ c ≠ '\r' := by
            constructor <;> rintro rfl <;> cases hforeign
          rw [linesLeft_cons hne.1 hne.2]
          omega
      | false =>
          rw [linesLeft_break hc hforeign hpair]
          omega
  | @final place hcolumn =>
      rw [linesLeft_newLine, linesLeft, if_neg hcolumn]
      exact Nat.le_refl _

/-- No line is counted that is not there, but a foreign break counts as one more. -/
theorem line_add_le (h : Reaches a b) :
    b.place.line + b.linesLeft + foreignBreaks b.rest ≤
      a.place.line + a.linesLeft + foreignBreaks a.rest := by
  induction h with
  | refl => exact Nat.le_refl _
  | @char c rest place stop hc _ ih =>
      refine Nat.le_trans ih ?_
      have hne : c ≠ '\n' ∧ c ≠ '\r' := by
        constructor <;> rintro rfl <;> cases hc
      have hforeign : isForeignBreak c = false := by
        cases hforeign : isForeignBreak c with
        | false => rfl
        | true =>
            rw [isBreak_eq_true.mpr (.inr (.inr hforeign))] at hc
            cases hc
      rw [linesLeft_cons hne.1 hne.2, foreignBreaks_cons_of_not hforeign]
      exact Nat.le_refl _
  | @pair rest place stop _ ih =>
      refine Nat.le_trans ih ?_
      rw [linesLeft_pair, linesLeft_newLine, foreignBreaks_cons_of_not rfl,
        foreignBreaks_cons_of_not rfl]
      show place.line + 1 + _ + foreignBreaks rest ≤ place.line + _ + foreignBreaks rest
      omega
  | @newLine c rest place stop hc hpair _ ih =>
      refine Nat.le_trans ih ?_
      rw [linesLeft_newLine]
      show place.line + 1 + _ + foreignBreaks rest ≤ place.line + _ + _
      cases hforeign : isForeignBreak c with
      | true =>
          have hne : c ≠ '\n' ∧ c ≠ '\r' := by
            constructor <;> rintro rfl <;> cases hforeign
          rw [linesLeft_cons hne.1 hne.2, foreignBreaks, foreignBreaks,
            List.countP_cons_of_pos hforeign]
          omega
      | false =>
          rw [linesLeft_break hc hforeign hpair, foreignBreaks_cons_of_not hforeign]
          omega
  | @final place hcolumn =>
      rw [linesLeft_newLine, linesLeft, if_neg hcolumn]
      exact Nat.le_refl _

end Reaches

/-! ## Reading -/

section Reading

variable {cursor stop : Cursor} {p : Char → Bool}

/-- The next character, if there is one, breaks no line. -/
def KeepsLine (cursor : Cursor) : Prop := ∀ c, cursor.rest.head? = some c → isBreak c = false

theorem keepsLine_of_isAt {c : Char} (h : cursor.isAt c = true) (hc : isBreak c = false) :
    cursor.KeepsLine := by
  intro next hnext
  rw [isAt, decide_eq_true_eq, hnext] at h
  cases h
  exact hc

/-- A cursor that does not stand at a break may be moved on by a character. -/
theorem reaches_skip (h : cursor.KeepsLine) : Reaches cursor cursor.skip := by
  obtain ⟨rest, place⟩ := cursor
  cases rest with
  | nil => exact .refl _
  | cons c rest => exact .char (h c rfl) (.refl _)

theorem reaches_skipMany {count : Nat} (h : ∀ c ∈ cursor.rest.take count, isBreak c = false) :
    Reaches cursor (cursor.skipMany count) := by
  induction count generalizing cursor with
  | zero => exact .refl _
  | succ count ih =>
      obtain ⟨rest, place⟩ := cursor
      cases rest with
      | nil =>
          have hnil : ∀ c ∈ (Cursor.mk [] place).rest.take count, isBreak c = false := by
            rw [List.take_nil]
            exact nofun
          exact ih hnil
      | cons c rest =>
          have htake := List.forall_mem_cons.mp h
          exact .char htake.1 (ih htake.2)

theorem rest_skipMany (cursor : Cursor) (count : Nat) :
    (cursor.skipMany count).rest = cursor.rest.drop count := by
  induction count generalizing cursor with
  | zero => rfl
  | succ count ih =>
      obtain ⟨rest, place⟩ := cursor
      rw [skipMany, ih]
      cases rest with
      | nil => exact List.drop_nil
      | cons => rfl

theorem reaches_takeWhile (hp : ∀ c, p c = true → isBreak c = false) (cursor : Cursor) :
    Reaches cursor (cursor.takeWhile p).2 := by
  obtain ⟨rest, place⟩ := cursor
  show Reaches ⟨rest, place⟩ (takeWhile.go p rest place).2
  induction rest generalizing place with
  | nil => exact .refl _
  | cons c rest ih =>
      rw [takeWhile.go]
      split
      · next hc => exact .char (hp c hc) (ih _)
      · exact .refl _

theorem takeWhile_fst (p : Char → Bool) (cursor : Cursor) :
    (cursor.takeWhile p).1 = cursor.rest.takeWhile p := by
  obtain ⟨rest, place⟩ := cursor
  show (takeWhile.go p rest place).1 = rest.takeWhile p
  induction rest generalizing place with
  | nil => rfl
  | cons c rest ih =>
      rw [takeWhile.go, List.takeWhile_cons]
      split
      · exact congrArg (c :: ·) (ih _)
      · rfl

/-- A break is passed as a whole, be it one character or two. -/
theorem reaches_takeBreak? {c : Char} (h : cursor.takeBreak? = some (c, stop)) :
    Reaches cursor stop := by
  rw [takeBreak?.eq_def] at h
  split at h
  · cases h
    exact .pair (.refl _)
  · next c rest place hpair =>
      split at h
      · next hbreak =>
          cases h
          exact .newLine hbreak hpair (.refl _)
      · cases h
  · cases h

theorem reaches_skipBreak (cursor : Cursor) : Reaches cursor cursor.skipBreak := by
  rw [skipBreak]
  split
  · next h => exact reaches_takeBreak? h
  · exact .refl _

theorem isBreak_of_isGap {c : Char} (h : isGap c = true) : isBreak c = false := by
  rw [isGap, Bool.or_eq_true, decide_eq_true_eq, decide_eq_true_eq] at h
  rcases h with rfl | rfl <;> rfl

theorem reaches_skipComment (cursor : Cursor) : Reaches cursor cursor.skipComment := by
  have hgap := reaches_takeWhile (fun _ => isBreak_of_isGap) cursor
  rw [skipComment, dropWhile]
  split
  · refine hgap.trans (reaches_takeWhile ?_ _)
    intro c hc
    simpa using hc
  · exact hgap

end Reading

/-- What is read from a cursor stops at a cursor that is reached, or fails at a place that is
reached. -/
def Reads {α : Type} (cursor : Cursor) (stop : α → Cursor) : Except SyntaxFault α → Prop
  | .ok read => cursor.Reaches (stop read)
  | .error fault => ∃ rest, cursor.Reaches ⟨rest, fault.place⟩

namespace Reads

variable {α β : Type} {cursor next : Cursor} {stop : α → Cursor} {behind : β → Cursor}

theorem fail (activity : Activity) (began : Place) (problem : Problem) (h : cursor.Reaches next) :
    cursor.Reads stop (.error (.within activity began problem next.place)) := ⟨next.rest, h⟩

theorem of_reaches {result : Except SyntaxFault α} (h : cursor.Reaches next)
    (hread : next.Reads stop result) : cursor.Reads stop result := by
  cases result with
  | ok => exact h.trans hread
  | error =>
      obtain ⟨rest, hrest⟩ := hread
      exact ⟨rest, h.trans hrest⟩

section Next

variable {c : Char} {rest : Text} {place : Place} {result : Except SyntaxFault α}

theorem char (hbreak : ¬isBreak c = true)
    (h : (Cursor.mk rest (place.after c)).Reads stop result) :
    (Cursor.mk (c :: rest) place).Reads stop result :=
  of_reaches (.char (Bool.eq_false_iff.mpr hbreak) (.refl _)) h

theorem pair (h : (Cursor.mk rest (place.newLine 2)).Reads stop result) :
    (Cursor.mk ('\r' :: '\n' :: rest) place).Reads stop result :=
  of_reaches (.pair (.refl _)) h

theorem newLine (hbreak : isBreak c = true)
    (hpair : ∀ later, c = '\r' → rest = '\n' :: later → False)
    (h : (Cursor.mk rest (place.newLine c.utf8Size)).Reads stop result) :
    (Cursor.mk (c :: rest) place).Reads stop result :=
  of_reaches (.newLine hbreak hpair (.refl _)) h

end Next

/-- Readers in a row read on from where the first one stops. -/
theorem bind {first : Except SyntaxFault α} {later : α → Except SyntaxFault β}
    (hfirst : cursor.Reads stop first)
    (hlater : ∀ read, first = .ok read → (stop read).Reads behind (later read)) :
    cursor.Reads behind (first >>= later) := by
  cases first with
  | error => exact hfirst
  | ok read => exact of_reaches hfirst (hlater read rfl)

end Reads

end Cursor
end LiteralAudit.Yaml
