import LiteralAudit.Proofs.Text.Part
import LiteralAudit.Proofs.Yaml.Document

/-!
# The line of a failure

The parser and the auditor number the lines of a text alike, up to the breaks that only YAML knows
(`line_of_countDocuments`).  A failure is on a line of the text or, at its end, on the line behind
the last one; each of those breaks before the failure may make its number greater by one.
-/

namespace LiteralAudit.Yaml

open Cursor

/-- A text cannot be read because of something behind a beginning of it. -/
def FailsBehind (text : Text) (failure : ParseFailure) (read : Text) : Prop :=
  ∃ fault place, values text = .error fault ∧ fault.toFailure = failure ∧
    fault.place? = some place ∧ place.offset = Text.byteSize read

/-- The number of a line, counted from one, fits a place between two parts of a text. -/
structure NumbersLine (read rest : Text) (number : Nat) : Prop where
  /-- Numbers begin with one. -/
  pos : 1 ≤ number
  /-- The number counts no more lines than there are, and foreign breaks. -/
  le : number ≤ (Text.splitLines (read ++ rest)).length + foreignBreaks read + 1
  /-- Only at the end of the text it counts one line more. -/
  atEnd : number = (Text.splitLines (read ++ rest)).length + foreignBreaks read + 1 → rest = []
  /-- It leaves out no line before that of the place. -/
  ge : (Text.splitLines (read ++ rest)).length < number + max 1 (Text.splitLines rest).length

/-- A place of a text is told by what was read before it and numbers the line that it is on. -/
theorem Place.IsIn.numbersLine {text : Text} {place : Place} (h : place.IsIn text) :
    ∃ read rest, text = read ++ rest ∧ place.offset = Text.byteSize read ∧
      NumbersLine read rest (place.line + 1) := by
  obtain ⟨rest, hreach⟩ := h
  obtain ⟨read, htext⟩ : rest <:+ text := hreach.rest_suffix
  subst htext
  have hoffset : place.offset + Text.byteSize rest = 0 + Text.byteSize (read ++ rest) :=
    hreach.offset_add
  have hle := hreach.line_add_le
  have hge := hreach.le_line_add
  have hstart :
      (Cursor.ofText (read ++ rest)).linesLeft = (Text.splitLines (read ++ rest)).length :=
    Nat.max_eq_right (Nat.zero_le _)
  have hforeign : foreignBreaks (read ++ rest) = foreignBreaks read + foreignBreaks rest :=
    List.countP_append
  rw [hstart] at hle hge
  change place.line + linesLeft ⟨rest, place⟩ + foreignBreaks rest ≤
    0 + _ + foreignBreaks (read ++ rest) at hle
  change 0 + _ ≤ place.line + linesLeft ⟨rest, place⟩ at hge
  have hlines : (Text.splitLines rest).length ≤ linesLeft ⟨rest, place⟩ := Nat.le_max_right _ _
  have hopen : linesLeft ⟨rest, place⟩ ≤ max 1 (Text.splitLines rest).length := by
    show max (if place.column = 0 then 0 else 1) (Text.splitLines rest).length ≤ _
    split <;> omega
  refine ⟨read, rest, rfl, ?_, ?_, ?_, ?_, ?_⟩
  · rw [Text.byteSize_append] at hoffset
    omega
  · omega
  · omega
  · intro hlast
    exact Text.eq_nil_of_splitLines (List.eq_nil_of_length_eq_zero (by omega))
  · omega

/-- A failure whose line is known is behind a beginning of the text, on the line that the rest of
the text begins with. -/
theorem line_of_countDocuments {text : Text} {failure : ParseFailure} {number : Nat}
    (h : countDocuments text = .error failure) (hline : failure.line = some number) :
    ∃ read rest, text = read ++ rest ∧ FailsBehind text failure read ∧
      NumbersLine read rest number := by
  rw [countDocuments] at h
  cases hvalues : values text with
  | ok values =>
      rw [hvalues] at h
      cases h
  | error fault =>
      rw [hvalues] at h
      cases h
      cases hplace : fault.place? with
      | none =>
          rw [Fault.toFailure, hplace] at hline
          cases hline
      | some place =>
          rw [Fault.toFailure, hplace] at hline
          cases hline
          obtain ⟨read, rest, htext, hoffset, hnumber⟩ :=
            (isIn_of_values hvalues place hplace).numbersLine
          exact ⟨read, rest, htext, ⟨fault, place, hvalues, rfl, hplace, hoffset⟩, hnumber⟩

/-- A sequence that is never closed.  The failure is behind the last of its two lines. -/
def openBracket : Text := "[\r\na"

theorem line_of_countDocuments_openBracket :
    let failure : ParseFailure := ⟨some 3, some 1,
      "did not find expected ',' or ']' at line 3 column 1, while parsing a flow sequence"⟩
    countDocuments openBracket = .error failure ∧ failure.line = some 3 ∧
      ∃ read rest, openBracket = read ++ rest ∧ FailsBehind openBracket failure read ∧
        NumbersLine read rest 3 := by
  intro failure
  have hfailure : countDocuments openBracket = .error failure := by decide +kernel
  exact ⟨hfailure, rfl, line_of_countDocuments hfailure rfl⟩

/-- Two separators, and a colon that needs a key before it. -/
def farSeparators : Text := "a\u2028\u2028: b"

/-- Foreign breaks make the number of a line too great. -/
theorem not_forall_line_le : ¬∀ text failure number, countDocuments text = .error failure →
    failure.line = some number →
      1 ≤ number ∧ number ≤ (Text.splitLines text).length + 1 := by
  intro h
  have hfailure : countDocuments farSeparators = .error ⟨some 3, some 1,
      "did not find expected <document start> at line 3 column 1"⟩ := by decide +kernel
  obtain ⟨-, hle⟩ := h farSeparators _ 3 hfailure rfl
  revert hle
  decide

end LiteralAudit.Yaml
