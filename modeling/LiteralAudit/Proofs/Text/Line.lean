import LiteralAudit.Text.Line

/-!
# Lines, character by character

How the lines of a text come from the lines behind its first character: a break puts an empty
line before them (`splitLines_feed`, `splitLines_pair`, `splitLines_return`), and every other
character goes to the front of the first of them (`splitLines_cons`).
-/

namespace LiteralAudit.Text

/-- Lines with a character at the front of the first one. -/
def consLine (c : Char) : List Text → List Text
  | [] => [[c]]
  | line :: lines => (c :: line) :: lines

theorem head?_consLine (c : Char) (lines : List Text) :
    (consLine c lines).head? = some (c :: lines.headD []) := by
  cases lines <;> rfl

theorem tail_consLine (c : Char) (lines : List Text) : (consLine c lines).tail = lines.tail := by
  cases lines <;> rfl

/-! ## Pieces -/

theorem splitOn_self (separator : Char) (text : Text) :
    splitOn separator (separator :: text) = [] :: splitOn separator text := if_pos rfl

theorem splitOn_cons {separator c : Char} (h : c ≠ separator) (text : Text) :
    splitOn separator (c :: text) = consLine c (splitOn separator text) := by
  rw [splitOn, if_neg h]
  cases splitOn separator text <;> rfl

theorem splitOn_eq_cons (separator : Char) (text : Text) :
    ∃ piece pieces, splitOn separator text = piece :: pieces := by
  cases text with
  | nil => exact ⟨[], [], rfl⟩
  | cons c text =>
      by_cases h : c = separator
      · subst h
        exact ⟨_, _, splitOn_self c text⟩
      · rw [splitOn_cons h]
        cases splitOn separator text with
        | nil => exact ⟨_, _, rfl⟩
        | cons piece pieces => exact ⟨_, _, rfl⟩

theorem splitEnded_self (ending : Char) (text : Text) :
    splitEnded ending (ending :: text) = [] :: splitEnded ending text := by
  obtain ⟨piece, pieces, hsplit⟩ := splitOn_eq_cons ending text
  simp only [splitEnded, splitOn_self, hsplit, List.getLast?_cons_cons, List.dropLast_cons_cons]
  split <;> rfl

theorem splitEnded_cons {ending c : Char} (h : c ≠ ending) (text : Text) :
    splitEnded ending (c :: text) = consLine c (splitEnded ending text) := by
  obtain ⟨piece, pieces, hsplit⟩ := splitOn_eq_cons ending text
  simp only [splitEnded, splitOn_cons h, hsplit, consLine]
  cases pieces with
  | nil => cases piece <;> rfl
  | cons next pieces =>
      simp only [List.getLast?_cons_cons, List.dropLast_cons_cons]
      split <;> rfl

/-! ## Carriage returns -/

theorem dropEnd?_getD (c : Char) (text : Text) :
    (dropEnd? [c] text).getD text = if text.getLast? = some c then text.dropLast else text := by
  rw [dropEnd?]
  rcases List.eq_nil_or_concat text with rfl | ⟨front, last, rfl⟩
  · rfl
  · rw [List.concat_eq_append, List.reverse_append, List.getLast?_concat, List.dropLast_concat]
    by_cases h : last = c
    · subst h
      simp [dropStart?]
    · simp [dropStart?, h, Ne.symm h]

theorem splitReturns_cons (c : Char) {piece : Text} (h : piece ≠ []) :
    splitReturns (c :: piece) =
      if c = '\r' then [] :: splitReturns piece else consLine c (splitReturns piece) := by
  obtain ⟨next, piece, rfl⟩ := List.exists_cons_of_ne_nil h
  have hdrop : (dropEnd? ['\r'] (c :: next :: piece)).getD (c :: next :: piece) =
      c :: (dropEnd? ['\r'] (next :: piece)).getD (next :: piece) := by
    simp only [dropEnd?_getD, List.getLast?_cons_cons, List.dropLast_cons_cons]
    split <;> rfl
  rw [splitReturns, hdrop]
  split
  · next hreturn =>
      subst hreturn
      exact splitOn_self _ _
  · next hother => exact splitOn_cons hother _

theorem splitReturns_singleton {c : Char} (h : c ≠ '\r') : splitReturns [c] = [[c]] := by
  simp [splitReturns, dropEnd?_getD, splitOn, h]

/-! ## Lines -/

/-- A line feed ends a line. -/
theorem splitLines_feed (text : Text) : splitLines ('\n' :: text) = [] :: splitLines text := by
  rw [splitLines, splitEnded_self]
  rfl

/-- A carriage return before a line feed makes no difference. -/
theorem splitLines_pair (text : Text) :
    splitLines ('\r' :: '\n' :: text) = [] :: splitLines text := by
  rw [splitLines, splitEnded_cons (by decide), splitEnded_self]
  rfl

theorem head_ne_nil_of_splitEnded {ending : Char} {text piece : Text} {pieces : List Text}
    (hhead : text.head? ≠ some ending) (h : splitEnded ending text = piece :: pieces) :
    piece ≠ [] := by
  cases text with
  | nil => cases h
  | cons c text =>
      have hc : c ≠ ending := fun heq => hhead (congrArg some heq)
      rw [splitEnded_cons hc] at h
      cases hlater : splitEnded ending text <;> rw [hlater] at h <;> cases h <;>
        exact List.cons_ne_nil _ _

theorem eq_nil_of_splitEnded {ending : Char} {text : Text} (h : splitEnded ending text = []) :
    text = [] := by
  cases text with
  | nil => rfl
  | cons c text =>
      by_cases hc : c = ending
      · subst hc
        rw [splitEnded_self] at h
        cases h
      · rw [splitEnded_cons hc] at h
        cases hlater : splitEnded ending text <;> rw [hlater] at h <;> cases h

/-- A carriage return that stands alone ends a line. -/
theorem splitLines_return {text : Text} (h : text.head? ≠ some '\n') :
    splitLines ('\r' :: text) = [] :: splitLines text := by
  rw [splitLines, splitEnded_cons (by decide), splitLines]
  cases hpieces : splitEnded '\n' text with
  | nil => rfl
  | cons piece pieces =>
      have hpiece := head_ne_nil_of_splitEnded h hpieces
      rw [consLine, List.flatMap_cons, List.flatMap_cons, splitReturns_cons _ hpiece, if_pos rfl]
      rfl

/-- Any other character is added to the first line. -/
theorem splitLines_cons {c : Char} (hfeed : c ≠ '\n') (hreturn : c ≠ '\r') (text : Text) :
    splitLines (c :: text) = consLine c (splitLines text) := by
  rw [splitLines, splitEnded_cons hfeed, splitLines]
  cases splitEnded '\n' text with
  | nil =>
      rw [consLine, List.flatMap_singleton, splitReturns_singleton hreturn]
      rfl
  | cons piece pieces =>
      rw [consLine, List.flatMap_cons, List.flatMap_cons]
      cases piece with
      | nil =>
          rw [splitReturns_singleton hreturn]
          rfl
      | cons next piece =>
          rw [splitReturns_cons _ (List.cons_ne_nil _ _), if_neg hreturn]
          obtain ⟨line, lines, hlines⟩ := splitOn_eq_cons '\r'
            ((dropEnd? ['\r'] (next :: piece)).getD (next :: piece))
          rw [splitReturns, hlines]
          rfl

/-- A text has no line only if it is empty. -/
theorem eq_nil_of_splitLines {text : Text} (h : splitLines text = []) : text = [] := by
  suffices hpieces : splitEnded '\n' text = [] from eq_nil_of_splitEnded hpieces
  cases hpieces : splitEnded '\n' text with
  | nil => rfl
  | cons piece pieces =>
      obtain ⟨line, lines, hlines⟩ := splitOn_eq_cons '\r' ((dropEnd? ['\r'] piece).getD piece)
      rw [splitLines, hpieces, List.flatMap_cons, splitReturns, hlines] at h
      cases h

end LiteralAudit.Text
