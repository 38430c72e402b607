import LiteralAudit.Text.Blank
import LiteralAudit.Proofs.Text.Part

/-!
# Trimming

Trimming takes white space off a text and nothing else.  What is left neither begins nor ends
with white space, so a text that does not either is what is left of itself with white space
around it.  A piece without white space stays in the text as a whole (`Part.infix_trim`).
-/

namespace LiteralAudit.Text

/-! ## Endings -/

theorem dropEnd?_eq_some {ending text rest : Text} :
    dropEnd? ending text = some rest ↔ text = rest ++ ending := by
  rw [dropEnd?, Option.map_eq_some_iff]
  constructor
  · rintro ⟨start, hstart, rfl⟩
    rw [← text.reverse_reverse, dropStart?_eq_some.mp hstart, List.reverse_append,
      List.reverse_reverse]
  · rintro rfl
    exact ⟨rest.reverse, dropStart?_eq_some.mpr (List.reverse_append ..), List.reverse_reverse _⟩

theorem dropEnd?_eq_none {ending text : Text} :
    dropEnd? ending text = none ↔ ∀ rest, text ≠ rest ++ ending := by
  rw [Option.eq_none_iff_forall_ne_some]
  exact forall_congr' fun rest => not_congr dropEnd?_eq_some

/-! ## White space around a text -/

/-- A text is white space. -/
def IsBlanks (text : Text) : Prop := ∀ c ∈ text, isBlank c = true

/-- A text does not begin with white space. -/
def StartsInk (text : Text) : Prop := ∀ c, text.head? = some c → isBlank c = false

/-- A text does not end with white space. -/
def EndsInk (text : Text) : Prop := ∀ c, text.getLast? = some c → isBlank c = false

theorem exists_trimStart (text : Text) :
    ∃ blanks, text = blanks ++ trimStart text ∧ IsBlanks blanks :=
  ⟨text.takeWhile isBlank, List.takeWhile_append_dropWhile.symm,
    fun _ hc => List.mem_takeWhile_imp hc⟩

/-- White space in front of ink is trimmed. -/
theorem trimStart_append {blanks text : Text} (hblanks : IsBlanks blanks) (htext : StartsInk text) :
    trimStart (blanks ++ text) = text :=
  (takeWhile_append_of_stop hblanks htext).2

theorem trimEnd_eq (text : Text) : trimEnd text = (trimStart text.reverse).reverse := rfl

theorem exists_trimEnd (text : Text) :
    ∃ blanks, text = trimEnd text ++ blanks ∧ IsBlanks blanks := by
  obtain ⟨blanks, hblanks, hall⟩ := exists_trimStart text.reverse
  refine ⟨blanks.reverse, ?_, fun c hc => hall c (List.mem_reverse.mp hc)⟩
  rw [trimEnd_eq, ← List.reverse_append, ← hblanks, List.reverse_reverse]

theorem trimEnd_append {text blanks : Text} (htext : EndsInk text) (hblanks : IsBlanks blanks) :
    trimEnd (text ++ blanks) = text := by
  have hreverse : StartsInk text.reverse := by
    intro c hc
    rw [List.head?_reverse] at hc
    exact htext c hc
  rw [trimEnd_eq, List.reverse_append,
    trimStart_append (fun c hc => hblanks c (List.mem_reverse.mp hc)) hreverse,
    List.reverse_reverse]

theorem endsInk_append {front text : Text} (hne : text ≠ []) :
    EndsInk (front ++ text) ↔ EndsInk text := by
  rw [EndsInk, EndsInk, List.getLast?_append_of_ne_nil _ hne]

/-- A trimmed text does not end in white space. -/
theorem endsInk_trimEnd (text : Text) : EndsInk (trimEnd text) := by
  intro c hc
  rw [trimEnd_eq, List.getLast?_reverse] at hc
  have hblank := List.head?_dropWhile_not isBlank text.reverse
  rw [trimStart] at hc
  rw [hc] at hblank
  exact hblank

/-- Only a text that ends in ink stays as it is. -/
theorem trimEnd_eq_self_iff {text : Text} : trimEnd text = text ↔ EndsInk text := by
  constructor
  · intro h
    rw [← h]
    exact endsInk_trimEnd text
  · intro h
    have hnone : IsBlanks [] := nofun
    simpa using trimEnd_append h hnone

/-- White space at the end makes no difference to what trimming leaves. -/
theorem trimEnd_append_blanks (text : Text) {blanks : Text} (hblanks : IsBlanks blanks) :
    trimEnd (text ++ blanks) = trimEnd text := by
  obtain ⟨others, htext, hothers⟩ := exists_trimEnd text
  have hall : IsBlanks (others ++ blanks) := by
    intro c hc
    rcases List.mem_append.mp hc with hc | hc
    · exact hothers c hc
    · exact hblanks c hc
  rw [htext, List.append_assoc, trimEnd_append (endsInk_trimEnd text) hall, ← htext]

/-- A text is what trimming leaves, with white space around it. -/
theorem exists_trim (text : Text) :
    ∃ front back, text = front ++ (trim text ++ back) ∧ IsBlanks front ∧ IsBlanks back := by
  obtain ⟨front, hfront, hall⟩ := exists_trimStart text
  obtain ⟨back, hback, hall'⟩ := exists_trimEnd (trimStart text)
  refine ⟨front, back, ?_, hall, hall'⟩
  rw [trim, ← hback, ← hfront]

/-- White space around a text is what trimming takes off. -/
theorem trim_append {front text back : Text} (hfront : IsBlanks front) (hback : IsBlanks back)
    (hne : text ≠ []) (hstarts : StartsInk text) (hends : EndsInk text) :
    trim (front ++ (text ++ back)) = text := by
  have hstarts' : StartsInk (text ++ back) := by
    intro c hc
    rw [List.head?_append_of_ne_nil _ hne] at hc
    exact hstarts c hc
  rw [trim, trimStart_append hfront hstarts', trimEnd_append hends hback]

/-! ## Pieces without white space -/

theorem trimStart_append_ink {front text : Text} (htext : StartsInk text) :
    trimStart (front ++ text) = trimStart front ++ text := by
  induction front with
  | nil =>
      have hblanks : IsBlanks [] := nofun
      exact trimStart_append hblanks htext
  | cons c front ih =>
      rw [List.cons_append, trimStart, trimStart, List.dropWhile_cons, List.dropWhile_cons]
      split
      next => exact ih
      next => rfl

theorem trimEnd_append_ink {text back : Text} (htext : EndsInk text) :
    trimEnd (text ++ back) = text ++ trimEnd back := by
  have hreverse : StartsInk text.reverse := by
    intro c hc
    rw [List.head?_reverse] at hc
    exact htext c hc
  rw [trimEnd_eq, List.reverse_append, trimStart_append_ink hreverse, List.reverse_append,
    List.reverse_reverse, trimEnd_eq]

/-- Trimming takes nothing off a piece without white space. -/
theorem Part.infix_trim {part : Part} (hne : part.piece ≠ [])
    (hink : ∀ c ∈ part.piece, isBlank c = false) : part.piece <:+: trim part.whole := by
  have hstarts : StartsInk (part.piece ++ part.after) := by
    intro c hc
    rw [List.head?_append_of_ne_nil _ hne] at hc
    exact hink c (List.mem_of_head? hc)
  have hends : EndsInk (trimStart part.before ++ part.piece) := by
    intro c hc
    rw [List.getLast?_append_of_ne_nil _ hne] at hc
    exact hink c (List.mem_of_getLast? hc)
  refine ⟨trimStart part.before, trimEnd part.after, ?_⟩
  rw [trim, whole, trimStart_append_ink hstarts, ← List.append_assoc, trimEnd_append_ink hends]

end LiteralAudit.Text
