import LiteralAudit.Proofs.Text.Line

/-!
# Breaks

A break is a line feed, a carriage return, or the two together.  The lines of a text are told by its
breaks: a line is a run of other characters that a break or the end of the text ends, and there is
no line behind a break that the text ends with (`Lines`).  Each text has its lines in one way only,
and `splitLines` gives them (`splitLines_eq_iff`).

So there is a line for each break, and perhaps one more (`length_splitLines`), and it does not
matter which breaks there are (`splitLines_feedBreaks`).  Text behind a line feed adds its own lines
to those before it (`splitLines_append`).

Proofs go through a text from one break or other character to the next (`break_induction`).
-/

namespace LiteralAudit.Text

/-- There is no break in a line. -/
def IsUnbroken (line : Text) : Prop := '\n' ∉ line ∧ '\r' ∉ line

/-- A break between lines. -/
inductive IsBreak : Text → Prop
  /-- A line feed. -/
  | feed : IsBreak ['\n']
  /-- A carriage return and a line feed. -/
  | pair : IsBreak ['\r', '\n']
  /-- A carriage return. -/
  | lone : IsBreak ['\r']

/-- The lines of a text. -/
inductive Lines : Text → List Text → Prop
  /-- The empty text has none. -/
  | none : Lines [] []
  /-- A line that the text ends with. -/
  | last {line : Text} : line ≠ [] → IsUnbroken line → Lines line [line]
  /-- A line that a break ends.  A line feed behind a carriage return belongs to the same break. -/
  | ended {line gap rest : Text} {lines : List Text} : IsUnbroken line → IsBreak gap →
      (gap = ['\r'] → rest.head? ≠ some '\n') → Lines rest lines →
      Lines (line ++ gap ++ rest) (line :: lines)

/-- The text with a line feed in the place of each break. -/
def feedBreaks : Text → Text
  | [] => []
  | '\r' :: '\n' :: text => '\n' :: feedBreaks text
  | '\r' :: text => '\n' :: feedBreaks text
  | c :: text => c :: feedBreaks text

/-- How many breaks a text has. -/
def breakCount (text : Text) : Nat := (feedBreaks text).count '\n'

/-- Whether a text ends inside a line: it is not empty, and its last character is of no break. -/
def endsInLine (text : Text) : Bool := text.getLast?.any fun c => c ≠ '\n' && c ≠ '\r'

/-! ## From break to break -/

/-- A text is gone through character by character, but for a carriage return and the line feed
behind it. -/
theorem break_induction {motive : Text → Prop} (nil : motive [])
    (feed : ∀ text, motive text → motive ('\n' :: text))
    (pair : ∀ text, motive text → motive ('\r' :: '\n' :: text))
    (lone : ∀ text, text.head? ≠ some '\n' → motive text → motive ('\r' :: text))
    (other : ∀ c text, c ≠ '\n' → c ≠ '\r' → motive text → motive (c :: text)) :
    ∀ text, motive text
  | [] => nil
  | c :: text => by
      have ih := break_induction nil feed pair lone other text
      by_cases hfeed : c = '\n'
      · subst hfeed
        exact feed text ih
      by_cases hreturn : c = '\r'
      · subst hreturn
        match text with
        | '\n' :: text => exact pair text (break_induction nil feed pair lone other text)
        | [] => exact lone [] nofun ih
        | d :: text =>
          by_cases hd : d = '\n'
          · subst hd
            exact pair text (break_induction nil feed pair lone other text)
          · exact lone (d :: text) (fun h => hd (Option.some.inj h)) ih
      · exact other c text hfeed hreturn ih

theorem feedBreaks_pair (text : Text) :
    feedBreaks ('\r' :: '\n' :: text) = '\n' :: feedBreaks text := rfl

theorem feedBreaks_lone {text : Text} (h : text.head? ≠ some '\n') :
    feedBreaks ('\r' :: text) = '\n' :: feedBreaks text := by
  cases text with
  | nil => rfl
  | cons c text =>
      rw [feedBreaks]
      intro rest hrest
      cases hrest
      exact h rfl

theorem feedBreaks_other {c : Char} (hreturn : c ≠ '\r') (text : Text) :
    feedBreaks (c :: text) = c :: feedBreaks text := by
  rw [feedBreaks]
  · exact fun _ h => absurd h hreturn
  · exact hreturn

/-! ## The lines of a text -/

theorem Lines.cons {c : Char} {text : Text} {lines : List Text} (h : Lines text lines)
    (hfeed : c ≠ '\n') (hreturn : c ≠ '\r') : Lines (c :: text) (consLine c lines) := by
  have hline : ∀ line, IsUnbroken line → IsUnbroken (c :: line) := by
    rintro line ⟨hline, hline'⟩
    exact ⟨List.not_mem_cons_of_ne_of_not_mem hfeed.symm hline,
      List.not_mem_cons_of_ne_of_not_mem hreturn.symm hline'⟩
  cases h with
  | none => exact .last (List.cons_ne_nil _ _) (hline [] ⟨List.not_mem_nil, List.not_mem_nil⟩)
  | last _ hunbroken => exact .last (List.cons_ne_nil _ _) (hline _ hunbroken)
  | ended hunbroken hgap hpair hrest => exact .ended (hline _ hunbroken) hgap hpair hrest

/-- Splitting gives lines of the text. -/
theorem lines_splitLines (text : Text) : Lines text (splitLines text) := by
  have hnil : IsUnbroken [] := ⟨List.not_mem_nil, List.not_mem_nil⟩
  induction text using break_induction with
  | nil => exact .none
  | feed text ih =>
      rw [splitLines_feed]
      exact .ended hnil .feed nofun ih
  | pair text ih =>
      rw [splitLines_pair]
      exact .ended hnil .pair nofun ih
  | lone text hhead ih =>
      rw [splitLines_return hhead]
      exact .ended hnil .lone (fun _ => hhead) ih
  | other c text hfeed hreturn ih =>
      rw [splitLines_cons hfeed hreturn]
      exact ih.cons hfeed hreturn

/-- What is unbroken goes to the front of the first line. -/
theorem splitLines_unbroken_append {line text first : Text} {lines : List Text}
    (hline : IsUnbroken line) (h : splitLines text = first :: lines) :
    splitLines (line ++ text) = (line ++ first) :: lines := by
  induction line with
  | nil => exact h
  | cons c line ih =>
      obtain ⟨hfeed, hreturn⟩ := hline
      rw [List.mem_cons, not_or] at hfeed hreturn
      rw [List.cons_append, splitLines_cons (Ne.symm hfeed.1) (Ne.symm hreturn.1),
        ih ⟨hfeed.2, hreturn.2⟩]
      rfl

theorem splitLines_unbroken {line : Text} (hne : line ≠ []) (hline : IsUnbroken line) :
    splitLines line = [line] := by
  obtain ⟨c, line, rfl⟩ := List.exists_cons_of_ne_nil hne
  induction line generalizing c with
  | nil =>
      obtain ⟨hfeed, hreturn⟩ := hline
      rw [List.mem_singleton] at hfeed hreturn
      exact splitLines_cons (Ne.symm hfeed) (Ne.symm hreturn) []
  | cons d line ih =>
      have hrest : splitLines (d :: line) = [d :: line] := by
        refine ih d (List.cons_ne_nil _ _) ?_
        exact ⟨fun h => hline.1 (.tail _ h), fun h => hline.2 (.tail _ h)⟩
      have hfirst : IsUnbroken [c] := by
        refine ⟨fun h => hline.1 ?_, fun h => hline.2 ?_⟩
        · exact List.mem_singleton.mp h ▸ .head _
        · exact List.mem_singleton.mp h ▸ .head _
      exact splitLines_unbroken_append hfirst hrest

/-- A text has no other lines than those. -/
theorem splitLines_of_lines {text : Text} {lines : List Text} (h : Lines text lines) :
    splitLines text = lines := by
  induction h with
  | none => rfl
  | last hne hunbroken => exact splitLines_unbroken hne hunbroken
  | @ended line gap rest lines hunbroken hgap hpair _ ih =>
      have hlines : splitLines (gap ++ rest) = [] :: lines := by
        cases hgap with
        | feed => exact (splitLines_feed rest).trans (congrArg _ ih)
        | pair => exact (splitLines_pair rest).trans (congrArg _ ih)
        | lone => exact (splitLines_return (hpair rfl)).trans (congrArg _ ih)
      rw [List.append_assoc, splitLines_unbroken_append hunbroken hlines, List.append_nil]

theorem splitLines_eq_iff {text : Text} {lines : List Text} :
    splitLines text = lines ↔ Lines text lines := by
  constructor
  · rintro rfl
    exact lines_splitLines text
  · exact splitLines_of_lines

/-- No line has a break in it. -/
theorem Lines.isUnbroken {text : Text} {lines : List Text} (h : Lines text lines) :
    ∀ line ∈ lines, IsUnbroken line := by
  induction h with
  | none => exact nofun
  | last _ hunbroken => exact List.forall_mem_singleton.mpr hunbroken
  | ended hunbroken _ _ _ ih => exact List.forall_mem_cons.mpr ⟨hunbroken, ih⟩

/-! ## Counting breaks -/

theorem endsInLine_cons (c : Char) {text : Text} (h : text ≠ []) :
    endsInLine (c :: text) = endsInLine text := by
  obtain ⟨d, text, rfl⟩ := List.exists_cons_of_ne_nil h
  rw [endsInLine, List.getLast?_cons_cons, endsInLine]

theorem endsInLine_break {c : Char} (hbreak : c = '\n' ∨ c = '\r') (text : Text) :
    endsInLine (c :: text) = endsInLine text := by
  cases text with
  | nil => rcases hbreak with rfl | rfl <;> rfl
  | cons d text => exact endsInLine_cons c (List.cons_ne_nil d text)

theorem length_consLine (c : Char) {lines : List Text} (h : lines ≠ []) :
    (consLine c lines).length = lines.length := by
  obtain ⟨line, lines, rfl⟩ := List.exists_cons_of_ne_nil h
  rfl

theorem breakCount_of_feed {text rest : Text} (h : feedBreaks text = '\n' :: feedBreaks rest) :
    breakCount text = breakCount rest + 1 := by
  rw [breakCount, h, List.count_cons_self, breakCount]

theorem breakCount_other {c : Char} (hfeed : c ≠ '\n') (hreturn : c ≠ '\r') (text : Text) :
    breakCount (c :: text) = breakCount text := by
  rw [breakCount, feedBreaks_other hreturn, List.count_cons_of_ne hfeed, breakCount]

/-- There is a line for each break, and one more if the text ends inside it. -/
theorem length_splitLines (text : Text) :
    (splitLines text).length = breakCount text + (endsInLine text).toNat := by
  induction text using break_induction with
  | nil => rfl
  | feed text ih =>
      rw [splitLines_feed, List.length_cons, ih, endsInLine_break (.inl rfl),
        breakCount_of_feed (feedBreaks_other (by decide) text)]
      omega
  | pair text ih =>
      rw [splitLines_pair, List.length_cons, ih, endsInLine_cons _ (List.cons_ne_nil _ _),
        endsInLine_break (.inl rfl), breakCount_of_feed (feedBreaks_pair text)]
      omega
  | lone text hhead ih =>
      rw [splitLines_return hhead, List.length_cons, ih, endsInLine_break (.inr rfl),
        breakCount_of_feed (feedBreaks_lone hhead)]
      omega
  | other c text hfeed hreturn ih =>
      rw [splitLines_cons hfeed hreturn, breakCount_other hfeed hreturn]
      cases text with
      | nil =>
          have hopen : endsInLine [c] = true := by simp [endsInLine, hfeed, hreturn]
          rw [hopen]
          rfl
      | cons d text =>
          have hlines : splitLines (d :: text) ≠ [] := fun h =>
            List.cons_ne_nil _ _ (eq_nil_of_splitLines h)
          rw [length_consLine c hlines, ih, endsInLine_cons c (List.cons_ne_nil _ _)]

example : breakCount "\r\r\n\n\r" = 4 ∧ splitLines "\r\r\n\n\r" = [[], [], [], []] := by decide

/-! ## Other breaks -/

/-- It makes no difference to the lines which breaks are used. -/
theorem splitLines_feedBreaks (text : Text) : splitLines (feedBreaks text) = splitLines text := by
  induction text using break_induction with
  | nil => rfl
  | feed text ih => rw [feedBreaks_other (by decide), splitLines_feed, splitLines_feed, ih]
  | pair text ih => rw [feedBreaks_pair, splitLines_feed, splitLines_pair, ih]
  | lone text hhead ih => rw [feedBreaks_lone hhead, splitLines_feed, splitLines_return hhead, ih]
  | other c text hfeed hreturn ih =>
      rw [feedBreaks_other hreturn, splitLines_cons hfeed hreturn, splitLines_cons hfeed hreturn,
        ih]

/-! ## Text behind a break -/

theorem consLine_append (c : Char) {lines : List Text} (h : lines ≠ []) (more : List Text) :
    consLine c lines ++ more = consLine c (lines ++ more) := by
  obtain ⟨line, lines, rfl⟩ := List.exists_cons_of_ne_nil h
  rfl

/-- What stands behind a line feed adds its lines to those before. -/
theorem splitLines_append (front back : Text) :
    splitLines (front ++ '\n' :: back) = splitLines (front ++ ['\n']) ++ splitLines back := by
  induction front using break_induction with
  | nil => exact splitLines_feed back
  | feed front ih =>
      rw [List.cons_append, List.cons_append, splitLines_feed, splitLines_feed, ih,
        List.cons_append]
  | pair front ih =>
      simp only [List.cons_append]
      rw [splitLines_pair, splitLines_pair, ih, List.cons_append]
  | lone front hhead ih =>
      cases front with
      -- The carriage return at the end and the line feed are one break.
      | nil => exact splitLines_pair back
      | cons c front =>
          have hlone : ∀ back, splitLines ('\r' :: (c :: front ++ back)) =
              [] :: splitLines (c :: front ++ back) := fun back => splitLines_return hhead
          exact (hlone _).trans ((congrArg _ ih).trans (congrArg (· ++ _) (hlone _).symm))
  | other c front hfeed hreturn ih =>
      have hne : splitLines (front ++ ['\n']) ≠ [] := fun h =>
        List.append_ne_nil_of_right_ne_nil _ (List.cons_ne_nil _ _) (eq_nil_of_splitLines h)
      rw [List.cons_append, List.cons_append, splitLines_cons hfeed hreturn,
        splitLines_cons hfeed hreturn, ih, consLine_append c hne]

end LiteralAudit.Text
