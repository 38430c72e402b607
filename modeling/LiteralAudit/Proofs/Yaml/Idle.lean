import LiteralAudit.Proofs.Text.Trim
import LiteralAudit.Proofs.Yaml.Scan
import LiteralAudit.Yaml.Reader

/-!
# Blank lines and comments

What stands before the first token.  A text is idle if that is all of it: then its lines, as YAML
breaks them, are blank lines and comments (`rest_skipFrom_of_idle`).  Only spaces make a line
blank here, and a byte order mark at its beginning does not count.

Everything else that reads lines knows fewer breaks and more white space.  What looks idle to it
is idle, or its first token begins with a tab, as long as no break and no space in the text is
foreign (`head_skipFrom_of_isIdleLine`).
-/

namespace LiteralAudit.Yaml

open Text (consLine isBlank head?_consLine tail_consLine)

/-! ## Idle lines -/

/-- The lines of a text, as YAML breaks them. -/
def lines : Text → List Text
  | [] => []
  | '\r' :: '\n' :: rest => [] :: lines rest
  | c :: rest => if isBreak c then [] :: lines rest else consLine c (lines rest)

/-- Whether there is nothing behind the spaces of a line, or a comment. -/
def isBare (line : Text) : Bool :=
  match line.dropWhile (· = ' ') with
  | [] => true
  | c :: _ => c = '#'

/-- A line without the byte order mark at its beginning. -/
def dropMark : Text → Text
  | '\ufeff' :: line => line
  | line => line

/-- A text is blank lines and comments, as YAML sees them. -/
def IsIdle (text : Text) : Prop := ∀ line ∈ lines text, isBare (dropMark line) = true

instance (text : Text) : Decidable (IsIdle text) :=
  inferInstanceAs (Decidable (∀ line ∈ lines text, isBare (dropMark line) = true))

/-- White space that is none for YAML, or a break that ends no line elsewhere. -/
def isForeignBlank (c : Char) : Bool := isBlank c && !(isGap c || c = '\n' || c = '\r')

section Lines

variable {c : Char} {rest : Text}

/-- A break ends a line, one of two characters included. -/
theorem lines_break (hbreak : isBreak c = true)
    (hpair : ∀ later, c = '\r' → rest = '\n' :: later → False) :
    lines (c :: rest) = [] :: lines rest := by
  rw [lines, if_pos hbreak]
  exact hpair

theorem lines_cons (hbreak : ¬isBreak c = true) : lines (c :: rest) = consLine c (lines rest) := by
  rw [lines, if_neg hbreak]
  rintro later rfl
  exact absurd rfl hbreak

theorem splitLines_cons_of_not_break (hbreak : ¬isBreak c = true) :
    Text.splitLines (c :: rest) = consLine c (Text.splitLines rest) := by
  refine Text.splitLines_cons ?_ ?_ rest
  · rintro rfl
    exact hbreak rfl
  · rintro rfl
    exact hbreak rfl

end Lines

theorem isBare_cons {c : Char} (hspace : c ≠ ' ') (hcomment : c ≠ '#') (line : Text) :
    isBare (c :: line) = false := by
  rw [isBare, List.dropWhile_cons_of_neg (by simpa using hspace)]
  exact decide_eq_false hcomment

theorem dropMark_cons {c : Char} (hmark : c ≠ '\ufeff') (line : Text) :
    dropMark (c :: line) = c :: line := by
  rw [dropMark.eq_def]
  split
  · next heq =>
      cases heq
      exact absurd rfl hmark
  · rfl

theorem isIdleLine_cons_blank {c : Char} (hblank : isBlank c = true) (line : Text) :
    isIdleLine (c :: line) = isIdleLine line := by
  rw [isIdleLine, Text.trim, Text.trimStart, List.dropWhile_cons_of_pos hblank]
  rfl

/-- The first character that is no white space decides: it must begin a comment. -/
theorem isIdleLine_cons_ink {c : Char} (hink : isBlank c = false) (line : Text) :
    isIdleLine (c :: line) = decide (c = '#') := by
  have hends : Text.EndsInk [c] := by
    rintro _ ⟨⟩
    exact hink
  have hneg : ¬isBlank c = true := Bool.eq_false_iff.mp hink
  rw [isIdleLine, Text.trim, Text.trimStart, List.dropWhile_cons_of_neg hneg,
    ← List.singleton_append, Text.trimEnd_append_ink hends]
  rfl

/-! ## Where the first token is -/

/-- What comes of skipping outside brackets and braces, where a line may always begin with a key.
There is one case for each thing that stands before a token, and one for the token. -/
theorem skipFrom_induction {motive : Bool → Text → Place → Cursor → Prop}
    (ended : ∀ inComment place, motive inComment [] place ⟨[], place⟩)
    (pair : ∀ inComment rest place cursor, motive false rest (place.newLine 2) cursor →
      motive inComment ('\r' :: '\n' :: rest) place cursor)
    (newLine : ∀ inComment c rest place cursor, isBreak c = true →
      (∀ later, c = '\r' → rest = '\n' :: later → False) →
      motive false rest (place.newLine c.utf8Size) cursor →
        motive inComment (c :: rest) place cursor)
    (comment : ∀ inComment c rest place cursor, ¬isBreak c = true →
      motive true rest (place.after c) cursor → motive inComment (c :: rest) place cursor)
    (gap : ∀ c rest place cursor, ¬isBreak c = true → c = ' ' ∨ c = '\ufeff' ∧ place.column = 0 →
      motive false rest (place.after c) cursor → motive false (c :: rest) place cursor)
    (token : ∀ c rest place, ¬isBreak c = true → c ≠ '#' → c ≠ ' ' →
      ¬(c = '\ufeff' ∧ place.column = 0) → motive false (c :: rest) place ⟨c :: rest, place⟩)
    (inComment : Bool) (text : Text) (place : Place) :
    (Scan.skipFrom false inComment true text place).2 = true ∧
      motive inComment text place (Scan.skipFrom false inComment true text place).1 := by
  generalize hallowed : true = keyAllowed
  fun_induction Scan.skipFrom false inComment keyAllowed text place with
  | case1 => exact ⟨rfl, ended _ _⟩
  | case2 inComment keyAllowed rest place ih =>
      subst hallowed
      exact (ih rfl).imp_right (pair _ _ _ _)
  | case3 inComment keyAllowed c rest place hpair hbreak ih =>
      subst hallowed
      exact (ih rfl).imp_right (newLine _ _ _ _ _ hbreak hpair)
  | case4 inComment keyAllowed c rest place hpair hbreak hcomment ih =>
      exact (ih hallowed).imp_right (comment _ _ _ _ _ hbreak)
  | case5 inComment keyAllowed c rest place hpair hbreak hcomment hgap ih =>
      subst hallowed
      simp only [Bool.or_eq_true, decide_eq_true_eq, not_or, Bool.not_eq_true] at hcomment
      obtain ⟨rfl, hsign⟩ := hcomment
      simp at hgap
      exact (ih rfl).imp_right (gap _ _ _ _ hbreak hgap)
  | case6 inComment keyAllowed c rest place hpair hbreak hcomment hgap =>
      subst hallowed
      simp only [Bool.or_eq_true, decide_eq_true_eq, not_or, Bool.not_eq_true] at hcomment
      obtain ⟨rfl, hsign⟩ := hcomment
      simp at hgap
      exact ⟨rfl, token _ _ _ hbreak hsign hgap.1 fun h => hgap.2 h.1 h.2⟩

theorem skipFrom_snd (inComment : Bool) (text : Text) (place : Place) :
    (Scan.skipFrom false inComment true text place).2 = true :=
  (skipFrom_induction (motive := fun _ _ _ _ => True) (fun _ _ => trivial)
    (fun _ _ _ _ _ => trivial) (fun _ _ _ _ _ _ _ _ => trivial) (fun _ _ _ _ _ _ _ => trivial)
    (fun _ _ _ _ _ _ _ => trivial) (fun _ _ _ _ _ _ _ => trivial) inComment text place).1

theorem mem_head?_consLine {c : Char} {lines : List Text} {line : Text}
    (hline : line ∈ lines.head?) : c :: line ∈ (consLine c lines).head? := by
  rw [head?_consLine, List.headD_eq_head?_getD, hline]
  rfl

theorem headD_mem_head?_consLine (c : Char) (lines : List Text) :
    c :: lines.headD [] ∈ (consLine c lines).head? := by
  rw [head?_consLine]
  rfl

/-- Idle lines have no token.  Within a comment, the line at hand does not matter; behind its
beginning there is no mark to drop. -/
theorem rest_skipFrom_of_idle (inComment : Bool) (text : Text) (place : Place)
    (hhead : inComment = false → ∀ line ∈ (lines text).head?,
      isBare line = true ∨ place.column = 0 ∧ isBare (dropMark line) = true)
    (htail : ∀ line ∈ (lines text).tail, isBare (dropMark line) = true) :
    (Scan.skipFrom false inComment true text place).1.rest = [] := by
  refine (skipFrom_induction (motive := fun inComment text place cursor =>
    (inComment = false → ∀ line ∈ (lines text).head?,
      isBare line = true ∨ place.column = 0 ∧ isBare (dropMark line) = true) →
    (∀ line ∈ (lines text).tail, isBare (dropMark line) = true) → cursor.rest = [])
    ?ended ?pair ?newLine ?comment ?gap ?token inComment text place).2 hhead htail
  case ended => exact fun _ _ _ _ => rfl
  case pair =>
    intro inComment rest place cursor ih _ htail
    rw [lines] at htail
    refine ih (fun _ line hline => ?_) fun line hline => htail line (List.mem_of_mem_tail hline)
    exact .inr ⟨rfl, htail line (List.mem_of_head? hline)⟩
  case newLine =>
    intro inComment c rest place cursor hbreak hpair ih _ htail
    rw [lines_break hbreak hpair] at htail
    refine ih (fun _ line hline => ?_) fun line hline => htail line (List.mem_of_mem_tail hline)
    exact .inr ⟨rfl, htail line (List.mem_of_head? hline)⟩
  case comment =>
    intro inComment c rest place cursor hbreak ih _ htail
    rw [lines_cons hbreak, tail_consLine] at htail
    exact ih (fun h => absurd h Bool.noConfusion) htail
  case gap =>
    intro c rest place cursor hbreak hgap ih hhead htail
    rw [lines_cons hbreak] at hhead htail
    rw [tail_consLine] at htail
    refine ih (fun _ line hline => .inl ?_) htail
    have hbare := hhead rfl (c :: line) (mem_head?_consLine hline)
    rcases hgap with rfl | ⟨rfl, -⟩
    · rcases hbare with hbare | ⟨-, hbare⟩
      · exact hbare
      · exact hbare
    · rcases hbare with hbare | ⟨-, hbare⟩
      · rw [isBare_cons (by decide) (by decide)] at hbare
        cases hbare
      · exact hbare
  case token =>
    intro c rest place hbreak hsign hspace hmark hhead _
    rw [lines_cons hbreak] at hhead
    have hnot := isBare_cons hspace hsign ((lines rest).headD [])
    rcases hhead rfl _ (headD_mem_head?_consLine c (lines rest)) with hbare | ⟨hcolumn, hbare⟩
    · rw [hnot] at hbare
      cases hbare
    · rw [dropMark_cons (fun h => hmark ⟨h, hcolumn⟩), hnot] at hbare
      cases hbare

/-- The breaks that end no line elsewhere are among the foreign white space. -/
theorem isForeignBreak_of_isForeignBlank {c : Char} (h : isForeignBlank c = false) :
    isForeignBreak c = false := by
  cases hbreak : isForeignBreak c with
  | false => rfl
  | true =>
      simp only [isForeignBreak, Bool.or_eq_true, decide_eq_true_eq, or_assoc] at hbreak
      rcases hbreak with rfl | rfl | rfl <;> cases h

/-- The only white space that is neither foreign nor skipped is a tab. -/
theorem eq_tab_of_isBlank {c : Char} (hblank : isBlank c = true) (hplain : isForeignBlank c = false)
    (hbreak : ¬isBreak c = true) (hspace : c ≠ ' ') : c = '\t' := by
  simp only [isForeignBlank, hblank, isGap, Bool.true_and, Bool.not_eq_eq_eq_not,
    Bool.not_false, Bool.or_eq_true, decide_eq_true_eq] at hplain
  rcases hplain with ((rfl | rfl) | rfl) | rfl
  · exact absurd rfl hspace
  · rfl
  · exact absurd rfl hbreak
  · exact absurd rfl hbreak

/-- Where lines look idle elsewhere, a token begins with a tab, if no white space is foreign. -/
theorem head_skipFrom_of_isIdleLine (inComment : Bool) (text : Text) (place : Place)
    (hplain : ∀ c ∈ text, isForeignBlank c = false)
    (hhead : inComment = false → ∀ line ∈ (Text.splitLines text).head?, isIdleLine line = true)
    (htail : ∀ line ∈ (Text.splitLines text).tail, isIdleLine line = true) :
    ∀ c ∈ (Scan.skipFrom false inComment true text place).1.rest.head?, c = '\t' := by
  refine (skipFrom_induction (motive := fun inComment text _ cursor =>
    (∀ c ∈ text, isForeignBlank c = false) →
    (inComment = false → ∀ line ∈ (Text.splitLines text).head?, isIdleLine line = true) →
    (∀ line ∈ (Text.splitLines text).tail, isIdleLine line = true) →
    ∀ c ∈ cursor.rest.head?, c = '\t')
    ?ended ?pair ?newLine ?comment ?gap ?token inComment text place).2 hplain hhead htail
  case ended =>
    intro _ _ _ _ _ c hc
    cases hc
  case pair =>
    intro inComment rest place cursor ih hplain _ htail
    rw [Text.splitLines_pair] at htail
    refine ih (List.forall_mem_cons.mp (List.forall_mem_cons.mp hplain).2).2
      (fun _ line hline => ?_) fun line hline => htail line (List.mem_of_mem_tail hline)
    exact htail line (List.mem_of_head? hline)
  case newLine =>
    intro inComment c rest place cursor hbreak hpair ih hplain _ htail
    obtain ⟨hc, hrest⟩ := List.forall_mem_cons.mp hplain
    rw [splitLines_break hbreak (isForeignBreak_of_isForeignBlank hc) hpair] at htail
    refine ih hrest (fun _ line hline => ?_) fun line hline =>
      htail line (List.mem_of_mem_tail hline)
    exact htail line (List.mem_of_head? hline)
  case comment =>
    intro inComment c rest place cursor hbreak ih hplain _ htail
    rw [splitLines_cons_of_not_break hbreak, tail_consLine] at htail
    exact ih (List.forall_mem_cons.mp hplain).2 (fun h => absurd h Bool.noConfusion) htail
  case gap =>
    intro c rest place cursor hbreak hgap ih hplain hhead htail
    rw [splitLines_cons_of_not_break hbreak] at hhead htail
    rw [tail_consLine] at htail
    refine ih (List.forall_mem_cons.mp hplain).2 (fun _ line hline => ?_) htail
    have hidle := hhead rfl (c :: line) (mem_head?_consLine hline)
    rcases hgap with rfl | ⟨rfl, -⟩
    · rwa [isIdleLine_cons_blank rfl] at hidle
    · rw [isIdleLine_cons_ink rfl] at hidle
      cases hidle
  case token =>
    intro c rest place hbreak hsign hspace _ hplain hhead _ first hfirst
    cases hfirst
    rw [splitLines_cons_of_not_break hbreak] at hhead
    have hidle := hhead rfl _ (headD_mem_head?_consLine c (Text.splitLines rest))
    cases hblank : isBlank c with
    | true => exact eq_tab_of_isBlank hblank (hplain c List.mem_cons_self) hbreak hspace
    | false =>
        rw [isIdleLine_cons_ink hblank] at hidle
        exact absurd (of_decide_eq_true hidle) hsign

end LiteralAudit.Yaml
