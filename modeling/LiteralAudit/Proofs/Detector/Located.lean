import LiteralAudit.Proofs.Detector.LegacyYaml
import LiteralAudit.Proofs.Detector.Pixels
import LiteralAudit.Proofs.Detector.Sanctioned

/-!
# Findings on a line

A finding quotes its line without the white space at its ends, and what was found stands in the
quotation (`isOn_of_mem_designTokens`, `isOn_of_mem_legacyYaml`).  Colors, numbers and words have
no white space in them, so trimming leaves them whole.  A number of pixels is reported without its
leading zeros; what is left of it is the end of what stands on the line.
-/

namespace LiteralAudit

open Text (Part Enumerates IsNumeral isBlank isDigit isHexDigit isWord)

/-! ## Word characters are no white space -/

namespace Text

theorem inRanges_apart {as bs : List (Nat × Nat)} {n : Nat}
    (hapart : ∀ a ∈ as, ∀ b ∈ bs, a.2 < b.1 ∨ b.2 < a.1) (h : inRanges as n = true) :
    inRanges bs n = false := by
  obtain ⟨a, ha, hin⟩ := List.any_eq_true.mp h
  rw [inRanges, List.any_eq_false]
  intro b hb
  have hab := hapart a ha b hb
  simp only [Bool.and_eq_true, decide_eq_true_eq] at hin ⊢
  omega

/-- No character of a word is white space.  The two tables of characters lie apart. -/
theorem isBlank_of_isWord {c : Char} (h : isWord c = true) : isBlank c = false := by
  rw [isWord] at h
  split at h
  next =>
    simp only [isLetter, isDigit, Bool.or_eq_true, Bool.and_eq_true, decide_eq_true_eq, Char.le_def,
      UInt32.le_iff_toNat_le] at h
    have hrange : 48 ≤ c.toNat ∧ c.toNat ≤ 122 := by
      rcases h with ((⟨h, h'⟩ | ⟨h, h'⟩) | ⟨h, h'⟩) | rfl
      · exact ⟨le_trans (by decide) h, le_trans h' (by decide)⟩
      · exact ⟨le_trans (by decide) h, le_trans h' (by decide)⟩
      · exact ⟨le_trans (by decide) h, le_trans h' (by decide)⟩
      · decide
    simp [isBlank, inRanges, blankRanges]
    omega
  next =>
    have hapart : ∀ a ∈ wordRanges, ∀ b ∈ blankRanges, a.2 < b.1 ∨ b.2 < a.1 := by
      decide +kernel
    exact inRanges_apart hapart h

end Text

/-! ## Findings that quote a line -/

/-- A finding is on a line: it has the number of the line, quotes it without white space at its
ends, and has found a piece of the quotation. -/
structure Diagnostic.IsOn (path : Path) (line : Text) (number : Nat) (found : Diagnostic) :
    Prop where
  /-- It is in the file. -/
  inFile : found.path = path
  /-- It has the number of the line. -/
  numbered : found.line = number
  /-- It quotes the line. -/
  quotes : found.sourceLine = Text.trim line
  /-- What was found is in the quotation. -/
  holds : found.literal <:+: found.sourceLine

theorem Diagnostic.isOn_onLine {path : Path} {line literal message : Text} {number : Nat}
    {category : Category} (hliteral : literal <:+: Text.trim line) :
    (Diagnostic.onLine path number category literal line message).IsOn path line number :=
  ⟨rfl, rfl, rfl, hliteral⟩

namespace Detector

variable {path : Path} {line : Text} {number : Nat} {found : Diagnostic}

/-! ## Design tokens -/

/-- A color is not touched when its line is trimmed. -/
theorem infix_trim_color {part : Part} (hcolor : part.IsColor) :
    part.piece <:+: Text.trim part.whole := by
  obtain ⟨run, rest, -, hall, -, -, hpiece⟩ := hcolor
  refine part.infix_trim ?_ ?_
  · rw [hpiece]
    exact List.cons_ne_nil _ _
  · intro c hc
    rw [hpiece] at hc
    rcases List.mem_cons.mp hc with rfl | hc
    · rfl
    · exact Text.isBlank_of_isHexDigit (hall c (List.mem_of_mem_take hc))

/-- The literal for a number of pixels stands on the trimmed line. -/
theorem infix_trim_pixels {part : Part} (hnumeral : IsNumeral part.piece)
    (hpixels : part.InPixels) : literalOf .pixels part.piece <:+: Text.trim part.whole := by
  obtain ⟨rest, hrest⟩ := hpixels
  let measure : Part := ⟨part.before, part.piece ++ ['p', 'x'], rest⟩
  have hwhole : measure.whole = part.whole := by
    rw [Part.whole, Part.whole, hrest]
    simp [measure]
  have hmeasure : part.piece ++ ['p', 'x'] <:+: Text.trim part.whole := by
    rw [← hwhole]
    refine measure.infix_trim (by simp [measure]) ?_
    intro c hc
    rcases List.mem_append.mp hc with hc | hc
    · exact Text.isBlank_of_isDigit (hnumeral.all c hc)
    · rcases List.mem_pair.mp hc with rfl | rfl <;> rfl
  rw [literalOf_pixels hnumeral, pixelLiteral]
  split
  next =>
    obtain ⟨zeros, hzeros⟩ := Text.ofNat_value_suffix hnumeral
    refine List.IsInfix.trans (List.IsSuffix.isInfix ⟨zeros, ?_⟩) hmeasure
    rw [← List.append_assoc, hzeros]
    rfl
  next => exact hmeasure

theorem isOn_of_mem_unsanctioned {allowed : AllowedValues} {rule : Rule} {pieces : List Text}
    (hpieces : ∀ piece ∈ pieces, literalOf rule.literal piece <:+: Text.trim line)
    (hmem : found ∈ unsanctioned allowed rule path line number pieces) :
    found.IsOn path line number := by
  obtain ⟨literal, hliteral, rfl⟩ := List.mem_map.mp hmem
  obtain ⟨piece, hpiece, rfl⟩ := List.mem_map.mp (List.mem_of_mem_filter hliteral)
  exact Diagnostic.isOn_onLine (hpieces piece hpiece)

/-- What is reported of a style sheet stands on its line. -/
theorem isOn_of_mem_designTokens {allowed : AllowedValues}
    (hmem : found ∈ (designTokens allowed).detect path line number) :
    found.IsOn path line number := by
  obtain ⟨colors, spacing, radii, hcolors, hspacing, hnames, hradii, hfindings⟩ :=
    detect_values allowed path line number
  rw [hfindings, List.mem_append, List.mem_append] at hmem
  rcases hmem with hmem | hmem | hmem
  · refine isOn_of_mem_unsanctioned ?_ hmem
    rw [List.forall_mem_map]
    intro part hpart
    obtain ⟨rfl, hcolor⟩ := (hcolors.mem part).mp hpart
    exact infix_trim_color hcolor
  · refine isOn_of_mem_unsanctioned ?_ hmem
    rw [List.forall_mem_map]
    intro part hpart
    obtain ⟨rfl, -, hrun, hpixels⟩ := (hspacing.mem part).mp hpart
    exact infix_trim_pixels ⟨hrun.nonempty, hrun.all⟩ hpixels
  · refine isOn_of_mem_unsanctioned ?_ hmem
    rw [List.forall_mem_map]
    intro radius hmem
    have hassigns := hradii radius hmem
    obtain ⟨hwhole, -⟩ := (hnames.mem radius.1).mp (List.mem_map_of_mem hmem)
    rw [← hwhole, ← hassigns.whole]
    exact infix_trim_pixels hassigns.numeral hassigns.unit

/-! ## Older values -/

theorem infix_trim_word {part : Part} (hword : part.IsMaximalRun isWord) :
    part.piece <:+: Text.trim part.whole :=
  part.infix_trim hword.nonempty fun c hc => Text.isBlank_of_isWord (hword.all c hc)

/-- What is reported of a YAML text stands on its line. -/
theorem isOn_of_mem_legacyYaml (hmem : found ∈ legacyYaml.detect path line number) :
    found.IsOn path line number := by
  obtain ⟨booleans, octals, hbooleans, hoctals, hfindings⟩ := detect_legacyYaml path line number
  rw [hfindings, List.mem_append] at hmem
  rcases hmem with hmem | hmem
  · obtain ⟨part, hpart, rfl⟩ := List.mem_map.mp hmem
    obtain ⟨rfl, hboolean⟩ := (hbooleans.mem part).mp hpart
    exact Diagnostic.isOn_onLine (infix_trim_word hboolean.word)
  · obtain ⟨part, hpart, rfl⟩ := List.mem_map.mp hmem
    obtain ⟨rfl, hoctal⟩ := (hoctals.mem part).mp hpart
    exact Diagnostic.isOn_onLine (infix_trim_word hoctal.word)

end Detector

end LiteralAudit
