import LiteralAudit.Proofs.Detector.Report
import LiteralAudit.Proofs.Pattern.Search
import LiteralAudit.Proofs.Pattern.Word

/-!
# What the detector of older values finds

Two kinds of words are looked for, and both are whole words.  So the search is no more than a
division of the line into words: the runs of word characters that cannot be made longer.  Among
them the detector reports those that once were booleans and then those that once were octal
numbers, unless they are quoted or keys (`detect_legacyYaml`).
-/

namespace LiteralAudit

open Text (Part Enumerates isWord isOctalDigit fold maximalRuns)

/-! ## The words -/

namespace Text

/-- The words that once were booleans. -/
def formerBooleans : List Text := ["yes", "no", "on", "off", "true", "false"]

/-- A text is, without regard to case, a word that once was a boolean. -/
def isFormerBoolean (piece : Text) : Bool := formerBooleans.contains (piece.map fold)

/-- A text is a zero with octal digits behind it. -/
def isFormerOctal : Text → Bool
  | [] => false
  | c :: digits => c = '0' && !digits.isEmpty && digits.all isOctalDigit

theorem isFormerBoolean_iff {piece : Text} :
    isFormerBoolean piece = true ↔ piece.map fold ∈ formerBooleans := List.contains_iff_mem

/-- A former octal number is a zero with octal digits behind it. -/
theorem isFormerOctal_iff {piece : Text} :
    isFormerOctal piece = true ↔
      ∃ digits, piece = '0' :: digits ∧ digits ≠ [] ∧ ∀ c ∈ digits, isOctalDigit c = true := by
  cases piece with
  | nil => simp [isFormerOctal]
  | cons c digits => simp [isFormerOctal, and_assoc]

theorem formerBooleans_small :
    ∀ word ∈ formerBooleans, word ≠ [] ∧ ∀ c ∈ word, 'a' ≤ c ∧ c ≤ 'z' := by
  have hall : (formerBooleans.all fun word =>
      !word.isEmpty && word.all fun c => 'a' ≤ c && c ≤ 'z') = true := by decide
  intro word hword
  have hsmall := List.all_eq_true.mp hall word hword
  simpa using hsmall

/-- A former boolean is a word, also where letters beyond ASCII fold to its own. -/
theorem isWord_of_isFormerBoolean {piece : Text} (h : isFormerBoolean piece = true) :
    piece ≠ [] ∧ ∀ c ∈ piece, isWord c = true := by
  obtain ⟨hne, hsmall⟩ := formerBooleans_small _ (isFormerBoolean_iff.mp h)
  refine ⟨mt List.map_eq_nil_iff.mpr hne, ?_⟩
  intro c hc
  exact isWord_of_fold (hsmall _ (List.mem_map_of_mem hc))

theorem isWord_of_isFormerOctal {piece : Text} (h : isFormerOctal piece = true) :
    piece ≠ [] ∧ ∀ c ∈ piece, isWord c = true := by
  obtain ⟨digits, rfl, -, hall⟩ := isFormerOctal_iff.mp h
  refine ⟨List.cons_ne_nil _ _, List.forall_mem_cons.mpr ⟨?_, ?_⟩⟩
  · exact isWord_of_isOctalDigit rfl
  · exact fun c hc => isWord_of_isOctalDigit (hall c hc)

end Text

open Text (isFormerBoolean isFormerOctal isFormerBoolean_iff isFormerOctal_iff)

/-! ## The patterns -/

namespace Pattern

/-- One of several words is taken in either case. -/
theorem takes_anyWord {words : List Text} {last before piece rest : Text} {groups : List Span} :
    Takes (firstOf (words.map anyCase) (anyCase last)) before piece rest groups ↔
      piece.map fold ∈ words ++ [last] ∧ groups = [] := by
  rw [takes_firstOf, List.mem_append, List.mem_singleton]
  constructor
  · rintro (⟨_, hpattern, htakes⟩ | htakes)
    · obtain ⟨word, hmem, rfl⟩ := List.mem_map.mp hpattern
      obtain ⟨rfl, rfl⟩ := takes_anyCase.mp htakes
      exact ⟨Or.inl hmem, rfl⟩
    · obtain ⟨rfl, rfl⟩ := takes_anyCase.mp htakes
      exact ⟨Or.inr rfl, rfl⟩
  · rintro ⟨hmem | hlast, rfl⟩
    · exact Or.inl ⟨_, List.mem_map_of_mem hmem, takes_anyCase.mpr ⟨rfl, rfl⟩⟩
    · exact Or.inr (takes_anyCase.mpr ⟨hlast, rfl⟩)

/-- The pattern for booleans takes exactly the whole words that are former booleans. -/
theorem takes_booleanWord (before piece rest : Text) (groups : List Span) :
    Takes .booleanWord before piece rest groups ↔
      Part.IsMaximalRun isWord ⟨before, piece, rest⟩ ∧ isFormerBoolean piece = true ∧
        groups = [] := by
  refine takes_wholeWord
    [firstOf (["yes", "no", "on", "off", "true"].map anyCase) (anyCase "false")] ?_
    (fun _ => Text.isWord_of_isFormerBoolean) before piece rest groups
  intro before piece rest groups
  rw [takes_inOrder_cons, isFormerBoolean_iff]
  constructor
  · rintro ⟨left, right, more, fewer, rfl, rfl, hword, hend⟩
    obtain ⟨rfl, rfl⟩ := takes_inOrder_nil.mp hend
    obtain ⟨hmem, rfl⟩ := takes_anyWord.mp hword
    rw [List.append_nil]
    exact ⟨hmem, rfl⟩
  · rintro ⟨hmem, rfl⟩
    exact ⟨piece, [], [], [], by simp, rfl, takes_anyWord.mpr ⟨hmem, rfl⟩,
      takes_inOrder_nil.mpr ⟨rfl, rfl⟩⟩

/-- The pattern for octal numbers takes exactly the whole words that are such numbers. -/
theorem takes_octalNumber (before piece rest : Text) (groups : List Span) :
    Takes .octalNumber before piece rest groups ↔
      Part.IsMaximalRun isWord ⟨before, piece, rest⟩ ∧ isFormerOctal piece = true ∧
        groups = [] := by
  refine takes_wholeWord [exactly "0", atLeastOne isOctalDigit] ?_
    (fun _ => Text.isWord_of_isFormerOctal) before piece rest groups
  intro before piece rest groups
  rw [isFormerOctal_iff]
  simp only [takes_inOrder_cons, takes_inOrder_nil, takes_exactly, takes_atLeastOne]
  constructor
  · rintro ⟨_, _, _, _, rfl, rfl, ⟨rfl, rfl⟩, digits, _, _, _, rfl, rfl, ⟨hne, hall, rfl⟩, rfl,
      rfl⟩
    exact ⟨⟨digits, by simp, hne, hall⟩, rfl⟩
  · rintro ⟨⟨digits, rfl, hne, hall⟩, rfl⟩
    exact ⟨['0'], digits, [], [], rfl, rfl, ⟨rfl, rfl⟩, digits, [], [], [], by simp, rfl,
      ⟨hne, hall, rfl⟩, rfl, rfl⟩

end Pattern

/-! ## The findings -/

namespace Text.Part

/-- A whole word that once was a boolean and is neither quoted nor a key. -/
structure IsBareBoolean (part : Part) : Prop where
  /-- The piece is a whole word. -/
  word : part.IsMaximalRun isWord
  /-- Without regard to case it is one of the six. -/
  boolean : part.piece.map fold ∈ formerBooleans
  /-- No quote is next to it. -/
  apart : ¬part.TouchesQuote
  /-- It is not inside a string. -/
  outside : part.OutsideQuotes
  /-- It is not a key. -/
  notKey : ¬part.IsKey

/-- A whole word that once was an octal number and is neither inside a string nor a key. -/
structure IsBareOctal (part : Part) : Prop where
  /-- The piece is a whole word. -/
  word : part.IsMaximalRun isWord
  /-- It is a zero with octal digits behind it. -/
  octal : ∃ digits, part.piece = '0' :: digits ∧ digits ≠ [] ∧
    ∀ c ∈ digits, isOctalDigit c = true
  /-- It is not inside a string. -/
  outside : part.OutsideQuotes
  /-- It is not a key. -/
  notKey : ¬part.IsKey

end Text.Part

namespace Detector

variable (detector : Detector) (path : Path) (line : Text) (number : Nat)

/-- A rule for whole words goes through the words of the line. -/
theorem detectRule_of_words (rule : Rule) {pattern : Pattern} {shape : Text → Bool}
    (hgate : rule.gate = none) (hwhole : (rule.search, rule.group) = (pattern.search, 0))
    (htakes : ∀ before piece rest groups, pattern.Takes before piece rest groups ↔
      Part.IsMaximalRun isWord ⟨before, piece, rest⟩ ∧ shape piece = true ∧ groups = []) :
    ∃ parts, Enumerates line (fun part => (part.IsMaximalRun isWord ∧ shape part.piece = true) ∧
        detector.keeps rule part = true) parts ∧
      detector.detectRule rule path line number = parts.map (finding rule path number) := by
  obtain ⟨hsearch, hgroup⟩ := Prod.mk.inj hwhole
  have hwords := (Text.enumerates_maximalRuns isWord line).filter fun part => shape part.piece
  refine ⟨_, hwords.filter (detector.keeps rule), ?_⟩
  have hspans : (rule.search line).filterMap (·.group? rule.group) =
      ((maximalRuns isWord line).filter fun part => shape part.piece).map Part.span := by
    rw [hsearch, Pattern.search_of_runs htakes, hgroup, List.filterMap_map]
    show List.filterMap (fun part : Part => some part.span) _ = _
    rw [List.filterMap_eq_map']
  have hline := fun part hpart => ((hwords.mem part).mp hpart).1
  rw [detector.detectRule_of_parts rule path line number hspans hline, runsOn, hgate]
  rfl

/-- A former boolean is reported if it stands outside strings, without a quote beside it and not as
a key. -/
theorem keeps_bareBoolean {part : Part} :
    legacyYaml.keeps .bareBoolean part = true ↔
      ¬part.TouchesQuote ∧ part.OutsideQuotes ∧ ¬part.IsKey := by
  rw [← touchesQuote_span, ← beforeColon_span, ← not_not (a := part.OutsideQuotes),
    ← insideQuotes_span]
  show (!(touchesQuote part.whole part.span || insideQuotes part.whole part.span ||
    beforeColon part.whole part.span) && true) = true ↔ _
  simp [and_assoc]

/-- A former octal number is reported if it stands outside strings and not as a key. -/
theorem keeps_unprefixedOctal {part : Part} :
    legacyYaml.keeps .unprefixedOctal part = true ↔ part.OutsideQuotes ∧ ¬part.IsKey := by
  rw [← beforeColon_span, ← not_not (a := part.OutsideQuotes), ← insideQuotes_span]
  show (!(false || insideQuotes part.whole part.span ||
    beforeColon part.whole part.span) && true) = true ↔ _
  simp

/-- The detector of older values reports, from left to right, the words that once were booleans
and are neither quoted nor keys, and then, again from left to right, those that once were octal
numbers and are neither inside a string nor keys.  What it finds is the word itself. -/
theorem detect_legacyYaml :
    ∃ booleans octals : List Part,
      Enumerates line Part.IsBareBoolean booleans ∧ Enumerates line Part.IsBareOctal octals ∧
      legacyYaml.detect path line number =
        (booleans.map fun part => .onLine path number .legacyPattern part.piece line
          (Rule.bareBoolean.render part.piece)) ++
        octals.map fun part => .onLine path number .legacyPattern part.piece line
          (Rule.unprefixedOctal.render part.piece) := by
  obtain ⟨booleans, hbooleans, hfirst⟩ := legacyYaml.detectRule_of_words path line number
    .bareBoolean rfl rfl Pattern.takes_booleanWord
  obtain ⟨octals, hoctals, hsecond⟩ := legacyYaml.detectRule_of_words path line number
    .unprefixedOctal rfl rfl Pattern.takes_octalNumber
  refine ⟨booleans, octals, hbooleans.congr ?_, hoctals.congr ?_, ?_⟩
  · intro part
    rw [keeps_bareBoolean, isFormerBoolean_iff]
    constructor
    · rintro ⟨⟨hword, hboolean⟩, hapart, houtside, hnotKey⟩
      exact ⟨hword, hboolean, hapart, houtside, hnotKey⟩
    · rintro ⟨hword, hboolean, hapart, houtside, hnotKey⟩
      exact ⟨⟨hword, hboolean⟩, hapart, houtside, hnotKey⟩
  · intro part
    rw [keeps_unprefixedOctal, isFormerOctal_iff]
    constructor
    · rintro ⟨⟨hword, hoctal⟩, houtside, hnotKey⟩
      exact ⟨hword, hoctal, houtside, hnotKey⟩
    · rintro ⟨hword, hoctal, houtside, hnotKey⟩
      exact ⟨⟨hword, hoctal⟩, houtside, hnotKey⟩
  · have hbooleanLine : ∀ part ∈ booleans, part.whole = line :=
      fun part hpart => ((hbooleans.mem part).mp hpart).1
    have hoctalLine : ∀ part ∈ octals, part.whole = line :=
      fun part hpart => ((hoctals.mem part).mp hpart).1
    show [Rule.bareBoolean, Rule.unprefixedOctal].flatMap _ = _
    rw [List.flatMap_cons, List.flatMap_singleton, hfirst, hsecond]
    congr 1
    · exact List.map_congr_left fun part hpart => by rw [← hbooleanLine part hpart]; rfl
    · exact List.map_congr_left fun part hpart => by rw [← hoctalLine part hpart]; rfl

end Detector

end LiteralAudit
