import LiteralAudit.Detector
import LiteralAudit.Proofs.Text.Part
import Mathlib.Algebra.Group.Nat.Even
import Mathlib.Data.List.Basic

/-!
# What a rule reports

A rule reports the stretches of a line that its pattern gives, unless something speaks against
them.  Where the stretches are those of parts of the line, no offset is left over: the tests for
strings and keys read what stands before and behind a part (`touchesQuote_span`,
`insideQuotes_span`, `beforeColon_span`), the literal is its piece, and the findings of the rule
are those of the parts it keeps (`detectRule_of_parts`).
-/

namespace LiteralAudit

open Text (Part)

/-! ## What stands around a part -/

namespace Text.Part

/-- A quote stands right before the piece or right behind it. -/
def TouchesQuote (part : Part) : Prop :=
  ∃ c, isQuote c = true ∧ (part.before.getLast? = some c ∨ part.after.head? = some c)

/-- The single quotes before the piece are even in number, and so are the double quotes. -/
def OutsideQuotes (part : Part) : Prop :=
  Even (part.before.count '\'') ∧ Even (part.before.count '"')

/-- A colon follows the piece, white space aside. -/
def IsKey (part : Part) : Prop :=
  ∃ blanks rest, part.after = blanks ++ ':' :: rest ∧ ∀ c ∈ blanks, isBlank c = true

end Text.Part

theorem touchesQuote_span {part : Part} :
    touchesQuote part.whole part.span = true ↔ part.TouchesQuote := by
  rw [touchesQuote, part.splitAt?_start, part.splitAt?_stop, Bool.or_eq_true]
  show part.before.getLast?.any isQuote = true ∨ part.after.head?.any isQuote = true ↔ _
  rw [Option.any_eq_true, Option.any_eq_true]
  constructor
  · rintro (⟨c, hc, hquote⟩ | ⟨c, hc, hquote⟩)
    · exact ⟨c, hquote, Or.inl hc⟩
    · exact ⟨c, hquote, Or.inr hc⟩
  · rintro ⟨c, hquote, hc | hc⟩
    · exact Or.inl ⟨c, hc, hquote⟩
    · exact Or.inr ⟨c, hc, hquote⟩

theorem insideQuotes_span {part : Part} :
    insideQuotes part.whole part.span = true ↔ ¬part.OutsideQuotes := by
  rw [insideQuotes, QuoteCount.before, part.splitAt?_start, QuoteCount.isOpen, Bool.or_eq_true,
    decide_eq_true_iff, decide_eq_true_iff, Text.Part.OutsideQuotes, not_and_or,
    Nat.not_even_iff, Nat.not_even_iff]

theorem startsWith_trimStart_colon {text : Text} :
    Text.startsWith [':'] (Text.trimStart text) = true ↔
      ∃ blanks rest, text = blanks ++ ':' :: rest ∧ ∀ c ∈ blanks, Text.isBlank c = true := by
  rw [Text.startsWith_iff, Text.trimStart]
  constructor
  · rintro ⟨rest, hrest⟩
    refine ⟨text.takeWhile Text.isBlank, rest, ?_, fun c hc => List.mem_takeWhile_imp hc⟩
    rw [← List.singleton_append, ← hrest, List.takeWhile_append_dropWhile]
  · rintro ⟨blanks, rest, rfl, hall⟩
    refine ⟨rest, ?_⟩
    rw [List.dropWhile_append_of_pos hall]
    rfl

theorem beforeColon_span {part : Part} :
    beforeColon part.whole part.span = true ↔ part.IsKey := by
  rw [beforeColon, part.splitAt?_stop]
  exact startsWith_trimStart_colon

namespace Detector

/-! ## Findings -/

/-- The literal of a part. -/
def literalOn (rule : Rule) (part : Part) : Text := literalOf rule.literal part.piece

/-- What a rule says of a part. -/
def finding (rule : Rule) (path : Path) (number : Nat) (part : Part) : Diagnostic :=
  .onLine path number rule.category (literalOn rule part) part.whole
    (rule.render (literalOn rule part))

/-- Whether nothing speaks against a part. -/
def keeps (detector : Detector) (rule : Rule) (part : Part) : Bool :=
  !detector.isSuppressed rule part.whole part.span &&
    !(rule.checkAllowed && detector.allowed.allows rule.category (literalOn rule part))

/-- What a rule reports of a stretch of a line. -/
def reportOn? (detector : Detector) (rule : Rule) (path : Path) (line : Text) (number : Nat)
    (span : Span) : Option Diagnostic :=
  if detector.isSuppressed rule line span then none
  else
    let literal := literalOf rule.literal ((Text.slice? line span).getD [])
    if rule.checkAllowed && detector.allowed.allows rule.category literal then none
    else some (.onLine path number rule.category literal line (rule.render literal))

variable (detector : Detector) (rule : Rule) (path : Path) (line : Text) (number : Nat)

theorem report?_eq (found : Match) :
    detector.report? rule path line number found =
      (found.group? rule.group).bind (detector.reportOn? rule path line number) := rfl

/-- A part of a line is reported exactly if the rule keeps it. -/
theorem reportOn?_span (part : Part) :
    detector.reportOn? rule path part.whole number part.span =
      if detector.keeps rule part then some (finding rule path number part) else none := by
  rw [reportOn?, part.slice?_span, Option.getD_some, keeps, literalOn]
  cases detector.isSuppressed rule part.whole part.span with
  | true => rfl
  | false =>
      cases hallowed : rule.checkAllowed &&
          detector.allowed.allows rule.category (literalOf rule.literal part.piece) with
      | true => simp [hallowed]
      | false => simp [hallowed, finding, literalOn]

/-- The findings of a rule are those of the parts it keeps. -/
theorem detectRule_of_parts {parts : List Part}
    (hspans : (rule.search line).filterMap (·.group? rule.group) = parts.map Part.span)
    (hwhole : ∀ part ∈ parts, part.whole = line) :
    detector.detectRule rule path line number =
      if runsOn rule line then (parts.filter (detector.keeps rule)).map (finding rule path number)
      else [] := by
  have hreports : (rule.search line).filterMap (detector.report? rule path line number) =
      (parts.filter (detector.keeps rule)).map (finding rule path number) := by
    calc (rule.search line).filterMap (detector.report? rule path line number)
      _ = ((rule.search line).filterMap (·.group? rule.group)).filterMap
            (detector.reportOn? rule path line number) := by
          rw [List.filterMap_filterMap]
          exact List.filterMap_congr fun found _ => detector.report?_eq rule path line number found
      _ = parts.filterMap fun part => detector.reportOn? rule path line number part.span := by
          rw [hspans, List.filterMap_map]
          rfl
      _ = parts.filterMap fun part =>
            if detector.keeps rule part then some (finding rule path number part) else none := by
          refine List.filterMap_congr fun part hpart => ?_
          rw [← hwhole part hpart, reportOn?_span]
      _ = (parts.filter (detector.keeps rule)).map (finding rule path number) := by
          rw [← List.filterMap_eq_filter, List.map_filterMap]
          refine List.filterMap_congr fun part _ => ?_
          cases hkeeps : detector.keeps rule part with
          | true => simp [Option.guard, hkeeps]
          | false => simp [Option.guard, hkeeps]
  rw [detectRule, hreports]

end Detector

end LiteralAudit
