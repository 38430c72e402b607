import LiteralAudit.Proofs.Pattern.Takes
import LiteralAudit.Rule

/-!
# Stretches within a line

A stretch is within a line if it is not empty and the line can be cut at both its ends.  These are
the stretches of the pieces of the line (`Span.isWithin_iff`).

What a search finds is a piece of the line, and so are the groups of what it finds, since offsets
come from what stands before a place.  They may still be empty.  Two tests on the form of a pattern
rule that out, `takesSomething` for the match as a whole and `remembersSomething` for its groups.
If a pattern passes both, its matches and their groups are within the line (`isWithin_of_group?`).
-/

namespace LiteralAudit

open Text (Part byteSize)

/-! ## Stretches of pieces -/

/-- A text can be cut at an offset: there are characters up to it and characters from it on. -/
def Text.IsBoundary (text : Text) (offset : Nat) : Prop :=
  ∃ before after, text = before ++ after ∧ byteSize before = offset

/-- A stretch is within a line. -/
structure Span.IsWithin (line : Text) (span : Span) : Prop where
  /-- It is not empty. -/
  nonempty : span.start < span.stop
  /-- It stops where the line does, or before. -/
  fits : span.stop ≤ byteSize line
  /-- It starts between characters. -/
  starts : line.IsBoundary span.start
  /-- It stops between characters. -/
  stops : line.IsBoundary span.stop

/-- A part of a line that is not empty covers a stretch within it. -/
theorem Text.Part.isWithin_span {part : Part} (hne : part.piece ≠ []) :
    part.span.IsWithin part.whole := by
  have hwhole : part.whole = part.before ++ part.piece ++ part.after := by simp [Part.whole]
  have hstop : part.span.stop = byteSize part.before + byteSize part.piece :=
    Text.byteSize_append ..
  constructor
  case nonempty =>
    have hpos := Text.byteSize_pos hne
    rw [hstop]
    show byteSize part.before < _
    omega
  case fits =>
    rw [hstop, hwhole, Text.byteSize_append, Text.byteSize_append]
    exact Nat.le_add_right ..
  case starts => exact ⟨part.before, _, rfl, rfl⟩
  case stops => exact ⟨_, part.after, hwhole, rfl⟩

/-- The stretches within a line are those of its pieces. -/
theorem Span.isWithin_iff {line : Text} {span : Span} :
    span.IsWithin line ↔ ∃ part : Part, part.whole = line ∧ part.piece ≠ [] ∧ part.span = span := by
  constructor
  · rintro ⟨hnonempty, -, ⟨before, after, hline, hstart⟩, upTo, rest, hline', hstop⟩
    rcases List.append_eq_append_iff.mp (hline.symm.trans hline') with
      ⟨piece, rfl, -⟩ | ⟨more, rfl, -⟩
    · refine ⟨⟨before, piece, rest⟩, ?_, ?_, ?_⟩
      · rw [hline', Part.whole, List.append_assoc]
      · rintro rfl
        rw [List.append_nil] at hstop
        omega
      · rw [Part.span, Part.spanOf, hstart, hstop]
    · -- The stretch would stop before it starts.
      rw [Text.byteSize_append] at hstart
      omega
  · rintro ⟨part, rfl, hne, rfl⟩
    exact part.isWithin_span hne

namespace Pattern

variable {pattern : Pattern} {before piece rest : Text} {groups : List Span}

/-! ## Empty matches and groups -/

/-- The form of a pattern shows that it takes a character at least. -/
def takesSomething : Pattern → Bool
  | .empty | .wordEdge | .run _ | .maybe _ => false
  | .one _ => true
  | .seq first second => first.takesSomething || second.takesSomething
  | .either left right => left.takesSomething && right.takesSomething
  | .group inner => inner.takesSomething

/-- The form of a pattern shows that each of its groups takes a character at least. -/
def remembersSomething : Pattern → Bool
  | .empty | .wordEdge | .one _ | .run _ => true
  | .maybe inner => inner.remembersSomething
  | .seq first second => first.remembersSomething && second.remembersSomething
  | .either left right => left.remembersSomething && right.remembersSomething
  | .group inner => inner.takesSomething && inner.remembersSomething

/-- Neither the matches of a pattern nor their groups are empty. -/
structure Filled (pattern : Pattern) : Prop where
  /-- The matches are not. -/
  takes : pattern.takesSomething = true
  /-- The groups are not. -/
  remembers : pattern.remembersSomething = true

/-- A pattern whose form says so never takes the empty text. -/
theorem ne_nil_of_takes (htakes : Takes pattern before piece rest groups)
    (h : pattern.takesSomething = true) : piece ≠ [] := by
  induction htakes with
  | empty => cases h
  | wordEdge => cases h
  | one => exact List.cons_ne_nil _ _
  | run => cases h
  | maybe => cases h
  | none => cases h
  | seq _ _ ihleft ihright =>
      rw [takesSomething, Bool.or_eq_true] at h
      rcases h with h | h
      · exact List.append_ne_nil_of_left_ne_nil (ihleft h) _
      · exact List.append_ne_nil_of_right_ne_nil _ (ihright h)
  | left _ ih =>
      rw [takesSomething, Bool.and_eq_true] at h
      exact ih h.1
  | right _ ih =>
      rw [takesSomething, Bool.and_eq_true] at h
      exact ih h.2
  | group _ ih => exact ih h

/-! ## Stretches of matches and groups -/

/-- What is remembered while a piece is taken is within the line. -/
theorem isWithin_of_takes (htakes : Takes pattern before piece rest groups)
    (h : pattern.remembersSomething = true) :
    ∀ span ∈ groups, span.IsWithin (before ++ (piece ++ rest)) := by
  induction htakes with
  | empty => exact nofun
  | wordEdge => exact nofun
  | one => exact nofun
  | run => exact nofun
  | maybe _ ih => exact ih h
  | none => exact nofun
  | seq _ _ ihleft ihright =>
      rw [remembersSomething, Bool.and_eq_true] at h
      intro span hspan
      -- Both patterns look at the same line, cut in different places.
      rcases List.mem_append.mp hspan with hspan | hspan
      · simpa using ihleft h.1 span hspan
      · simpa using ihright h.2 span hspan
  | left _ ih =>
      rw [remembersSomething, Bool.and_eq_true] at h
      exact ih h.1
  | right _ ih =>
      rw [remembersSomething, Bool.and_eq_true] at h
      exact ih h.2
  | @group _ before piece rest _ htakes ih =>
      rw [remembersSomething, Bool.and_eq_true] at h
      let part : Part := ⟨before, piece, rest⟩
      exact List.forall_mem_cons.mpr ⟨part.isWithin_span (ne_nil_of_takes htakes h.1), ih h.2⟩

/-- What is found from a place on is taken there or further right. -/
theorem takes_of_mem_searchFrom {found : Match} : ∀ {before after : Text} {resume : Nat},
    found ∈ pattern.searchFrom resume after (.between before after) →
      ∃ (part : Part) (groups : List Span), part.whole = before ++ after ∧
        found = matchOf part.before part.piece groups ∧
        Takes pattern part.before part.piece part.after groups
  | before, [], resume, hfound => by
      rw [searchFrom] at hfound
      cases hfound
  | before, c :: after, resume, hfound => by
      have hlater : ∀ {resume : Nat},
          found ∈ pattern.searchFrom resume after (.between (before ++ [c]) after) →
            ∃ (part : Part) (groups : List Span), part.whole = before ++ c :: after ∧
              found = matchOf part.before part.piece groups ∧
              Takes pattern part.before part.piece part.after groups := by
        intro resume hfound
        simpa using takes_of_mem_searchFrom hfound
      simp only [searchFrom, Place.advance_between] at hfound
      split at hfound
      next => exact hlater hfound
      next =>
        split at hfound
        next first hfirst =>
          rcases List.mem_cons.mp hfound with rfl | hfound
          · obtain ⟨piece, rest, groups, hafter, hmatch, htakes⟩ := takes_of_matchAt? hfirst
            exact ⟨⟨before, piece, rest⟩, groups, congrArg (before ++ ·) hafter.symm, hmatch,
              htakes⟩
          · exact hlater hfound
        next => exact hlater hfound

/-- The matches of a search and their groups are within the line. -/
theorem isWithin_of_group? (hfilled : pattern.Filled) {line : Text} {found : Match} {number : Nat}
    {span : Span} (hfound : found ∈ pattern.search line) (hspan : found.group? number = some span) :
    span.IsWithin line := by
  have hfrom : found ∈ pattern.searchFrom 0 line (.between [] line) := hfound
  obtain ⟨part, groups, hwhole, rfl, htakes⟩ := takes_of_mem_searchFrom hfrom
  rw [List.nil_append] at hwhole
  rw [← hwhole]
  cases number with
  | zero =>
      cases hspan
      exact part.isWithin_span (ne_nil_of_takes htakes hfilled.takes)
  | succ number =>
      exact isWithin_of_takes htakes hfilled.remembers span (List.mem_of_getElem? hspan)

end Pattern

/-! ## The patterns of the rules -/

/-- A rule looks for what one of the built-in rules looks for.  All else about it may differ. -/
def Rule.HasBuiltInPattern (rule : Rule) : Prop :=
  ∃ builtIn ∈ Rule.legacyYaml ++ Rule.designTokens, rule.search = builtIn.search

/-- Each built-in search is that of a pattern with groups that are not empty. -/
theorem Rule.HasBuiltInPattern.exists_filled {rule : Rule} (h : rule.HasBuiltInPattern) :
    ∃ pattern : Pattern, pattern.Filled ∧ rule.search = pattern.search := by
  obtain ⟨builtIn, hbuiltIn, hsearch⟩ := h
  rw [hsearch]
  simp only [legacyYaml, designTokens, List.cons_append, List.nil_append, List.mem_cons,
    List.not_mem_nil, or_false] at hbuiltIn
  rcases hbuiltIn with rfl | rfl | rfl | rfl | rfl
  · exact ⟨.booleanWord, ⟨by decide, by decide⟩, rfl⟩
  · exact ⟨.octalNumber, ⟨by decide, by decide⟩, rfl⟩
  · exact ⟨.hexColor, ⟨by decide, by decide⟩, rfl⟩
  · exact ⟨.pixelCount, ⟨by decide, by decide⟩, rfl⟩
  · exact ⟨.radiusInPixels, ⟨by decide, by decide⟩, rfl⟩

end LiteralAudit
