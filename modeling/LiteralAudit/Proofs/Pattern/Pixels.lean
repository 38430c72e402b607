import LiteralAudit.Proofs.Pattern.Search
import LiteralAudit.Rule

/-!
# Numbers of pixels

A number of pixels is a run of digits with the unit behind it.  A match may begin inside a run,
but the search comes by at the first digit before it comes by further inside, and what would
match inside would match there as well.  So it finds the whole runs that have the unit behind
them (`search_pixelCount`).
-/

namespace LiteralAudit

open Text (Part Enumerates byteSize cuts isDigit maximalRuns runAt? runAt?_eq_some)

namespace Text

/-- The unit follows the piece. -/
def Part.InPixels (part : Part) : Prop := ∃ rest, part.after = 'p' :: 'x' :: rest

/-- Whether the unit follows a part. -/
def Part.inPixels (part : Part) : Bool := startsWith "px" part.after

/-- The unit ends a run of digits. -/
theorem unit_stop (rest : Text) : ∀ c, ('p' :: rest).head? = some c → isDigit c = false := by
  rintro c hc
  cases hc
  rfl

theorem Part.inPixels_iff {part : Part} : part.inPixels = true ↔ part.InPixels := startsWith_iff

end Text

namespace Pattern

/-- The pattern takes digits with the unit right behind them, and the digits are its group. -/
theorem takes_pixelCount {before piece rest : Text} {groups : List Span} :
    Takes .pixelCount before piece rest groups ↔
      ∃ digits, piece = digits ++ ['p', 'x'] ∧ digits ≠ [] ∧ (∀ c ∈ digits, isDigit c = true) ∧
        groups = [Part.spanOf before digits] := by
  rw [pixelCount]
  simp only [takes_inOrder_cons, takes_inOrder_nil, takes_group, takes_atLeastOne, takes_exactly]
  constructor
  · rintro ⟨digits, _, _, _, rfl, rfl, ⟨_, rfl, hne, hall, rfl⟩, _, _, _, _, rfl, rfl, ⟨rfl, rfl⟩,
      rfl, rfl⟩
    exact ⟨digits, rfl, hne, hall, rfl⟩
  · rintro ⟨digits, rfl, hne, hall, rfl⟩
    exact ⟨digits, ['p', 'x'], [], [Part.spanOf before digits], rfl, rfl,
      ⟨[], rfl, hne, hall, rfl⟩, ['p', 'x'], [], [], [], rfl, rfl, ⟨rfl, rfl⟩, rfl, rfl⟩

theorem matchAt?_pixelCount {before digits rest : Text} (hne : digits ≠ [])
    (hall : ∀ c ∈ digits, isDigit c = true) :
    pixelCount.matchAt? (.between before (digits ++ 'p' :: 'x' :: rest)) =
      some (matchOf before (digits ++ ['p', 'x']) [Part.spanOf before digits]) := by
  have hwhole : digits ++ 'p' :: 'x' :: rest = digits ++ ['p', 'x'] ++ rest := by simp
  rw [hwhole]
  refine matchAt?_of_unique (takes_pixelCount.mpr ⟨digits, rfl, hne, hall, rfl⟩) ?_
  rintro piece' rest' groups' hsame htakes
  obtain ⟨digits', rfl, -, hall', rfl⟩ := takes_pixelCount.mp htakes
  have hrun : digits ++ 'p' :: 'x' :: rest = digits' ++ 'p' :: 'x' :: rest' := by simpa using hsame
  obtain ⟨rfl, -⟩ := Text.run_unique hall (Text.unit_stop _) hall' (Text.unit_stop _) hrun
  exact ⟨rfl, rfl⟩

/-- The number of pixels that begins at a cut, unless the cut is inside a run of digits. -/
def pixelsAt? (cut : Text × Text) : Option Match :=
  ((runAt? isDigit cut.1 cut.2).filter Part.inPixels).map fun part =>
    matchOf part.before (part.piece ++ ['p', 'x']) [part.span]

/-- Where no digit precedes, what begins is a whole run with the unit or nothing. -/
theorem matchAt?_eq_pixelsAt? {before after : Text}
    (hbefore : ∀ c, before.getLast? = some c → isDigit c = false) :
    pixelCount.matchAt? (.between before after) = pixelsAt? (before, after) := by
  have hmaximal : ∀ {digits rest}, digits ≠ [] → (∀ c ∈ digits, isDigit c = true) →
      Part.IsMaximalRun isDigit ⟨before, digits, 'p' :: 'x' :: rest⟩ := by
    intro digits rest hne hall
    exact ⟨hne, hall, hbefore, Text.unit_stop _⟩
  rw [pixelsAt?]
  cases hrun : runAt? isDigit before after with
  | none =>
      refine matchAt?_eq_none.mpr ?_
      rintro piece rest groups rfl htakes
      obtain ⟨digits, rfl, hne, hall, -⟩ := takes_pixelCount.mp htakes
      have hsome := runAt?_eq_some.mpr
        ⟨rfl, List.append_assoc digits ['p', 'x'] rest, hmaximal hne hall⟩
      rw [hrun] at hsome
      cases hsome
  | some part =>
      obtain ⟨rfl, rfl, hmax⟩ := runAt?_eq_some.mp hrun
      cases hunit : part.inPixels with
      | true =>
          obtain ⟨rest, hrest⟩ := Part.inPixels_iff.mp hunit
          rw [hrest, matchAt?_pixelCount hmax.nonempty hmax.all, Option.filter_some, if_pos hunit]
          rfl
      | false =>
          rw [Option.filter_some, if_neg (by simp [hunit])]
          refine matchAt?_eq_none.mpr ?_
          intro piece rest groups hsame htakes
          obtain ⟨digits, rfl, hne, hall, -⟩ := takes_pixelCount.mp htakes
          have hrun' := runAt?_eq_some.mpr
            ⟨rfl, hsame.trans (List.append_assoc digits ['p', 'x'] rest), hmaximal hne hall⟩
          rw [hrun] at hrun'
          rw [Option.some.inj hrun'] at hunit
          cases hunit

/-- The search for numbers of pixels finds a match exactly where such a number begins. -/
theorem ledBy_pixelsAt? : pixelCount.LedBy pixelsAt? where
  atEnd := by
    intro before
    rw [pixelsAt?, Text.runAt?_outside (by simp)]
    rfl
  atStart := fun _ => matchAt?_eq_pixelsAt? (by simp)
  onward := by
    intro before c after hnone
    have hlast : (before ++ [c]).getLast? = some c := by simp
    cases hc : isDigit c with
    | true =>
        rw [pixelsAt?, Text.runAt?_inside hlast hc]
        refine matchAt?_eq_none.mpr ?_
        rintro piece rest groups rfl htakes
        -- The match would have been found one character earlier.
        obtain ⟨digits, rfl, -, hall, -⟩ := takes_pixelCount.mp htakes
        have hearlier : pixelCount.Takes before (c :: (digits ++ ['p', 'x'])) rest _ :=
          takes_pixelCount.mpr ⟨c :: digits, rfl, List.cons_ne_nil _ _,
            List.forall_mem_cons.mpr ⟨hc, hall⟩, rfl⟩
        exact absurd hearlier (matchAt?_eq_none.mp hnone _ _ _ rfl)
    | false =>
        refine matchAt?_eq_pixelsAt? ?_
        intro d hd
        rw [hlast] at hd
        cases hd
        exact hc
  nonempty := by
    intro before piece rest groups htakes
    obtain ⟨digits, rfl, -⟩ := takes_pixelCount.mp htakes
    simp
  inside := by
    intro before left right rest groups htakes hleft hright
    obtain ⟨digits, hpiece, -, hall, -⟩ := takes_pixelCount.mp htakes
    have hin : ∀ more, digits = left ++ more → runAt? isDigit (before ++ left) (right ++ rest) =
        none := by
      rintro more rfl
      refine Text.runAt?_inside ?_ (hall _ (List.mem_append_left _ (List.getLast_mem hleft)))
      rw [List.getLast?_append, List.getLast?_eq_getLast_of_ne_nil hleft, Option.some_or]
    have hnone : runAt? isDigit (before ++ left) (right ++ rest) = none := by
      rcases List.append_eq_append_iff.mp hpiece with ⟨more, hdigits, -⟩ | ⟨more, rfl, hunit⟩
      · exact hin more hdigits
      · match more, right, hunit with
        | [], _, _ => exact hin [] (by simp)
        | [_], [_], hunit =>
            cases hunit
            refine Text.runAt?_outside ?_
            rintro c hc
            cases hc
            rfl
        | [_, _], [], _ => exact absurd rfl hright
    rw [pixelsAt?, hnone]
    rfl
  behind := by
    intro before piece rest groups htakes
    obtain ⟨digits, rfl, -⟩ := takes_pixelCount.mp htakes
    refine matchAt?_eq_pixelsAt? ?_
    intro c hc
    have hx : 'x' = c := by simpa using hc
    subst hx
    rfl

/-- A search for numbers of pixels finds the runs of digits with the unit behind them. -/
theorem search_pixelCount (line : Text) :
    pixelCount.search line = ((maximalRuns isDigit line).filter Part.inPixels).map fun part =>
      matchOf part.before (part.piece ++ ['p', 'x']) [part.span] := by
  rw [search_eq ledBy_pixelsAt?, maximalRuns, List.filter_filterMap, List.map_filterMap]
  rfl

end Pattern

end LiteralAudit
