import LiteralAudit.Proofs.Pattern.Takes

/-!
# Searching misses nothing

A search tries the places of a line from left to right and goes on behind each match.  So it can
miss what begins inside an earlier match, and it can find less than it should where a match may
begin later in a run than at its first character.

`LedBy` says that neither happens: there is a test, asked of a single place of the line, that
agrees with the pattern wherever the search comes by and refuses all places inside a match.  Then
the search finds what the test finds, asked at every place (`search_eq`).

Two kinds of patterns are led by their own matches (`search_of_apart`): those whose matches begin
with a character that does not occur further inside (`search_of_first`), and those that take whole
runs of characters of a kind (`search_of_runs`).
-/

namespace LiteralAudit.Pattern

open Text (Part byteSize cuts cutsBehind maximalRuns runAt? runAt?_eq_some)

/-- A test says of a single place whether a match is reported there. -/
structure LedBy (pattern : Pattern) (test : Text × Text → Option Match) : Prop where
  /-- Nothing is found at the end of a line. -/
  atEnd : ∀ before, test (before, []) = none
  /-- At the beginning of a line the test agrees with the pattern. -/
  atStart : ∀ after, pattern.matchAt? (.between [] after) = test ([], after)
  /-- Behind a place without a match the test agrees with the pattern. -/
  onward : ∀ before c after, pattern.matchAt? (.between before (c :: after)) = none →
    pattern.matchAt? (.between (before ++ [c]) after) = test (before ++ [c], after)
  /-- A match is not empty. -/
  nonempty : ∀ before piece rest groups, pattern.Takes before piece rest groups → piece ≠ []
  /-- The test refuses the places inside a match. -/
  inside : ∀ before left right rest groups, pattern.Takes before (left ++ right) rest groups →
    left ≠ [] → right ≠ [] → test (before ++ left, right ++ rest) = none
  /-- Behind a match the test agrees with the pattern. -/
  behind : ∀ before piece rest groups, pattern.Takes before piece rest groups →
    pattern.matchAt? (.between (before ++ piece) rest) = test (before ++ piece, rest)

/-- Places inside a match are passed over. -/
theorem searchFrom_skip (pattern : Pattern) (rest : Text) :
    ∀ before start : Text,
      pattern.searchFrom (byteSize (before ++ start)) (start ++ rest)
          (.between before (start ++ rest)) =
        pattern.searchFrom (byteSize (before ++ start)) rest (.between (before ++ start) rest)
  | before, [] => by rw [List.append_nil, List.nil_append]
  | before, c :: start => by
      have hinside : (Place.between before (c :: (start ++ rest))).offset <
          byteSize (before ++ c :: start) := by
        have hpos := Text.byteSize_pos (List.cons_ne_nil c start)
        rw [Text.byteSize_append]
        show byteSize before < _
        omega
      have hsame : before ++ c :: start = before ++ [c] ++ start := by simp
      rw [List.cons_append, searchFrom, if_pos hinside, Place.advance_between, hsame,
        searchFrom_skip pattern rest (before ++ [c]) start]

/-- A search that stands at a place where the test agrees with the pattern finds what the test
finds from there on. -/
theorem searchFrom_eq {pattern : Pattern} {test : Text × Text → Option Match}
    (h : pattern.LedBy test) (before after : Text) (resume : Nat)
    (hresume : resume ≤ byteSize before)
    (hagrees : pattern.matchAt? (.between before after) = test (before, after)) :
    pattern.searchFrom resume after (.between before after) =
      (cutsBehind before after).filterMap test := by
  match after with
  | [] => simp [searchFrom, cutsBehind, h.atEnd]
  | c :: after =>
      have hnotInside : ¬(Place.between before (c :: after)).offset < resume := not_lt.mpr hresume
      have hsize : byteSize before ≤ byteSize (before ++ [c]) := by
        rw [Text.byteSize_append]
        exact Nat.le_add_right ..
      rw [searchFrom, if_neg hnotInside, cutsBehind]
      cases hfound : pattern.matchAt? (.between before (c :: after)) with
      | none =>
          have hnext := h.onward before c after hfound
          have htest : test (before, c :: after) = none := hagrees ▸ hfound
          rw [List.filterMap_cons_none htest]
          show pattern.searchFrom resume after _ = _
          rw [Place.advance_between]
          exact searchFrom_eq h (before ++ [c]) after resume (hresume.trans hsize) hnext
      | some found =>
          obtain ⟨piece, rest, groups, hafter, rfl, htakes⟩ := takes_of_matchAt? hfound
          have htest : test (before, c :: after) = some (matchOf before piece groups) :=
            hagrees ▸ hfound
          have hne := h.nonempty before piece rest groups htakes
          have hshorter : rest.length < (c :: after).length := by
            have hpos := List.length_pos_of_ne_nil hne
            rw [hafter, List.length_append]
            omega
          obtain ⟨d, tail, rfl⟩ := List.exists_cons_of_ne_nil hne
          rw [List.cons_append] at hafter
          obtain ⟨rfl, rfl⟩ := List.cons.inj hafter
          have hpiece : before ++ c :: tail = before ++ [c] ++ tail := by simp
          have hinside : ∀ left right, tail = left ++ right → right ≠ [] →
              test (before ++ [c] ++ left, right ++ rest) = none := by
            intro left right htail hright
            subst htail
            have hrefused := h.inside before (c :: left) right rest groups
              (by simpa using htakes) (List.cons_ne_nil _ _) hright
            simpa using hrefused
          rw [List.filterMap_cons_some htest, Text.filterMap_cutsBehind_append hinside]
          show matchOf before (c :: tail) groups ::
            pattern.searchFrom (byteSize (before ++ c :: tail)) (tail ++ rest) _ = _
          rw [Place.advance_between, hpiece, searchFrom_skip]
          have hbehind := h.behind before (c :: tail) rest groups htakes
          rw [hpiece] at hbehind
          rw [searchFrom_eq h (before ++ [c] ++ tail) rest _ le_rfl hbehind]
termination_by after.length
decreasing_by
  · exact Nat.lt_succ_self _
  · assumption

/-- A search finds what the test finds, asked at every place. -/
theorem search_eq {pattern : Pattern} {test : Text × Text → Option Match}
    (h : pattern.LedBy test) (line : Text) :
    pattern.search line = (cuts line).filterMap test :=
  searchFrom_eq h [] line 0 (Nat.zero_le _) (h.atStart line)

/-- If no match begins inside another one, a search finds the matches of all places. -/
theorem search_of_apart {pattern : Pattern}
    (hnonempty : ∀ before piece rest groups, pattern.Takes before piece rest groups → piece ≠ [])
    (hinside : ∀ before left right rest groups,
      pattern.Takes before (left ++ right) rest groups → left ≠ [] → right ≠ [] →
      pattern.matchAt? (.between (before ++ left) (right ++ rest)) = none) (line : Text) :
    pattern.search line =
      (cuts line).filterMap fun cut => pattern.matchAt? (.between cut.1 cut.2) := by
  have hled : pattern.LedBy fun cut => pattern.matchAt? (.between cut.1 cut.2) :=
    ⟨?_, fun _ => rfl, fun _ _ _ _ => rfl, hnonempty, hinside, fun _ _ _ _ _ => rfl⟩
  · exact search_eq hled line
  intro before
  refine matchAt?_eq_none.mpr ?_
  intro piece rest groups hafter htakes
  obtain ⟨rfl, -⟩ := List.append_eq_nil_iff.mp hafter.symm
  exact hnonempty before [] rest groups htakes rfl

/-- A character that only begins a match keeps matches apart. -/
theorem search_of_first {pattern : Pattern} {first : Char}
    (h : ∀ before piece rest groups, pattern.Takes before piece rest groups →
      ∃ tail, piece = first :: tail ∧ first ∉ tail) (line : Text) :
    pattern.search line =
      (cuts line).filterMap fun cut => pattern.matchAt? (.between cut.1 cut.2) := by
  refine search_of_apart ?_ ?_ line
  · intro before piece rest groups htakes
    obtain ⟨tail, rfl, -⟩ := h before piece rest groups htakes
    exact List.cons_ne_nil _ _
  · intro before left right rest groups htakes hleft hright
    obtain ⟨tail, hpiece, htail⟩ := h _ _ _ _ htakes
    refine matchAt?_eq_none.mpr ?_
    intro piece rest' groups' hsame htakes'
    obtain ⟨tail', rfl, -⟩ := h _ _ _ _ htakes'
    -- A match that begins inside would have the first character in the tail of this one.
    obtain ⟨c, left, rfl⟩ := List.exists_cons_of_ne_nil hleft
    obtain ⟨d, right, rfl⟩ := List.exists_cons_of_ne_nil hright
    obtain ⟨rfl, -⟩ := List.cons.inj hsame
    obtain ⟨-, rfl⟩ := List.cons.inj hpiece
    exact htail (List.mem_append_right left (List.mem_cons_self ..))

/-! ## Patterns that take whole runs -/

section Runs

variable {pattern : Pattern} {kind : Char → Bool} {shape : Text → Bool}

/-- If a pattern takes the maximal runs of a shape, its match at a place is the run that begins
there, if it has the shape. -/
theorem matchAt?_of_runs
    (h : ∀ before piece rest groups, pattern.Takes before piece rest groups ↔
      Part.IsMaximalRun kind ⟨before, piece, rest⟩ ∧ shape piece = true ∧ groups = [])
    (before after : Text) :
    pattern.matchAt? (.between before after) =
      ((runAt? kind before after).filter fun part => shape part.piece).map fun part =>
        ⟨part.span, []⟩ := by
  cases hrun : runAt? kind before after with
  | none =>
      refine matchAt?_eq_none.mpr ?_
      rintro piece rest groups rfl htakes
      obtain ⟨hmax, -, -⟩ := (h before piece rest groups).mp htakes
      have hsome := runAt?_eq_some.mpr ⟨rfl, rfl, hmax⟩
      rw [hrun] at hsome
      cases hsome
  | some part =>
      obtain ⟨rfl, rfl, hmax⟩ := runAt?_eq_some.mp hrun
      cases hshape : shape part.piece with
      | true =>
          rw [matchAt?_of_unique ((h ..).mpr ⟨hmax, hshape, rfl⟩), Option.filter_some,
            if_pos hshape]
          · rfl
          · intro piece rest groups hsame htakes
            obtain ⟨hmax', -, rfl⟩ := (h ..).mp htakes
            have hrun' := runAt?_eq_some.mpr ⟨rfl, hsame, hmax'⟩
            rw [hrun] at hrun'
            rw [Option.some.inj hrun']
            exact ⟨rfl, rfl⟩
      | false =>
          rw [Option.filter_some, if_neg (by simp [hshape])]
          refine matchAt?_eq_none.mpr ?_
          intro piece rest groups hsame htakes
          obtain ⟨hmax', hshape', -⟩ := (h ..).mp htakes
          have hrun' := runAt?_eq_some.mpr ⟨rfl, hsame, hmax'⟩
          rw [hrun] at hrun'
          rw [Option.some.inj hrun'] at hshape
          rw [hshape] at hshape'
          cases hshape'

/-- A search for maximal runs of a shape finds those of the line that have it. -/
theorem search_of_runs
    (h : ∀ before piece rest groups, pattern.Takes before piece rest groups ↔
      Part.IsMaximalRun kind ⟨before, piece, rest⟩ ∧ shape piece = true ∧ groups = [])
    (line : Text) :
    pattern.search line =
      ((maximalRuns kind line).filter fun part => shape part.piece).map fun part =>
        ⟨part.span, []⟩ := by
  rw [search_of_apart, maximalRuns]
  · simp only [matchAt?_of_runs h, List.filter_filterMap, List.map_filterMap]
  · intro before piece rest groups htakes
    exact ((h ..).mp htakes).1.nonempty
  · intro before left right rest groups htakes hleft hright
    refine matchAt?_eq_none.mpr ?_
    intro piece rest' groups' _ htakes'
    -- The character before the place belongs to the run that is being taken.
    have hlast := List.getLast?_eq_getLast_of_ne_nil hleft
    have hin := ((h ..).mp htakes).1.all (left.getLast hleft)
      (List.mem_append_left _ (List.getLast_mem hleft))
    have hout := ((h ..).mp htakes').1.before (left.getLast hleft)
      (by simp [hlast])
    rw [hin] at hout
    cases hout

end Runs

end LiteralAudit.Pattern
