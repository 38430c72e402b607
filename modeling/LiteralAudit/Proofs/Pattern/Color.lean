import LiteralAudit.Proofs.Pattern.Search
import LiteralAudit.Rule

/-!
# Colors

A color begins at every number sign with at least three hexadecimal digits behind it.  It has six
of them if six are there and three otherwise, and a number sign is no digit, so no color begins
inside another one: the search finds the colors of all places (`search_hexColor`).
-/

namespace LiteralAudit

open Text (Part Enumerates byteSize cuts isHexDigit)

/-! ## The colors of a line -/

namespace Text

/-- How many of a number of hexadecimal digits belong to a color. -/
def colorLength (available : Nat) : Nat := if 6 ≤ available then 6 else 3

/-- A number sign and as many of the hexadecimal digits behind it as belong to a color. -/
def Part.IsColor (part : Part) : Prop :=
  ∃ run rest, part.piece ++ part.after = '#' :: (run ++ rest) ∧
    (∀ c ∈ run, isHexDigit c = true) ∧ (∀ c, rest.head? = some c → isHexDigit c = false) ∧
    3 ≤ run.length ∧ part.piece = '#' :: run.take (colorLength run.length)

/-- The color that begins at a cut, if one does. -/
def colorAt? (before : Text) : Text → Option Part
  | [] => none
  | c :: text =>
      let run := text.takeWhile isHexDigit
      let length := colorLength run.length
      if c = '#' ∧ 3 ≤ run.length then
        some ⟨before, '#' :: run.take length, run.drop length ++ text.dropWhile isHexDigit⟩
      else none

theorem colorAt?_eq_some {before after : Text} {part : Part} :
    colorAt? before after = some part ↔
      part.before = before ∧ after = part.piece ++ part.after ∧ part.IsColor := by
  cases after with
  | nil =>
      constructor
      · intro h
        cases h
      · rintro ⟨-, hafter, run, rest, hpiece, -⟩
        rw [← hafter] at hpiece
        cases hpiece
  | cons c text =>
      constructor
      · intro h
        rw [colorAt?] at h
        split_ifs at h with hcolor
        obtain ⟨rfl, hlength⟩ := hcolor
        cases h
        have htext : text = text.takeWhile isHexDigit ++ text.dropWhile isHexDigit :=
          List.takeWhile_append_dropWhile.symm
        refine ⟨rfl, ?_, text.takeWhile isHexDigit, text.dropWhile isHexDigit, ?_,
          fun c hc => List.mem_takeWhile_imp hc, dropWhile_stop, hlength, rfl⟩
        · rw [List.cons_append, ← List.append_assoc, List.take_append_drop, ← htext]
        · rw [List.cons_append, ← List.append_assoc, List.take_append_drop]
      · rintro ⟨rfl, hafter, run, rest, hwhole, hall, hstop, hlength, hpiece⟩
        rw [← hafter] at hwhole
        obtain ⟨rfl, rfl⟩ := List.cons.inj hwhole
        obtain ⟨htake, hdrop⟩ := takeWhile_append_of_stop hall hstop
        have hrest : part.after = run.drop (colorLength run.length) ++ rest := by
          rw [hpiece, List.cons_append] at hafter
          have hsame := (List.cons.inj hafter).2
          nth_rewrite 1 [← List.take_append_drop (colorLength run.length) run] at hsame
          rw [List.append_assoc] at hsame
          exact (List.append_cancel_left hsame).symm
        rw [colorAt?, htake, hdrop, if_pos ⟨rfl, hlength⟩, ← hpiece, ← hrest]

/-- All colors of a text are listed by looking for one at each place. -/
theorem enumerates_colors (text : Text) :
    Enumerates text Part.IsColor ((cuts text).filterMap fun cut => colorAt? cut.1 cut.2) :=
  enumerates_cuts text fun _ _ _ => colorAt?_eq_some

end Text

open Text (colorLength colorAt?)

namespace Pattern

/-! ## What is preferred -/

/-- Of two alternatives the left one is preferred. -/
theorem matchAt?_either (left right : Pattern) (place : Place) :
    (either left right).matchAt? place = (left.matchAt? place).or (right.matchAt? place) := by
  rw [matchAt?, matchAt?, matchAt?, ends]
  cases left.ends place with
  | nil => rfl
  | cons last others => rfl

/-- A number of characters of a kind is found in a run of that many. -/
theorem matchAt?_times {accepts : Char → Bool} {run rest : Text} (n : Nat) (before : Text)
    (hall : ∀ c ∈ run, accepts c = true) (hstop : ∀ c, rest.head? = some c → accepts c = false) :
    (times accepts n).matchAt? (.between before (run ++ rest)) =
      if n ≤ run.length then some (matchOf before (run.take n) []) else none := by
  split_ifs with hlength
  · have htakes : (times accepts n).Takes before (run.take n) (run.drop n ++ rest) [] :=
      takes_times.mpr ⟨List.length_take_of_le hlength,
        fun c hc => hall c (List.mem_of_mem_take hc), rfl⟩
    have hunique := matchAt?_of_unique htakes ?_
    · rwa [← List.append_assoc, List.take_append_drop] at hunique
    · intro piece rest' groups hsame htakes'
      obtain ⟨hlength', -, rfl⟩ := takes_times.mp htakes'
      obtain ⟨hlength'', -, -⟩ := takes_times.mp htakes
      exact ⟨(List.append_inj hsame (hlength''.trans hlength'.symm)).1.symm, rfl⟩
  · refine matchAt?_eq_none.mpr ?_
    intro piece rest' groups hsame htakes
    obtain ⟨hlength', hall', -⟩ := takes_times.mp htakes
    obtain ⟨htake, -⟩ := Text.takeWhile_append_of_stop hall hstop
    rw [hsame, List.takeWhile_append_of_pos hall'] at htake
    apply hlength
    rw [← htake, List.length_append, hlength']
    exact Nat.le_add_right ..

theorem ends_exactly : ∀ text before rest : Text,
    (exactly text).ends (.between before (text ++ rest)) = [⟨.between (before ++ text) rest, []⟩]
  | [], before, rest => by simp [exactly, ends]
  | c :: text, before, rest => by
      have hone : (one (· = c)).ends (.between before (c :: (text ++ rest))) =
          [⟨.between (before ++ [c]) (text ++ rest), []⟩] := by
        rw [ends]
        show (if decide (c = c) then _ else _) = _
        rw [if_pos (decide_eq_true rfl), Place.advance_between]
      rw [List.cons_append, exactly, ends, hone, List.flatMap_singleton, ends_exactly]
      simp

/-- Behind a text that is taken as it is, a pattern matches as it does by itself. -/
theorem matchAt?_behind (second : Pattern) (before text rest : Text) :
    (inOrder [exactly text, second]).matchAt? (.between before (text ++ rest)) =
      (second.matchAt? (.between (before ++ text) rest)).map fun found =>
        ⟨⟨byteSize before, found.whole.stop⟩, found.groups⟩ := by
  have hends : (inOrder [exactly text, second]).ends (.between before (text ++ rest)) =
      second.ends (.between (before ++ text) rest) := by
    simp [inOrder, ends, ends_exactly]
  rw [matchAt?, matchAt?, hends]
  cases second.ends (.between (before ++ text) rest) with
  | nil => rfl
  | cons last others => rfl

/-! ## The pattern -/

/-- The pattern takes a sign with six or three hexadecimal digits. -/
theorem takes_hexColor {before piece rest : Text} {groups : List Span} :
    Takes .hexColor before piece rest groups ↔
      ∃ digits, piece = '#' :: digits ∧ (digits.length = 6 ∨ digits.length = 3) ∧
        (∀ c ∈ digits, isHexDigit c = true) ∧ groups = [] := by
  rw [hexColor]
  simp only [takes_inOrder_cons, takes_inOrder_nil, takes_exactly, takes_either, takes_times]
  constructor
  · rintro ⟨_, _, _, _, rfl, rfl, ⟨rfl, rfl⟩, digits, _, _, _, rfl, rfl,
      ⟨hlength, hall, rfl⟩ | ⟨hlength, hall, rfl⟩, rfl, rfl⟩
    · exact ⟨digits, by simp, Or.inl hlength, hall, rfl⟩
    · exact ⟨digits, by simp, Or.inr hlength, hall, rfl⟩
  · rintro ⟨digits, rfl, hlength, hall, rfl⟩
    refine ⟨['#'], digits, [], [], rfl, rfl, ⟨rfl, rfl⟩, digits, [], [], [], by simp, rfl, ?_,
      rfl, rfl⟩
    rcases hlength with hlength | hlength
    · exact Or.inl ⟨hlength, hall, rfl⟩
    · exact Or.inr ⟨hlength, hall, rfl⟩

/-- Six digits are preferred to three. -/
theorem matchAt?_hexColor (before after : Text) :
    hexColor.matchAt? (.between before after) =
      (colorAt? before after).map fun part => ⟨part.span, []⟩ := by
  by_cases hsign : ∃ text, after = '#' :: text
  · obtain ⟨text, rfl⟩ := hsign
    obtain ⟨run, hrun⟩ : ∃ run, run = text.takeWhile isHexDigit := ⟨_, rfl⟩
    obtain ⟨rest, hrest⟩ : ∃ rest, rest = text.dropWhile isHexDigit := ⟨_, rfl⟩
    have htext : '#' :: text = ['#'] ++ (run ++ rest) := by
      rw [hrun, hrest, List.takeWhile_append_dropWhile, List.singleton_append]
    have hall : ∀ c ∈ run, isHexDigit c = true := hrun ▸ fun c hc => List.mem_takeWhile_imp hc
    have hstop : ∀ c, rest.head? = some c → isHexDigit c = false := hrest ▸ Text.dropWhile_stop
    have hmatch : hexColor.matchAt? (.between before ('#' :: text)) =
        (if 3 ≤ run.length then
          some (matchOf (before ++ ['#']) (run.take (colorLength run.length)) [])
        else none).map fun found => ⟨⟨byteSize before, found.whole.stop⟩, found.groups⟩ := by
      rw [htext]
      refine (matchAt?_behind _ before ['#'] (run ++ rest)).trans ?_
      rw [matchAt?_either, matchAt?_times 6 _ hall hstop, matchAt?_times 3 _ hall hstop,
        colorLength]
      congr 1
      split_ifs with hsix hthree
      · rfl
      · exact absurd (le_trans (by decide) hsix) hthree
      · rfl
      · rfl
    rw [hmatch, colorAt?, ← hrun, ← hrest]
    by_cases hthree : 3 ≤ run.length
    · rw [if_pos hthree, if_pos ⟨rfl, hthree⟩]
      simp [matchOf, Part.span, Part.spanOf]
    · rw [if_neg hthree, if_neg (mt And.right hthree)]
      rfl
  · have hnone : colorAt? before after = none := by
      cases hcolor : colorAt? before after with
      | none => rfl
      | some part =>
          obtain ⟨-, hafter, run, rest, hwhole, -⟩ := Text.colorAt?_eq_some.mp hcolor
          exact absurd ⟨_, hafter.trans hwhole⟩ hsign
    rw [hnone]
    refine matchAt?_eq_none.mpr ?_
    rintro piece rest groups rfl htakes
    obtain ⟨digits, rfl, -⟩ := takes_hexColor.mp htakes
    exact hsign ⟨digits ++ rest, rfl⟩

theorem takes_hexColor_first (before piece rest : Text) (groups : List Span)
    (h : Takes .hexColor before piece rest groups) : ∃ tail, piece = '#' :: tail ∧ '#' ∉ tail := by
  obtain ⟨digits, rfl, -, hall, -⟩ := takes_hexColor.mp h
  exact ⟨digits, rfl, fun hmem => absurd (hall '#' hmem) (by decide)⟩

/-- A search for colors finds those that begin at the number signs of the line. -/
theorem search_hexColor (line : Text) :
    hexColor.search line = ((cuts line).filterMap fun cut => colorAt? cut.1 cut.2).map fun part =>
      ⟨part.span, []⟩ := by
  rw [search_of_first takes_hexColor_first, List.map_filterMap]
  simp only [matchAt?_hexColor]

end Pattern

end LiteralAudit
