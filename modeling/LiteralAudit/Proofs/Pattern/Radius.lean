import LiteralAudit.Proofs.Pattern.Pixels
import LiteralAudit.Proofs.Text.Digits

/-!
# Border radii

A border radius is the name of the property, a colon with white space around it, perhaps a quote,
and a number of pixels.  Where the name begins, all of this is determined: each stretch ends where
a character comes that cannot belong to it (`Assigns.unique`).  No name begins inside a radius, so
the search finds the radii of all names of the line (`search_radiusInPixels`).
-/

namespace LiteralAudit

open Text (Part Enumerates cuts isBlank isDigit)

/-! ## Names and digits -/

namespace Text

/-- The spellings of the name of the property. -/
def radiusNames : List Text := ["border-radius", "borderRadius"]

/-- A colon with white space around it and perhaps a quote behind. -/
def IsAssignment (text : Text) : Prop :=
  ∃ blanks gap quote, text = blanks ++ (':' :: (gap ++ quote)) ∧
    (∀ c ∈ blanks, isBlank c = true) ∧ (∀ c ∈ gap, isBlank c = true) ∧
    quote.length ≤ 1 ∧ ∀ c ∈ quote, isQuote c = true

/-- A part is the name of the property, and another one the digits that it is given. -/
structure Part.Assigns (name digits : Part) : Prop where
  /-- The first part is the name. -/
  isName : name.piece ∈ radiusNames
  /-- Between the two there is an assignment. -/
  assignment : ∃ between, IsAssignment between ∧
    digits.before = name.before ++ name.piece ++ between ∧
    name.after = between ++ (digits.piece ++ digits.after)
  /-- The second part consists of digits. -/
  numeral : IsNumeral digits.piece
  /-- The unit follows them. -/
  unit : digits.InPixels

theorem Part.Assigns.whole {name digits : Part} (h : name.Assigns digits) :
    digits.whole = name.whole := by
  obtain ⟨between, -, hbefore, hafter⟩ := h.assignment
  rw [Part.whole, Part.whole, hbefore, hafter]
  simp

/-! ## What ends a stretch -/

theorem isQuote_iff {c : Char} : isQuote c = true ↔ c = '\'' ∨ c = '"' := by
  simp [isQuote]

theorem isQuote_of_isDigit {c : Char} (h : isDigit c = true) : isQuote c = false := by
  cases hquote : isQuote c with
  | false => rfl
  | true => rcases isQuote_iff.mp hquote with rfl | rfl <;> cases h

theorem isBlank_of_isQuote {c : Char} (h : isQuote c = true) : isBlank c = false := by
  rcases isQuote_iff.mp h with rfl | rfl <;> rfl

/-- No name of the property is the beginning of another one. -/
theorem radiusNames_unique {name name' rest rest' : Text} (h : name ∈ radiusNames)
    (h' : name' ∈ radiusNames) (hsame : name ++ rest = name' ++ rest') :
    name = name' ∧ rest = rest' := by
  simp only [radiusNames, List.mem_cons, List.not_mem_nil, or_false] at h h'
  rcases h with rfl | rfl
  · rcases h' with rfl | rfl
    · exact ⟨rfl, List.append_cancel_left hsame⟩
    · simp at hsame
  · rcases h' with rfl | rfl
    · simp at hsame
    · exact ⟨rfl, List.append_cancel_left hsame⟩

/-- An assignment ends where the digits begin. -/
theorem IsAssignment.unique {between between' digits digits' : Text} (h : IsAssignment between)
    (h' : IsAssignment between') (hdigits : ∀ c, digits.head? = some c → isDigit c = true)
    (hdigits' : ∀ c, digits'.head? = some c → isDigit c = true)
    (hsame : between ++ digits = between' ++ digits') : between = between' ∧ digits = digits' := by
  obtain ⟨blanks, gap, quote, rfl, hblanks, hgap, -, hquote⟩ := h
  obtain ⟨blanks', gap', quote', rfl, hblanks', hgap', -, hquote'⟩ := h'
  have hcolon : ∀ (text : Text) c, (':' :: text).head? = some c → isBlank c = false := by
    rintro text c hc
    cases hc
    rfl
  have hnotBlank : ∀ {quote digits : Text}, (∀ c ∈ quote, isQuote c = true) →
      (∀ c, digits.head? = some c → isDigit c = true) →
      ∀ c, (quote ++ digits).head? = some c → isBlank c = false := by
    intro quote digits hquote hdigits c hc
    cases quote with
    | nil => exact isBlank_of_isDigit (hdigits c hc)
    | cons d quote =>
        cases hc
        exact isBlank_of_isQuote (hquote c (List.mem_cons_self ..))
  have hnotQuote : ∀ {digits : Text}, (∀ c, digits.head? = some c → isDigit c = true) →
      ∀ c, digits.head? = some c → isQuote c = false :=
    fun hdigits c hc => isQuote_of_isDigit (hdigits c hc)
  simp only [List.append_assoc, List.cons_append] at hsame
  obtain ⟨rfl, hbehind⟩ := run_unique hblanks (hcolon _) hblanks' (hcolon _) hsame
  obtain ⟨rfl, hvalue⟩ := run_unique hgap (hnotBlank hquote hdigits) hgap'
    (hnotBlank hquote' hdigits') (List.cons.inj hbehind).2
  obtain ⟨rfl, hnumber⟩ := run_unique hquote (hnotQuote hdigits) hquote' (hnotQuote hdigits') hvalue
  exact ⟨rfl, hnumber⟩

/-- The digits that the property is given are determined by where its name is. -/
theorem Part.Assigns.unique {name name' digits digits' : Part} (h : name.Assigns digits)
    (h' : name'.Assigns digits') (hbefore : name.before = name'.before)
    (hwhole : name.whole = name'.whole) : name = name' ∧ digits = digits' := by
  obtain ⟨between, hbetween, hfront, hafter⟩ := h.assignment
  obtain ⟨between', hbetween', hfront', hafter'⟩ := h'.assignment
  obtain ⟨before, piece, after⟩ := name
  obtain ⟨before', piece', after'⟩ := name'
  obtain ⟨front, number, rest⟩ := digits
  obtain ⟨front', number', rest'⟩ := digits'
  simp only at hbefore hfront hfront' hafter hafter'
  subst hbefore hfront hfront' hafter hafter'
  obtain ⟨rfl, hbehind⟩ := radiusNames_unique h.isName h'.isName (List.append_cancel_left hwhole)
  obtain ⟨rfl, hnumber⟩ := hbetween.unique hbetween' (h.numeral.isDigit_head rest)
    (h'.numeral.isDigit_head rest') hbehind
  obtain ⟨unit, hunit⟩ := h.unit
  obtain ⟨unit', hunit'⟩ := h'.unit
  simp only at hunit hunit'
  subst hunit hunit'
  obtain ⟨rfl, hrest⟩ := run_unique h.numeral.all (unit_stop _) h'.numeral.all (unit_stop _) hnumber
  rw [hrest]
  exact ⟨rfl, rfl⟩

/-- Leaving out some of the names together with their digits. -/
theorem Enumerates.filter_radii {text : Text} {radii : List (Part × Part)}
    (hnames : Enumerates text (fun name => ∃ digits, name.Assigns digits) (radii.map Prod.fst))
    (hradii : ∀ radius ∈ radii, radius.1.Assigns radius.2) (test : Part × Part → Bool) :
    Enumerates text (fun name => ∃ digits, name.Assigns digits ∧ test (name, digits) = true)
      ((radii.filter test).map Prod.fst) := by
  refine ⟨?_, hnames.ordered.sublist (List.filter_sublist.map Prod.fst)⟩
  intro name
  constructor
  · intro hmem
    obtain ⟨⟨name, digits⟩, hradius, rfl⟩ := List.mem_map.mp hmem
    obtain ⟨hradius, htest⟩ := List.mem_filter.mp hradius
    obtain ⟨hwhole, -⟩ := (hnames.mem name).mp (List.mem_map_of_mem hradius)
    exact ⟨hwhole, digits, hradii _ hradius, htest⟩
  · rintro ⟨hwhole, digits, hassigns, htest⟩
    obtain ⟨⟨name, digits'⟩, hradius, rfl⟩ :=
      List.mem_map.mp ((hnames.mem name).mpr ⟨hwhole, digits, hassigns⟩)
    obtain ⟨-, rfl⟩ := hassigns.unique (hradii _ hradius) rfl rfl
    exact List.mem_map_of_mem (List.mem_filter.mpr ⟨hradius, htest⟩)

end Text

namespace Pattern

open Text (radiusNames IsAssignment)

/-! ## The pattern -/

/-- The pieces of the pattern between the name and the number. -/
def assignment : List Pattern := [.run isBlank, exactly ":", .run isBlank, .maybe (.one isQuote)]

theorem takes_assignment {before piece rest : Text} {groups : List Span} :
    Takes (inOrder assignment) before piece rest groups ↔ IsAssignment piece ∧ groups = [] := by
  simp only [assignment, takes_inOrder_cons, takes_inOrder_nil, takes_exactly, takes_run,
    takes_maybe, takes_one]
  constructor
  · rintro ⟨blanks, _, _, _, rfl, rfl, ⟨hblanks, rfl⟩, _, _, _, _, rfl, rfl, ⟨rfl, rfl⟩,
      gap, _, _, _, rfl, rfl, ⟨hgap, rfl⟩, quote, _, _, _, rfl, rfl, hquote, rfl, rfl⟩
    rcases hquote with ⟨c, rfl, hc, rfl⟩ | ⟨rfl, rfl⟩
    · exact ⟨⟨blanks, gap, [c], by simp, hblanks, hgap, le_rfl, by simpa using hc⟩, rfl⟩
    · exact ⟨⟨blanks, gap, [], by simp, hblanks, hgap, Nat.zero_le _, by simp⟩, rfl⟩
  · rintro ⟨⟨blanks, gap, quote, rfl, hblanks, hgap, hlength, hquote⟩, rfl⟩
    refine ⟨blanks, ':' :: (gap ++ quote), [], [], rfl, rfl, ⟨hblanks, rfl⟩, [':'], gap ++ quote,
      [], [], rfl, rfl, ⟨rfl, rfl⟩, gap, quote, [], [], rfl, rfl, ⟨hgap, rfl⟩, quote, [], [], [],
      by simp, rfl, ?_, rfl, rfl⟩
    match quote, hlength, hquote with
    | [], _, _ => exact Or.inr ⟨rfl, rfl⟩
    | [c], _, hquote => exact Or.inl ⟨c, rfl, hquote c (List.mem_cons_self ..), rfl⟩

/-- The pattern takes a name of the property, an assignment, and a number of pixels. -/
theorem takes_radiusInPixels {before piece rest : Text} {groups : List Span} :
    Takes .radiusInPixels before piece rest groups ↔
      ∃ name between digits, name ∈ radiusNames ∧ IsAssignment between ∧ digits ≠ [] ∧
        (∀ c ∈ digits, isDigit c = true) ∧ piece = name ++ (between ++ (digits ++ ['p', 'x'])) ∧
        groups = [Part.spanOf (before ++ name ++ between) digits] := by
  have hname : ∀ {before name rest groups},
      Takes (.either (exactly "border-radius") (exactly "borderRadius")) before name rest groups ↔
        name ∈ radiusNames ∧ groups = [] := by
    intro before name rest groups
    simp only [takes_either, takes_exactly, radiusNames, List.mem_cons, List.not_mem_nil, or_false]
    exact or_and_right.symm
  show Takes (inOrder (.either (exactly "border-radius") (exactly "borderRadius") ::
    (assignment ++ [pixelCount]))) before piece rest groups ↔ _
  simp only [takes_inOrder_cons, takes_inOrder_append, takes_inOrder_nil, hname, takes_assignment,
    takes_pixelCount]
  constructor
  · rintro ⟨name, _, _, _, rfl, rfl, ⟨hname, rfl⟩, between, _, _, _, rfl, rfl, ⟨hbetween, rfl⟩,
      _, _, _, _, rfl, rfl, ⟨digits, rfl, hne, hall, rfl⟩, rfl, rfl⟩
    exact ⟨name, between, digits, hname, hbetween, hne, hall, by simp, rfl⟩
  · rintro ⟨name, between, digits, hname, hbetween, hne, hall, rfl, rfl⟩
    exact ⟨name, between ++ (digits ++ ['p', 'x']), _, [], rfl, rfl, ⟨hname, rfl⟩, between,
      digits ++ ['p', 'x'], _, [], rfl, rfl, ⟨hbetween, rfl⟩, digits ++ ['p', 'x'], [], [], _,
      by simp, by simp, ⟨digits, rfl, hne, hall, rfl⟩, rfl, rfl⟩

/-- A name begins with a letter that does not occur further inside a radius. -/
theorem takes_radiusInPixels_first (before piece rest : Text) (groups : List Span)
    (h : Takes .radiusInPixels before piece rest groups) :
    ∃ tail, piece = 'b' :: tail ∧ 'b' ∉ tail := by
  obtain ⟨name, between, digits, hname, hbetween, -, hall, rfl, -⟩ := takes_radiusInPixels.mp h
  have hin : ∀ name ∈ radiusNames, name = 'b' :: name.tail ∧ 'b' ∉ name.tail := by decide
  obtain ⟨hfirst, htail⟩ := hin name hname
  refine ⟨name.tail ++ (between ++ (digits ++ ['p', 'x'])), ?_, ?_⟩
  · rw [← List.cons_append, ← hfirst]
  · obtain ⟨blanks, gap, quote, rfl, hblanks, hgap, -, hquote⟩ := hbetween
    simp only [List.mem_append, List.mem_cons, List.not_mem_nil, not_or]
    refine ⟨htail, ⟨?_, by decide, ?_, ?_⟩, ?_, by decide, by decide, not_false⟩
    · exact fun hmem => absurd (hblanks 'b' hmem) (by decide)
    · exact fun hmem => absurd (hgap 'b' hmem) (by decide)
    · exact fun hmem => absurd (hquote 'b' hmem) (by decide)
    · exact fun hmem => absurd (hall 'b' hmem) (by decide)

theorem assigns_of_takes {before piece rest : Text} {groups : List Span}
    (h : Takes .radiusInPixels before piece rest groups) :
    ∃ name digits : Part, name.Assigns digits ∧ name.before = before ∧
      piece ++ rest = name.piece ++ name.after ∧ groups = [digits.span] := by
  obtain ⟨name, between, digits, hname, hbetween, hne, hall, rfl, rfl⟩ :=
    takes_radiusInPixels.mp h
  refine ⟨⟨before, name, between ++ (digits ++ 'p' :: 'x' :: rest)⟩,
    ⟨before ++ name ++ between, digits, 'p' :: 'x' :: rest⟩, ?_, rfl, by simp, rfl⟩
  exact ⟨hname, ⟨between, hbetween, rfl, rfl⟩, ⟨hne, hall⟩, rest, rfl⟩

theorem takes_of_assigns {name digits : Part} (h : name.Assigns digits) :
    ∃ piece rest, name.piece ++ name.after = piece ++ rest ∧
      Takes .radiusInPixels name.before piece rest [digits.span] := by
  obtain ⟨between, hbetween, hbefore, hafter⟩ := h.assignment
  obtain ⟨rest, hrest⟩ := h.unit
  refine ⟨name.piece ++ (between ++ (digits.piece ++ ['p', 'x'])), rest, ?_, ?_⟩
  · rw [hafter, hrest]
    simp
  · refine takes_radiusInPixels.mpr
      ⟨name.piece, between, digits.piece, h.isName, hbetween, h.numeral.nonempty, h.numeral.all,
        rfl, ?_⟩
    rw [Part.span, hbefore]

/-- The stretches of the digits that a search finds are those that the names of the line are
given, from left to right. -/
theorem search_radiusInPixels (line : Text) :
    ∃ radii : List (Part × Part),
      Enumerates line (fun name => ∃ digits, name.Assigns digits) (radii.map Prod.fst) ∧
      (∀ radius ∈ radii, radius.1.Assigns radius.2) ∧
      (radiusInPixels.search line).filterMap (·.group? 1) =
        radii.map fun radius => radius.2.span := by
  have hsound : ∀ before after span,
      (radiusInPixels.matchAt? (.between before after)).bind (·.group? 1) = some span →
      ∃ radius : Part × Part, radius.1.Assigns radius.2 ∧ radius.1.before = before ∧
        after = radius.1.piece ++ radius.1.after ∧ radius.2.span = span := by
    intro before after span h
    obtain ⟨found, hfound, hgroup⟩ := Option.bind_eq_some_iff.mp h
    obtain ⟨piece, rest, groups, rfl, rfl, htakes⟩ := takes_of_matchAt? hfound
    obtain ⟨name, digits, hassigns, hbefore, hsame, rfl⟩ := assigns_of_takes htakes
    exact ⟨(name, digits), hassigns, hbefore, hsame, Option.some.inj hgroup⟩
  have hfound : ∀ radius : Part × Part, radius.1.Assigns radius.2 →
      (radiusInPixels.matchAt? (.between radius.1.before
        (radius.1.piece ++ radius.1.after))).bind (·.group? 1) ≠ none := by
    intro radius hassigns hnone
    cases hmatch : radiusInPixels.matchAt?
        (.between radius.1.before (radius.1.piece ++ radius.1.after)) with
    | none =>
        obtain ⟨piece, rest, hsame, htakes⟩ := takes_of_assigns hassigns
        exact matchAt?_eq_none.mp hmatch piece rest _ hsame htakes
    | some found =>
        obtain ⟨piece, rest, groups, -, rfl, htakes⟩ := takes_of_matchAt? hmatch
        obtain ⟨name, digits, -, -, -, rfl⟩ := assigns_of_takes htakes
        rw [hmatch] at hnone
        cases hnone
  obtain ⟨radii, hnames, hradii, hspans⟩ := Text.exists_enumerates
    (fun cut => (radiusInPixels.matchAt? (.between cut.1 cut.2)).bind (·.group? 1)) Prod.fst
    (fun radius => radius.2.span) (fun radius : Part × Part => radius.1.Assigns radius.2) line
    hsound hfound fun _ _ h h' hbefore hwhole => Prod.ext_iff.mpr (h.unique h' hbefore hwhole)
  refine ⟨radii, hnames.congr ?_, hradii, ?_⟩
  · intro name
    constructor
    · rintro ⟨⟨_, digits⟩, hassigns, rfl⟩
      exact ⟨digits, hassigns⟩
    · rintro ⟨digits, hassigns⟩
      exact ⟨⟨name, digits⟩, hassigns, rfl⟩
  · rw [search_of_first takes_radiusInPixels_first, List.filterMap_filterMap]
    exact hspans

end Pattern

end LiteralAudit
