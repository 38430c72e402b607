import LiteralAudit.AllowedValues
import LiteralAudit.Proofs.DesignTokens.Leaves
import LiteralAudit.Proofs.Text.Digits

/-!
# Which numbers of pixels a token document allows

A text names a number of pixels if it is a numeral for it, perhaps with the unit behind it and
with white space anywhere but inside the two, and if the number is below `2 ^ 32`
(`parsePixels?_eq_some`).  A larger number is not known at all, neither from a document nor from a
line, so it is never allowed.

A distance is allowed if it is a hairline, if it is built in, or if a leaf of the document names
it; a border radius if it is built in or if a leaf names it.
-/

namespace LiteralAudit

open Text (IsBlanks IsNumeral StartsInk EndsInk trim trimEnd dropEnd? value)

/-! ## Naming a number of pixels -/

/-- A text is a numeral and perhaps the unit, with white space around both. -/
structure WritesPixels (text digits : Text) : Prop where
  /-- The digits are a numeral. -/
  numeral : IsNumeral digits
  /-- Around them there is white space, and behind them there may be the unit. -/
  around : ∃ front gap unit back, text = front ++ (digits ++ (gap ++ (unit ++ back))) ∧
    IsBlanks front ∧ IsBlanks gap ∧ IsBlanks back ∧ (unit = [] ∨ unit = ['p', 'x'])

/-- A text names a number of pixels. -/
def NamesPixels (text : Text) (n : Nat) : Prop :=
  ∃ digits, WritesPixels text digits ∧ value digits = n ∧ n < 2 ^ 32

/-- A text names a number of pixels only if it fits in 32 bits. -/
theorem NamesPixels.lt {text : Text} {n : Nat} (h : NamesPixels text n) : n < 2 ^ 32 := by
  obtain ⟨-, -, -, hlt⟩ := h
  exact hlt

/-- What is read as the numeral of a text. -/
def numeralOf (text : Text) : Text :=
  trimEnd ((dropEnd? ['p', 'x'] (trim text)).getD (trim text))

/-- If a text writes a number of pixels, the numeral is found. -/
theorem WritesPixels.numeralOf_eq {text digits : Text} (h : WritesPixels text digits) :
    numeralOf text = digits := by
  obtain ⟨front, gap, unit, back, rfl, hfront, hgap, hback, hunit⟩ := h.around
  have hends : trimEnd digits = digits := by
    simpa using Text.trimEnd_append h.numeral.endsInk (fun c hc => absurd hc List.not_mem_nil)
  rw [numeralOf]
  rcases hunit with rfl | rfl
  · have htrim : trim (front ++ (digits ++ (gap ++ back))) = digits := by
      refine Text.trim_append hfront ?_ h.numeral.nonempty ?_ h.numeral.endsInk
      · exact fun c hc => (List.mem_append.mp hc).elim (hgap c) (hback c)
      · simpa using h.numeral.startsInk []
    have hnoUnit : dropEnd? ['p', 'x'] digits = none := by
      refine Text.dropEnd?_eq_none.mpr ?_
      rintro rest rfl
      exact absurd (h.numeral.all 'x' (by simp)) (by decide)
    rw [List.nil_append, htrim, hnoUnit, Option.getD_none, hends]
  · have htrim : trim (front ++ ((digits ++ (gap ++ ['p', 'x'])) ++ back)) =
        digits ++ (gap ++ ['p', 'x']) := by
      refine Text.trim_append hfront hback (by simp) (h.numeral.startsInk _) ?_
      intro c hc
      have hx : 'x' = c := by simpa using hc
      subst hx
      rfl
    have hunit : dropEnd? ['p', 'x'] (digits ++ (gap ++ ['p', 'x'])) = some (digits ++ gap) :=
      Text.dropEnd?_eq_some.mpr (List.append_assoc ..).symm
    have hsame : front ++ (digits ++ (gap ++ (['p', 'x'] ++ back))) =
        front ++ ((digits ++ (gap ++ ['p', 'x'])) ++ back) := by simp
    rw [hsame, htrim, hunit, Option.getD_some, Text.trimEnd_append h.numeral.endsInk hgap]

/-- If what is read as the numeral is one, the text writes a number of pixels. -/
theorem writesPixels_numeralOf {text : Text} (h : IsNumeral (numeralOf text)) :
    WritesPixels text (numeralOf text) := by
  obtain ⟨front, back, htext, hfront, hback⟩ := Text.exists_trim text
  refine ⟨h, ?_⟩
  rw [numeralOf]
  cases hunit : dropEnd? ['p', 'x'] (trim text) with
  | none =>
      obtain ⟨gap, hgap, hall⟩ := Text.exists_trimEnd (trim text)
      rw [Option.getD_none]
      refine ⟨front, gap, [], back, ?_, hfront, hall, hback, Or.inl rfl⟩
      rw [List.nil_append, ← List.append_assoc (trimEnd _), ← hgap, ← htext]
  | some rest =>
      obtain ⟨gap, hgap, hall⟩ := Text.exists_trimEnd rest
      rw [Option.getD_some]
      refine ⟨front, gap, ['p', 'x'], back, ?_, hfront, hall, hback, Or.inr rfl⟩
      rw [← List.append_assoc (trimEnd _), ← hgap, ← List.append_assoc rest,
        ← Text.dropEnd?_eq_some.mp hunit, ← htext]

/-- Whether a text names a number of pixels is decided by what is read as its numeral. -/
theorem namesPixels_iff {text : Text} {n : Nat} :
    NamesPixels text n ↔
      IsNumeral (numeralOf text) ∧ value (numeralOf text) = n ∧ n < 2 ^ 32 := by
  constructor
  · rintro ⟨digits, hwrites, hvalue, hlt⟩
    rw [hwrites.numeralOf_eq]
    exact ⟨hwrites.numeral, hvalue, hlt⟩
  · rintro ⟨hnumeral, hvalue, hlt⟩
    exact ⟨_, writesPixels_numeralOf hnumeral, hvalue, hlt⟩

/-- A numeral names its own value, unless that is too large. -/
theorem WritesPixels.names_iff {text digits : Text} (h : WritesPixels text digits) {n : Nat} :
    NamesPixels text n ↔ value digits = n ∧ n < 2 ^ 32 := by
  rw [namesPixels_iff, h.numeralOf_eq]
  exact and_iff_right h.numeral

/-- Reading a number of pixels gives the number that a text names. -/
theorem parsePixels?_eq_some {text : Text} {n : Nat} :
    parsePixels? text = some n ↔ NamesPixels text n := by
  rw [namesPixels_iff]
  show (if (numeralOf text).isEmpty || !(numeralOf text).all Text.isDigit then none
    else if value (numeralOf text) < 2 ^ 32 then some (value (numeralOf text)) else none) =
      some n ↔ _
  have hnumeral : IsNumeral (numeralOf text) ↔
      ¬((numeralOf text).isEmpty || !(numeralOf text).all Text.isDigit) = true := by
    constructor
    · rintro ⟨hne, hall⟩
      simpa [hne] using hall
    · intro h
      obtain ⟨hne, hall⟩ := not_or.mp (mt (Bool.or_eq_true ..).mpr h)
      exact ⟨by simpa using hne, by simpa using hall⟩
  split_ifs with hnone hlt
  · exact iff_of_false nofun fun h => hnumeral.mp h.1 hnone
  · rw [Option.some.injEq]
    constructor
    · rintro rfl
      exact ⟨hnumeral.mpr hnone, rfl, hlt⟩
    · exact fun h => h.2.1
  · refine iff_of_false nofun ?_
    rintro ⟨-, rfl, h⟩
    exact hlt h

/-- A numeral with the unit right behind it. -/
theorem writesPixels_of_numeral {digits : Text} (h : IsNumeral digits) :
    WritesPixels (digits ++ ['p', 'x']) digits := by
  have hnil : IsBlanks [] := fun _ hc => absurd hc List.not_mem_nil
  exact ⟨h, [], [], ['p', 'x'], [], by simp, hnil, hnil, hnil, Or.inr rfl⟩

/-! ## Adding numbers -/

theorem mem_insertAscending {m n : Nat} :
    ∀ {numbers : List Nat}, m ∈ insertAscending numbers n ↔ m ∈ numbers ∨ m = n
  | [] => by simp [insertAscending]
  | first :: numbers => by
      rw [insertAscending]
      split_ifs with hlt heq
      · rw [List.mem_cons, or_comm]
      · subst heq
        rw [List.mem_cons]
        constructor
        · exact Or.inl
        · rintro (h | rfl)
          · exact h
          · exact Or.inl rfl
      · rw [List.mem_cons, mem_insertAscending, List.mem_cons, or_assoc]

theorem mem_foldl_insertAscending {m : Nat} :
    ∀ {new numbers : List Nat}, m ∈ new.foldl insertAscending numbers ↔ m ∈ numbers ∨ m ∈ new
  | [], numbers => by simp
  | first :: new, numbers => by
      rw [List.foldl_cons, mem_foldl_insertAscending, mem_insertAscending, List.mem_cons, or_assoc]

namespace AllowedValues

open DesignTokens (IsSpacingLeaf IsRadiusLeaf)

variable {allowed : AllowedValues} {tokens : DesignTokens} {theme : Option Theme}
variable {document : Json} {literal : Text}

/-- A distance is allowed if its number is small or listed. -/
theorem allows_spacing :
    allowed.allows .nonStandardSpacing literal = true ↔
      ∃ n, NamesPixels literal n ∧ (n ≤ 3 ∨ n ∈ allowed.spacing) := by
  rw [allows, Option.any_eq_true]
  simp only [parsePixels?_eq_some, Bool.or_eq_true, decide_eq_true_eq]
  rfl

/-- A radius is allowed only if its number is listed; small ones are no exception. -/
theorem allows_radius :
    allowed.allows .nonStandardRadius literal = true ↔
      ∃ n, NamesPixels literal n ∧ n ∈ allowed.radii := by
  rw [allows, Option.any_eq_true]
  simp only [parsePixels?_eq_some, decide_eq_true_eq]

theorem mem_spacing_withTokens {n : Nat} :
    n ∈ (withTokens tokens theme).spacing ↔
      n ∈ builtInSpacing ∨ ∃ leaf ∈ tokens.spacing, NamesPixels leaf n := by
  rw [withTokens, merge, mem_foldl_insertAscending, List.mem_filterMap]
  simp only [parsePixels?_eq_some]
  rfl

theorem mem_radii_withTokens {n : Nat} :
    n ∈ (withTokens tokens theme).radii ↔
      n ∈ builtInRadii ∨ ∃ leaf ∈ tokens.radii, NamesPixels leaf n := by
  rw [withTokens, merge, mem_foldl_insertAscending, List.mem_filterMap]
  simp only [parsePixels?_eq_some]
  rfl

/-! ## What a document leaves out -/

/-- A distance is more than a hairline, not built in, and named by no leaf of a document. -/
structure IsNonStandardSpacing (document : Json) (n : Nat) : Prop where
  /-- It is more than a hairline. -/
  visible : 3 < n
  /-- It is not built in. -/
  notBuiltIn : n ∉ builtInSpacing
  /-- No leaf names it. -/
  unlisted : ∀ leaf, IsSpacingLeaf document leaf → ¬NamesPixels leaf n

/-- A border radius is not built in and named by no leaf of a document. -/
structure IsNonStandardRadius (document : Json) (n : Nat) : Prop where
  /-- It is not built in. -/
  notBuiltIn : n ∉ builtInRadii
  /-- No leaf names it. -/
  unlisted : ∀ leaf, IsRadiusLeaf document leaf → ¬NamesPixels leaf n

theorem isNonStandardSpacing_iff {n : Nat} :
    IsNonStandardSpacing document n ↔
      ¬(n ≤ 3 ∨ n ∈ builtInSpacing ∨ ∃ leaf, IsSpacingLeaf document leaf ∧ NamesPixels leaf n) := by
  constructor
  · rintro hout (hsmall | hbuiltIn | ⟨leaf, hleaf, hnamed⟩)
    · exact absurd hout.visible (not_lt.mpr hsmall)
    · exact hout.notBuiltIn hbuiltIn
    · exact hout.unlisted leaf hleaf hnamed
  · intro h
    obtain ⟨hsmall, hrest⟩ := not_or.mp h
    obtain ⟨hbuiltIn, hleaves⟩ := not_or.mp hrest
    exact ⟨not_le.mp hsmall, hbuiltIn, fun leaf hleaf hnamed => hleaves ⟨leaf, hleaf, hnamed⟩⟩

theorem isNonStandardRadius_iff {n : Nat} :
    IsNonStandardRadius document n ↔
      ¬(n ∈ builtInRadii ∨ ∃ leaf, IsRadiusLeaf document leaf ∧ NamesPixels leaf n) := by
  constructor
  · rintro hout (hbuiltIn | ⟨leaf, hleaf, hnamed⟩)
    · exact hout.notBuiltIn hbuiltIn
    · exact hout.unlisted leaf hleaf hnamed
  · intro h
    obtain ⟨hbuiltIn, hleaves⟩ := not_or.mp h
    exact ⟨hbuiltIn, fun leaf hleaf hnamed => hleaves ⟨leaf, hleaf, hnamed⟩⟩

/-- A literal whose number is too large to be known names none, which makes no difference where
only known numbers count. -/
theorem exists_named_iff {property : Nat → Prop} {n : Nat}
    (hnames : ∀ m, NamesPixels literal m ↔ n = m ∧ m < 2 ^ 32)
    (hknown : property n → n < 2 ^ 32) :
    (∃ m, NamesPixels literal m ∧ property m) ↔ property n := by
  constructor
  · rintro ⟨m, hm, hproperty⟩
    obtain ⟨rfl, -⟩ := (hnames m).mp hm
    exact hproperty
  · intro hproperty
    exact ⟨n, (hnames n).mpr ⟨rfl, hknown hproperty⟩, hproperty⟩

/-- A literal of a distance is refused if the document leaves its number out. -/
theorem allows_spacing_eq_false (h : DesignTokens.ofJson? document = .ok tokens) {n : Nat}
    (hnames : ∀ m, NamesPixels literal m ↔ n = m ∧ m < 2 ^ 32) :
    (withTokens tokens theme).allows .nonStandardSpacing literal = false ↔
      IsNonStandardSpacing document n := by
  rw [← Bool.not_eq_true, allows_spacing, isNonStandardSpacing_iff]
  simp only [mem_spacing_withTokens, DesignTokens.mem_spacing_iff h]
  refine not_congr (exists_named_iff hnames ?_)
  rintro (hsmall | hbuiltIn | ⟨leaf, -, hnamed⟩)
  · exact hsmall.trans_lt (by decide)
  · have hlt : ∀ m ∈ builtInSpacing, m < 2 ^ 32 := by decide
    exact hlt n hbuiltIn
  · exact hnamed.lt

/-- A literal of a border radius is refused if the document leaves its number out. -/
theorem allows_radius_eq_false (h : DesignTokens.ofJson? document = .ok tokens) {n : Nat}
    (hnames : ∀ m, NamesPixels literal m ↔ n = m ∧ m < 2 ^ 32) :
    (withTokens tokens theme).allows .nonStandardRadius literal = false ↔
      IsNonStandardRadius document n := by
  rw [← Bool.not_eq_true, allows_radius, isNonStandardRadius_iff]
  simp only [mem_radii_withTokens, DesignTokens.mem_radii_iff h]
  refine not_congr (exists_named_iff hnames ?_)
  rintro (hbuiltIn | ⟨leaf, -, hnamed⟩)
  · have hlt : ∀ m ∈ builtInRadii, m < 2 ^ 32 := by decide
    exact hlt n hbuiltIn
  · exact hnamed.lt

end AllowedValues

end LiteralAudit
