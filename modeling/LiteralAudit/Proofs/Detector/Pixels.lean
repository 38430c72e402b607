import LiteralAudit.Proofs.AllowedValues.Pixels
import LiteralAudit.Proofs.Detector.DesignTokens

/-!
# Which numbers of pixels are reported

The digits of a match are read, written without leading zeros, and read again where the literal
is compared with the allowed numbers.  Each of the three steps has a bound of its own: a number
that does not fit 64 bits keeps its digits, and one that does not fit 32 bits is not known.  The
findings are those of exact arithmetic nevertheless (`detect_pixels`): what is not known is in no
document either, and it is more than everything built in.
-/

namespace LiteralAudit

open Text (Part Enumerates IsNumeral isDigit value)

namespace Detector

open AllowedValues (withTokens IsNonStandardSpacing IsNonStandardRadius)

/-! ## Literals -/

/-- A number of pixels as it is reported: in decimal if it fits 64 bits, as it stands if not. -/
def pixelLiteral (digits : Text) : Text :=
  if value digits < 2 ^ 64 then Text.ofNat (value digits) ++ "px" else digits ++ "px"

/-- Numbers that fit in 64 bits are written in their shortest form, and longer ones as they
stand. -/
theorem literalOf_pixels {digits : Text} (h : IsNumeral digits) :
    literalOf .pixels digits = pixelLiteral digits := by
  have hne : digits.isEmpty = false := by simpa using h.nonempty
  have hall : digits.all isDigit = true := List.all_eq_true.mpr h.all
  show (if !digits.isEmpty && digits.all isDigit && decide (value digits < 2 ^ 64) then _ else _) =
    pixelLiteral digits
  rw [hne, hall, Bool.not_false, Bool.true_and, Bool.true_and, pixelLiteral]
  simp only [decide_eq_true_eq]

/-- What is reported names the number that stands on the line. -/
theorem names_pixelLiteral {digits : Text} (h : IsNumeral digits) (n : Nat) :
    NamesPixels (pixelLiteral digits) n ↔ value digits = n ∧ n < 2 ^ 32 := by
  rw [pixelLiteral]
  split_ifs with hfits
  · have hwrites := writesPixels_of_numeral (Text.isNumeral_ofNat (value digits))
    have hnames := hwrites.names_iff (n := n)
    rwa [Text.value_ofNat] at hnames
  · exact (writesPixels_of_numeral h).names_iff

/-- What a rule for pixels says of a run of digits. -/
def pixelFinding (rule : Rule) (path : Path) (line : Text) (number : Nat) (digits : Text) :
    Diagnostic :=
  .onLine path number rule.category (pixelLiteral digits) line (rule.render (pixelLiteral digits))

/-! ## The findings -/

/-- The findings about pixels on a line are those of the numbers that a document leaves out. -/
structure ReportsPixels (document : Json) (path : Path) (line : Text) (number : Nat)
    (findings : List Diagnostic) : Prop where
  /-- A distance is reported if the document leaves it out. -/
  spacing : ∃ distances : List Part,
    Enumerates line (fun part => (SpeaksOfDistances line ∧ part.IsMaximalRun isDigit ∧
      part.InPixels) ∧ IsNonStandardSpacing document (value part.piece)) distances ∧
    findings.filter (·.category = .nonStandardSpacing) =
      distances.map fun part => pixelFinding .pixelSpacing path line number part.piece
  /-- A border radius is reported if the document leaves it out. -/
  radius : ∃ radii : List (Part × Part),
    Enumerates line (fun name => ∃ digits, name.Assigns digits ∧
      IsNonStandardRadius document (value digits.piece)) (radii.map Prod.fst) ∧
    (∀ radius ∈ radii, radius.1.Assigns radius.2) ∧
    findings.filter (·.category = .nonStandardRadius) =
      radii.map fun radius => pixelFinding .pixelRadius path line number radius.2.piece

theorem filter_unsanctioned (allowed : AllowedValues) (rule : Rule) (path : Path) (line : Text)
    (number : Nat) (pieces : List Text) (category : Category) :
    (unsanctioned allowed rule path line number pieces).filter (·.category = category) =
      if rule.category = category then unsanctioned allowed rule path line number pieces
      else [] := by
  have hcategory : ∀ finding ∈ unsanctioned allowed rule path line number pieces,
      finding.category = rule.category := by
    intro finding hmem
    obtain ⟨literal, -, rfl⟩ := List.mem_map.mp hmem
    rfl
  split_ifs with hsame
  · refine List.filter_eq_self.mpr fun finding hmem => ?_
    exact decide_eq_true ((hcategory finding hmem).trans hsame)
  · refine List.filter_eq_nil_iff.mpr fun finding hmem hfinding => ?_
    exact hsame ((hcategory finding hmem).symm.trans (of_decide_eq_true hfinding))

section Filter

variable (allowed : AllowedValues) (path : Path) (line : Text) (number : Nat)
variable (colors distances radii : List Text)

theorem filter_spacing :
    (unsanctioned allowed .hexColor path line number colors ++
      (unsanctioned allowed .pixelSpacing path line number distances ++
        unsanctioned allowed .pixelRadius path line number radii)).filter
          (·.category = .nonStandardSpacing) =
      unsanctioned allowed .pixelSpacing path line number distances := by
  simp only [List.filter_append, filter_unsanctioned]
  exact List.append_nil _

theorem filter_radius :
    (unsanctioned allowed .hexColor path line number colors ++
      (unsanctioned allowed .pixelSpacing path line number distances ++
        unsanctioned allowed .pixelRadius path line number radii)).filter
          (·.category = .nonStandardRadius) =
      unsanctioned allowed .pixelRadius path line number radii := by
  simp only [List.filter_append, filter_unsanctioned]
  rfl

end Filter

/-- The findings of a rule for pixels are those of the runs of digits whose literal is refused. -/
theorem unsanctioned_pixels {α : Type} (allowed : AllowedValues) (rule : Rule) (path : Path)
    (line : Text) (number : Nat) (hform : rule.literal = .pixels) (digits : α → Text)
    {found : List α} (hnumeral : ∀ x ∈ found, IsNumeral (digits x)) :
    unsanctioned allowed rule path line number (found.map digits) =
      (found.filter fun x => !allowed.allows rule.category (pixelLiteral (digits x))).map
        fun x => pixelFinding rule path line number (digits x) := by
  have hliterals : (found.map digits).map (literalOf rule.literal) =
      found.map fun x => pixelLiteral (digits x) := by
    rw [List.map_map, hform]
    exact List.map_congr_left fun x hx => literalOf_pixels (hnumeral x hx)
  rw [unsanctioned, hliterals, List.filter_map, List.map_map]
  rfl

/-- With the tokens of a document exactly those numbers of pixels are reported that the document
leaves out. -/
theorem detect_pixels {text : Text} {tokens : DesignTokens}
    (h : DesignTokens.read text = .ok tokens) (theme : Option Theme) (path : Path) (line : Text)
    (number : Nat) :
    ∃ document, Json.read text = .ok document ∧ ReportsPixels document path line number
      ((designTokens (withTokens tokens theme)).detect path line number) := by
  obtain ⟨document, hread, hof⟩ := DesignTokens.read_eq_ok h
  obtain ⟨colors, distances, radii, -, hdistances, hnames, hradii, hfindings⟩ :=
    detect_values (withTokens tokens theme) path line number
  have hspacing : ∀ part ∈ distances, IsNumeral part.piece := by
    intro part hpart
    obtain ⟨-, -, hrun, -⟩ := (hdistances.mem part).mp hpart
    exact ⟨hrun.nonempty, hrun.all⟩
  have hradius : ∀ radius ∈ radii, IsNumeral radius.2.piece :=
    fun radius hmem => (hradii radius hmem).numeral
  refine ⟨document, hread, ?_, ?_⟩
  case refine_1 =>
    refine ⟨_, (hdistances.filter fun part => !(withTokens tokens theme).allows
      .nonStandardSpacing (pixelLiteral part.piece)).congr ?_, ?_⟩
    · intro part
      refine and_congr_right ?_
      rintro ⟨-, hrun, -⟩
      rw [Bool.not_eq_true']
      exact AllowedValues.allows_spacing_eq_false hof
        (names_pixelLiteral ⟨hrun.nonempty, hrun.all⟩)
    · rw [hfindings, filter_spacing]
      exact unsanctioned_pixels _ .pixelSpacing path line number rfl Part.piece hspacing
  case refine_2 =>
    refine ⟨radii.filter fun radius => !(withTokens tokens theme).allows .nonStandardRadius
      (pixelLiteral radius.2.piece), (hnames.filter_radii hradii _).congr ?_, ?_, ?_⟩
    · intro name
      refine exists_congr fun digits => and_congr_right fun hassigns => ?_
      rw [Bool.not_eq_true']
      exact AllowedValues.allows_radius_eq_false hof (names_pixelLiteral hassigns.numeral)
    · exact fun radius hmem => hradii radius (List.mem_of_mem_filter hmem)
    · rw [hfindings, filter_radius]
      exact unsanctioned_pixels _ .pixelRadius path line number rfl _ hradius

/-- A document with a distance and a border radius. -/
def pixelTokens : Text :=
  "\x7b\"spacing\":[\"018 px\"],\"effects\":\x7b\"radii\":[6]\x7d\x7d"

/-- A line with two distances and a border radius. -/
def pixelLine : Text := "gap: 18px 0022px; border-radius: 6px"

theorem detect_pixels_listed :
    DesignTokens.read pixelTokens = .ok ⟨[], ["018 px"], ["6"]⟩ ∧
      ∃ document, Json.read pixelTokens = .ok document ∧
        ReportsPixels document ⟨[]⟩ pixelLine 1
          ((designTokens (withTokens ⟨[], ["018 px"], ["6"]⟩ none)).detect ⟨[]⟩ pixelLine 1) := by
  have hread : DesignTokens.read pixelTokens = .ok ⟨[], ["018 px"], ["6"]⟩ := by decide +kernel
  exact ⟨hread, detect_pixels hread none ⟨[]⟩ pixelLine 1⟩

end Detector

end LiteralAudit
