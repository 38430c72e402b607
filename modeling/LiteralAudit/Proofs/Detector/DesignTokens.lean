import LiteralAudit.Proofs.Detector.Report
import LiteralAudit.Proofs.Pattern.Color
import LiteralAudit.Proofs.Pattern.Radius

/-!
# What the detector of design tokens finds

Colors, distances and border radii are reported unless they are allowed.  What is looked for is
described place by place: a color at every number sign with enough digits behind it, a distance
in every run of digits with the unit behind it, a radius at every name of the property that is
given one.  Distances count only on lines that speak of them.  The rule for radii has a gate as
well, but a line with a radius has its name, so the gate changes nothing
(`detect_designTokens`).
-/

namespace LiteralAudit

open Text (Part Enumerates isDigit)

/-- A gate lets a line pass if one of its keywords stands anywhere on it. -/
theorem KeywordGate.admits_iff {gate : KeywordGate} {line : Text} :
    gate.admits line = true ↔ ∃ part : Part, part.whole = line ∧ part.piece ∈ gate.keywords := by
  rw [admits, List.any_eq_true]
  simp only [Text.occursIn_iff]
  constructor
  · rintro ⟨_, hmem, part, hwhole, rfl⟩
    exact ⟨part, hwhole, hmem⟩
  · rintro ⟨part, hwhole, hmem⟩
    exact ⟨_, hmem, part, hwhole, rfl⟩

/-- The words of lines that speak of distances. -/
def distanceWords : List Text := ["padding", "margin", "gap", "width", "height"]

/-- A line has one of the words of lines that speak of distances. -/
def SpeaksOfDistances (line : Text) : Prop :=
  ∃ part : Part, part.whole = line ∧ part.piece ∈ distanceWords

namespace Detector

/-! ## Values that are not allowed -/

/-- What a rule says of pieces of a line: those whose literals are allowed are left out. -/
def unsanctioned (allowed : AllowedValues) (rule : Rule) (path : Path) (line : Text) (number : Nat)
    (pieces : List Text) : List Diagnostic :=
  ((pieces.map (literalOf rule.literal)).filter fun literal =>
    !allowed.allows rule.category literal).map fun literal =>
      .onLine path number rule.category literal line (rule.render literal)

variable (allowed : AllowedValues) (path : Path) (line : Text) (number : Nat)

/-- A rule that asks for nothing but sanctioned values reports the others. -/
theorem detectRule_of_values (rule : Rule) {parts : List Part}
    (hplace : rule.bare = false ∧ rule.skipIfQuoted = false ∧ rule.skipIfKey = false)
    (hcheck : rule.checkAllowed = true)
    (hspans : (rule.search line).filterMap (·.group? rule.group) = parts.map Part.span)
    (hwhole : ∀ part ∈ parts, part.whole = line) :
    (designTokens allowed).detectRule rule path line number =
      if runsOn rule line then
        unsanctioned allowed rule path line number (parts.map Part.piece)
      else [] := by
  obtain ⟨hbare, hquoted, hkey⟩ := hplace
  have hkeeps : (designTokens allowed).keeps rule =
      fun part => !allowed.allows rule.category (literalOf rule.literal part.piece) := by
    funext part
    rw [keeps, isSuppressed, hbare, hquoted, hkey, hcheck]
    rfl
  have hfindings : (parts.filter ((designTokens allowed).keeps rule)).map
      (finding rule path number) =
        unsanctioned allowed rule path line number (parts.map Part.piece) := by
    rw [unsanctioned, List.map_map, List.filter_map, List.map_map, hkeeps]
    refine List.map_congr_left fun part hpart => ?_
    rw [finding, hwhole part (List.mem_of_mem_filter hpart)]
    rfl
  rw [detectRule_of_parts _ rule path line number hspans hwhole, hfindings]

/-! ## The three rules -/

/-- The rule for colors reports the colors on a line that are not allowed, from left to right. -/
theorem detectRule_hexColor :
    ∃ colors, Enumerates line Part.IsColor colors ∧
      (designTokens allowed).detectRule .hexColor path line number =
        unsanctioned allowed .hexColor path line number (colors.map Part.piece) := by
  have hcolors := Text.enumerates_colors line
  refine ⟨_, hcolors, ?_⟩
  rw [detectRule_of_values allowed path line number .hexColor ⟨rfl, rfl, rfl⟩ rfl ?_
    fun part hpart => ((hcolors.mem part).mp hpart).1]
  · rfl
  · show (Pattern.hexColor.search line).filterMap (·.group? 0) = _
    rw [Pattern.search_hexColor, List.filterMap_map, ← List.filterMap_eq_map']
    rfl

/-- The rule for distances reports the numbers of pixels that are not allowed, if the line speaks of
distances. -/
theorem detectRule_pixelSpacing :
    ∃ spacing, Enumerates line (fun part => part.IsMaximalRun isDigit ∧ part.InPixels) spacing ∧
      (designTokens allowed).detectRule .pixelSpacing path line number =
        if runsOn .pixelSpacing line then
          unsanctioned allowed .pixelSpacing path line number (spacing.map Part.piece)
        else [] := by
  have hruns := (Text.enumerates_maximalRuns isDigit line).filter Part.inPixels
  refine ⟨_, hruns.congr fun part => by rw [Part.inPixels_iff], ?_⟩
  refine detectRule_of_values allowed path line number .pixelSpacing ⟨rfl, rfl, rfl⟩ rfl ?_
    fun part hpart => ((hruns.mem part).mp hpart).1
  show (Pattern.pixelCount.search line).filterMap (·.group? 1) = _
  rw [Pattern.search_pixelCount, List.filterMap_map, ← List.filterMap_eq_map']
  rfl

/-- The rule for border radii reports the same with any gate that lets lines with the name of the
property pass. -/
theorem detectRule_pixelRadius :
    ∃ radii : List (Part × Part),
      Enumerates line (fun name => ∃ digits, name.Assigns digits) (radii.map Prod.fst) ∧
      (∀ radius ∈ radii, radius.1.Assigns radius.2) ∧
      ∀ gate : Option KeywordGate,
        (∀ name : Part, name.whole = line → name.piece ∈ Text.radiusNames →
          runsOn { Rule.pixelRadius with gate := gate } line = true) →
        (designTokens allowed).detectRule { Rule.pixelRadius with gate := gate } path line number =
          unsanctioned allowed .pixelRadius path line number
            (radii.map fun radius => radius.2.piece) := by
  obtain ⟨radii, hnames, hradii, hspans⟩ := Pattern.search_radiusInPixels line
  refine ⟨radii, hnames, hradii, ?_⟩
  intro gate hgate
  have hname : ∀ radius ∈ radii, radius.1.whole = line :=
    fun radius hmem => ((hnames.mem radius.1).mp (List.mem_map_of_mem hmem)).1
  have hwhole : ∀ part ∈ radii.map Prod.snd, part.whole = line := by
    intro part hpart
    obtain ⟨radius, hmem, rfl⟩ := List.mem_map.mp hpart
    rw [(hradii radius hmem).whole, hname radius hmem]
  have hdigits : (Pattern.radiusInPixels.search line).filterMap (·.group? 1) =
      (radii.map Prod.snd).map Part.span := by
    rw [hspans, List.map_map]
    rfl
  rw [detectRule_of_values allowed path line number _ ⟨rfl, rfl, rfl⟩ rfl hdigits hwhole,
    List.map_map]
  cases radii with
  | nil => exact ite_self _
  | cons radius radii =>
      have hmem : radius ∈ radius :: radii := List.mem_cons_self ..
      rw [if_pos (hgate radius.1 (hname radius hmem) (hradii radius hmem).isName)]
      rfl

theorem admits_of_name {name : Part} (hwhole : name.whole = line)
    (hname : name.piece ∈ Text.radiusNames) : runsOn .pixelRadius line = true :=
  KeywordGate.admits_iff.mpr ⟨name, hwhole, hname⟩

/-- Without its gate the rule for border radii reports the same. -/
theorem detectRule_pixelRadius_ungated :
    (designTokens allowed).detectRule .pixelRadius path line number =
      (designTokens allowed).detectRule { Rule.pixelRadius with gate := none } path line
        number := by
  obtain ⟨radii, -, -, hreports⟩ := detectRule_pixelRadius allowed path line number
  exact (hreports (some .radius) fun _ => admits_of_name line).trans
    (hreports none fun _ _ _ => rfl).symm

/-- Findings are those of the values on a line that are not allowed, each kind from left to right:
the colors, then the distances if the line speaks of them, then the border radii. -/
def ReportsValues (findings : List Diagnostic) : Prop :=
  ∃ (colors spacing : List Part) (radii : List (Part × Part)),
    Enumerates line Part.IsColor colors ∧
    Enumerates line (fun part => SpeaksOfDistances line ∧ part.IsMaximalRun isDigit ∧
      part.InPixels) spacing ∧
    Enumerates line (fun name => ∃ digits, name.Assigns digits) (radii.map Prod.fst) ∧
    (∀ radius ∈ radii, radius.1.Assigns radius.2) ∧
    findings = unsanctioned allowed .hexColor path line number (colors.map Part.piece) ++
      (unsanctioned allowed .pixelSpacing path line number (spacing.map Part.piece) ++
      unsanctioned allowed .pixelRadius path line number (radii.map fun radius => radius.2.piece))

/-- The findings on a line are exactly those of its values that are not allowed. -/
theorem detect_values :
    ReportsValues allowed path line number
      ((designTokens allowed).detect path line number) := by
  obtain ⟨colors, hcolors, hfirst⟩ := detectRule_hexColor allowed path line number
  obtain ⟨runs, hruns, hsecond⟩ := detectRule_pixelSpacing allowed path line number
  obtain ⟨radii, hnames, hradii, hreports⟩ := detectRule_pixelRadius allowed path line number
  have hthird : (designTokens allowed).detectRule .pixelRadius path line number = _ :=
    hreports (some .radius) fun _ => admits_of_name line
  have hspeaks : runsOn .pixelSpacing line = true ↔ SpeaksOfDistances line :=
    KeywordGate.admits_iff
  refine ⟨colors, if runsOn .pixelSpacing line then runs else [], radii, hcolors, ?_, hnames,
    hradii, ?_⟩
  · split_ifs with hline
    · exact hruns.congr fun part => (and_iff_right (hspeaks.mp hline)).symm
    · refine ⟨?_, List.Pairwise.nil⟩
      intro part
      refine iff_of_false List.not_mem_nil ?_
      rintro ⟨-, hmention, -⟩
      exact hline (hspeaks.mpr hmention)
  · show [Rule.hexColor, Rule.pixelSpacing, Rule.pixelRadius].flatMap _ = _
    rw [List.flatMap_cons, List.flatMap_cons, List.flatMap_singleton, hfirst, hsecond, hthird]
    split_ifs with hline
    · rfl
    · rfl

/-- The detector of design tokens reports the values that are not allowed and nothing else, and it
would report the same without the gate for border radii. -/
theorem detect_designTokens :
    ReportsValues allowed path line number ((designTokens allowed).detect path line number) ∧
      (designTokens allowed).detectRule .pixelRadius path line number =
        (designTokens allowed).detectRule { Rule.pixelRadius with gate := none } path line number :=
  ⟨detect_values allowed path line number, detectRule_pixelRadius_ungated allowed path line number⟩

end Detector

end LiteralAudit
