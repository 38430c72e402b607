import LiteralAudit.Proofs.AllowedValues.Colors
import LiteralAudit.Proofs.AllowedValues.Pixels
import LiteralAudit.Proofs.Audit.Lines
import LiteralAudit.Proofs.Detector.Report

/-!
# Audits that allow more

What is allowed decides which findings are dropped, and nothing else.  So if one set of allowed
values is *within* another, an audit under the larger set finds what an audit under the smaller one
finds, without the findings whose literals the larger set allows (`audit_of_within`).  In
particular a token document only ever removes findings, and more of its modes remove more.

The argument goes up from one match (`report?_of_within`) over rules and lines to files.  It needs
that each rule looks at what is allowed, as those for design tokens do.
-/

namespace LiteralAudit

namespace AllowedValues

variable {smaller larger : AllowedValues}

/-! ## Sets within sets -/

/-- Each value of one set is in the other. -/
structure Within (smaller larger : AllowedValues) : Prop where
  colors : smaller.colors ⊆ larger.colors
  spacing : smaller.spacing ⊆ larger.spacing
  radii : smaller.radii ⊆ larger.radii

theorem Within.allows (hwithin : smaller.Within larger) {category : Category} {literal : Text}
    (hallows : smaller.allows category literal = true) :
    larger.allows category literal = true := by
  cases category with
  | parseError => exact hallows
  | legacyPattern => exact hallows
  | hardcodedColor => exact allows_color.mpr (hwithin.colors (allows_color.mp hallows))
  | nonStandardSpacing =>
      obtain ⟨n, hnames, hknown⟩ := allows_spacing.mp hallows
      exact allows_spacing.mpr ⟨n, hnames, hknown.imp_right (hwithin.spacing ·)⟩
  | nonStandardRadius =>
      obtain ⟨n, hnames, hknown⟩ := allows_radius.mp hallows
      exact allows_radius.mpr ⟨n, hnames, hwithin.radii hknown⟩

/-- Tokens take nothing from the built-in values. -/
theorem builtIn_within (tokens : DesignTokens) (theme : Option Theme) :
    builtIn.Within (withTokens tokens theme) where
  colors := fun _ hmem => mem_colors_withTokens.mpr (Or.inl hmem)
  spacing := fun _ hmem => mem_spacing_withTokens.mpr (Or.inl hmem)
  radii := fun _ hmem => mem_radii_withTokens.mpr (Or.inl hmem)

/-- The tokens of one mode are among those of all modes. -/
theorem withTokens_within (tokens : DesignTokens) (theme : Option Theme) :
    (withTokens tokens theme).Within (withTokens tokens none) where
  colors := by
    intro color hmem
    rcases mem_colors_withTokens.mp hmem with hbuiltIn | ⟨leaf, hleaf, hcolor⟩
    · exact mem_colors_withTokens.mpr (Or.inl hbuiltIn)
    · obtain ⟨mode, hmode, hleaf⟩ := List.mem_flatMap.mp hleaf
      have hvisible : mode ∈ tokens.modes.filter fun entry => DesignTokens.isVisible none entry.1 :=
        List.mem_filter.mpr ⟨List.mem_of_mem_filter hmode, rfl⟩
      exact mem_colors_withTokens.mpr
        (Or.inr ⟨leaf, List.mem_flatMap.mpr ⟨mode, hvisible, hleaf⟩, hcolor⟩)
  spacing := fun _ hmem => hmem
  radii := fun _ hmem => hmem

/-- Whether a finding stands although some values are allowed. -/
def rejects (allowed : AllowedValues) (found : Diagnostic) : Bool :=
  !allowed.allows found.category found.literal

@[simp]
theorem rejects_onLine (allowed : AllowedValues) (path : Path) (number : Nat) (category : Category)
    (literal line message : Text) :
    allowed.rejects (.onLine path number category literal line message) =
      !allowed.allows category literal := rfl

end AllowedValues

/-! ## From matches to lines -/

namespace Detector

/-- The detector with other values allowed. -/
def allowing (detector : Detector) (allowed : AllowedValues) : Detector :=
  { detector with allowed := allowed }

variable {smaller larger : AllowedValues} (hwithin : smaller.Within larger)
variable (detector : Detector) {rule : Rule} (path : Path) (line : Text) (number : Nat)

include hwithin

theorem reportOn?_of_within (hchecked : rule.checkAllowed = true) (span : Span) :
    (detector.allowing larger).reportOn? rule path line number span =
      ((detector.allowing smaller).reportOn? rule path line number span).filter larger.rejects := by
  have hsuppressed : (detector.allowing larger).isSuppressed rule line span =
      (detector.allowing smaller).isSuppressed rule line span := rfl
  simp only [reportOn?, hsuppressed, hchecked, Bool.true_and]
  cases (detector.allowing smaller).isSuppressed rule line span with
  | true => rfl
  | false =>
      generalize literalOf rule.literal ((Text.slice? line span).getD []) = literal
      cases hlarger : larger.allows rule.category literal with
      | true =>
          cases hsmaller : smaller.allows rule.category literal <;>
            simp [allowing, hlarger, hsmaller, Option.filter_some]
      | false =>
          have hsmaller : smaller.allows rule.category literal = false :=
            Bool.eq_false_iff.mpr fun hallows =>
              Bool.false_ne_true (hlarger.symm.trans (hwithin.allows hallows))
          simp [allowing, hlarger, hsmaller, Option.filter_some]

theorem report?_of_within (hchecked : rule.checkAllowed = true) (found : Match) :
    (detector.allowing larger).report? rule path line number found =
      ((detector.allowing smaller).report? rule path line number found).filter larger.rejects := by
  rw [report?_eq, report?_eq]
  cases found.group? rule.group with
  | none => rfl
  | some span => exact reportOn?_of_within hwithin detector path line number hchecked span

/-- What a rule finds with more values allowed is what it finds with fewer, less the literals that
are allowed now. -/
theorem detectRule_of_within (hchecked : rule.checkAllowed = true) :
    (detector.allowing larger).detectRule rule path line number =
      ((detector.allowing smaller).detectRule rule path line number).filter larger.rejects := by
  rw [detectRule, detectRule]
  split
  next =>
    rw [List.filter_filterMap]
    exact List.filterMap_congr fun found _ =>
      report?_of_within hwithin detector path line number hchecked found
  next => rfl

theorem detect_of_within (hchecked : ∀ rule ∈ detector.rules, rule.checkAllowed = true) :
    (detector.allowing larger).detect path line number =
      ((detector.allowing smaller).detect path line number).filter larger.rejects := by
  rw [detect, detect, List.filter_flatMap]
  exact List.flatMap_congr fun rule hmem =>
    detectRule_of_within hwithin detector path line number (hchecked rule hmem)

/-! ## From lines to files -/

theorem detectLines_of_within (hchecked : ∀ rule ∈ detector.rules, rule.checkAllowed = true)
    (classifier : LineClassifier) (lines : List Text) :
    detectLines classifier (detector.allowing larger) path number lines =
      (detectLines classifier (detector.allowing smaller) path number lines).filter
        larger.rejects := by
  induction lines generalizing number with
  | nil => rfl
  | cons line lines ih =>
      rw [detectLines, detectLines, List.filter_append, ih]
      split
      next => rfl
      next => rw [detect_of_within hwithin detector path line number hchecked]

end Detector

namespace StyleAuditor

/-- In each category an audit with more values allowed gives the findings of the other one whose
literals are not allowed now. -/
theorem get_audit_of_within {smaller larger : AllowedValues} (hwithin : smaller.Within larger)
    (path : Path) (text : Text) (category : Category) :
    ((ofAllowed larger).audit path text).get category =
      (((ofAllowed smaller).audit path text).get category).filter fun found =>
        !larger.allows category found.literal := by
  have hchecked : ∀ rule ∈ Rule.designTokens, rule.checkAllowed = true := by decide
  have hlines := Detector.detectLines_of_within hwithin (.ofRules Rule.designTokens) path 1
    hchecked .source (Text.splitLines text)
  rw [get_audit, get_audit, List.filter_filter]
  show (detectLines .source (Detector.allowing _ larger) path 1 (Text.splitLines text)).filter _ =
    (detectLines .source (Detector.allowing _ smaller) path 1 (Text.splitLines text)).filter _
  rw [hlines, List.filter_filter]
  refine List.filter_congr fun found _ => ?_
  by_cases hcategory : found.category = category
  · simp [AllowedValues.rejects, hcategory]
  · simp [hcategory]

/-! ## Findings that remain -/

/-- One auditor finds nothing that another one does not find, and finds it in the same order. -/
structure FindsLess (auditor other : StyleAuditor) : Prop where
  byCategory : ∀ path text category,
    ((auditor.audit path text).get category).Sublist ((other.audit path text).get category)
  all : ∀ path text, ((auditor.audit path text).toList).Sublist (other.audit path text).toList

/-- An audit with more values allowed has no more findings. -/
theorem findsLess_of_within {smaller larger : AllowedValues} (hwithin : smaller.Within larger) :
    FindsLess (ofAllowed larger) (ofAllowed smaller) := by
  have hget : ∀ path text category,
      (((ofAllowed larger).audit path text).get category).Sublist
        (((ofAllowed smaller).audit path text).get category) := by
    intro path text category
    rw [get_audit_of_within hwithin]
    exact List.filter_sublist
  refine ⟨hget, ?_⟩
  intro path text
  have hordered : ∀ auditor : StyleAuditor, (auditor.audit path text).Ordered :=
    fun auditor => FileAudit.ordered_empty.pushAll _
  rw [(hordered _).toList_eq, (hordered _).toList_eq]
  induction Category.all with
  | nil => exact .slnil
  | cons category categories ih =>
      rw [List.flatMap_cons, List.flatMap_cons]
      exact (hget path text category).append ih

/-- An audit under a larger set of allowed values finds what one under a smaller set finds, but
for the literals that the larger set allows.  So it is with tokens of all modes, of one mode, and
without tokens. -/
theorem audit_of_within {smaller larger : AllowedValues} (hwithin : smaller.Within larger) :
    (∀ path text category,
      ((ofAllowed larger).audit path text).get category =
        (((ofAllowed smaller).audit path text).get category).filter fun found =>
          !larger.allows category found.literal) ∧
      ∀ (tokens : DesignTokens) (theme : Option Theme),
        FindsLess (ofAllowed (.withTokens tokens none)) (ofAllowed (.withTokens tokens theme)) ∧
          FindsLess (ofAllowed (.withTokens tokens theme)) (ofAllowed .builtIn) :=
  ⟨get_audit_of_within hwithin, fun tokens theme =>
    ⟨findsLess_of_within (AllowedValues.withTokens_within tokens theme),
      findsLess_of_within (AllowedValues.builtIn_within tokens theme)⟩⟩

/-- A document with one color. -/
def oneColor : DesignTokens := ⟨[("dark", ["#ABCDEF"])], [], []⟩

/-- A line with that color and another one. -/
def twoColors : Text := "border: 1px solid #abcdef; color: #123456;"

theorem audit_of_within_oneColor :
    AllowedValues.builtIn.Within (.withTokens oneColor none) ∧
      ((ofAllowed (.withTokens oneColor none)).audit (.ofText "a.css") twoColors).get
          .hardcodedColor =
        (((ofAllowed .builtIn).audit (.ofText "a.css") twoColors).get .hardcodedColor).filter
          (fun found => !(AllowedValues.withTokens oneColor none).allows .hardcodedColor
            found.literal) ∧
      (((ofAllowed .builtIn).audit (.ofText "a.css") twoColors).get .hardcodedColor).map
        Diagnostic.literal = [("#abcdef" : Text), ("#123456" : Text)] := by
  have hwithin := AllowedValues.builtIn_within oneColor none
  exact ⟨hwithin, (audit_of_within hwithin).1 _ _ _, by decide +kernel⟩

end StyleAuditor

end LiteralAudit
