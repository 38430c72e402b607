import LiteralAudit.AllowedValues
import LiteralAudit.Proofs.DesignTokens.Leaves

/-!
# Which colors a token document allows

A color is allowed if it is built in or if it is, in its normal form, a color of the tokens.  A
document *lists* a color if some mode that is looked at has it at a leaf, and it *keeps* a color if
that mode is the last of its name.

What is allowed is what is built in or kept (`allows_color_iff`), so never more than what is built
in or listed.  It is less as soon as two modes share a name in lower case and the earlier one has
a color that nothing else gives.  `allows_color_iff_listed` says that this is the only way, for
every text that is read as tokens, and `not_forall_listed_allowed` that it happens.
-/

namespace LiteralAudit

/-! ## Adding colors -/

theorem mem_insertNew {items : List Text} {new item : Text} :
    item ∈ insertNew items new ↔ item ∈ items ∨ item = new := by
  rw [insertNew]
  split_ifs with h
  · constructor
    · exact Or.inl
    · rintro (hmem | rfl)
      · exact hmem
      · exact h
  · rw [List.mem_append, List.mem_singleton]

theorem mem_foldl_insertNew {item : Text} :
    ∀ {new items : List Text}, item ∈ new.foldl insertNew items ↔ item ∈ items ∨ item ∈ new
  | [], items => by simp
  | first :: new, items => by
      rw [List.foldl_cons, mem_foldl_insertNew, mem_insertNew, List.mem_cons, or_assoc]

namespace AllowedValues

open DesignTokens (modeMembers IsColorLeaf SeenUnder LastOfName)

/-- A color is allowed exactly if it is listed in its normal spelling. -/
theorem allows_color {allowed : AllowedValues} {literal : Text} :
    allowed.allows .hardcodedColor literal = true ↔ normalizeColor literal ∈ allowed.colors := by
  simp [allows]

/-- The colors that are allowed with tokens, in their normal form. -/
theorem mem_colors_withTokens {tokens : DesignTokens} {theme : Option Theme} {color : Text} :
    color ∈ (withTokens tokens theme).colors ↔
      color ∈ builtInColors ∨ ∃ leaf ∈ tokens.colors theme, normalizeColor leaf = color := by
  rw [withTokens, merge, mem_foldl_insertNew, List.mem_map]
  rfl

/-! ## Listed and kept colors -/

/-- A document has a color at a leaf of a mode that is looked at. -/
def Lists (document : Json) (theme : Option Theme) (color : Text) : Prop :=
  ∃ mode ∈ modeMembers document, SeenUnder theme mode ∧
    ∃ leaf, IsColorLeaf mode leaf ∧ normalizeColor leaf = normalizeColor color

/-- A document has a color at a leaf of a mode that is looked at and is the last of its name. -/
def Keeps (document : Json) (theme : Option Theme) (color : Text) : Prop :=
  ∃ mode, LastOfName (modeMembers document) mode ∧ SeenUnder theme mode ∧
    ∃ leaf, IsColorLeaf mode leaf ∧ normalizeColor leaf = normalizeColor color

theorem Keeps.lists {document : Json} {theme : Option Theme} {color : Text}
    (h : Keeps document theme color) : Lists document theme color := by
  obtain ⟨mode, hlast, hseen⟩ := h
  exact ⟨mode, hlast.mem, hseen⟩

/-- A color is allowed if it is built in or kept. -/
theorem allows_color_iff {document : Json} {tokens : DesignTokens}
    (h : DesignTokens.ofJson? document = .ok tokens) (theme : Option Theme) (color : Text) :
    (withTokens tokens theme).allows .hardcodedColor color = true ↔
      normalizeColor color ∈ builtInColors ∨ Keeps document theme color := by
  rw [allows_color, mem_colors_withTokens]
  constructor
  · rintro (hbuiltIn | ⟨leaf, hleaf, hsame⟩)
    · exact Or.inl hbuiltIn
    · obtain ⟨mode, hlast, hseen, hcolor⟩ := (DesignTokens.mem_colors_iff h).mp hleaf
      exact Or.inr ⟨mode, hlast, hseen, leaf, hcolor, hsame⟩
  · rintro (hbuiltIn | ⟨mode, hlast, hseen, leaf, hcolor, hsame⟩)
    · exact Or.inl hbuiltIn
    · exact Or.inr ⟨leaf, (DesignTokens.mem_colors_iff h).mpr ⟨mode, hlast, hseen, hcolor⟩, hsame⟩

/-- A mode of a document that a later one takes the place of. -/
def Displaced (document : Json) (mode : Text × Json) : Prop :=
  mode ∈ modeMembers document ∧ ¬LastOfName (modeMembers document) mode

/-- Nothing is lost with the modes that are displaced: each of their colors is built in or kept
for another mode. -/
def LosesNone (document : Json) (theme : Option Theme) : Prop :=
  ∀ mode, Displaced document mode → SeenUnder theme mode → ∀ leaf, IsColorLeaf mode leaf →
    normalizeColor leaf ∈ builtInColors ∨ Keeps document theme leaf

/-- No color is lost if no two modes have the same name in small letters. -/
theorem LosesNone.of_pairwise {document : Json} (theme : Option Theme)
    (hnames : (modeMembers document).Pairwise fun a b => Text.lower a.1 ≠ Text.lower b.1) :
    LosesNone document theme := by
  intro mode hdisplaced
  exact absurd (.of_pairwise hnames hdisplaced.1) hdisplaced.2

/-- What is listed is built in or kept exactly if nothing is lost. -/
theorem losesNone_iff {document : Json} {theme : Option Theme} :
    LosesNone document theme ↔
      ∀ color, Lists document theme color →
        normalizeColor color ∈ builtInColors ∨ Keeps document theme color := by
  constructor
  · rintro hnone color ⟨mode, hmem, hseen, leaf, hleaf, hsame⟩
    by_cases hlast : LastOfName (modeMembers document) mode
    · exact Or.inr ⟨mode, hlast, hseen, leaf, hleaf, hsame⟩
    · rcases hnone mode ⟨hmem, hlast⟩ hseen leaf hleaf with hbuiltIn | hkept
      · exact Or.inl (hsame ▸ hbuiltIn)
      · obtain ⟨last, hlast, hseen, other, hother, hsame'⟩ := hkept
        exact Or.inr ⟨last, hlast, hseen, other, hother, hsame'.trans hsame⟩
  · intro hlisted mode hdisplaced hseen leaf hleaf
    exact hlisted leaf ⟨mode, hdisplaced.1, hseen, leaf, hleaf, rfl⟩

/-- The colors allowed with the tokens of a text.  They are those built in and those kept.  They
are those built in and those listed exactly if nothing is lost with a displaced mode, and nothing
is lost if the names of the modes differ in lower case. -/
theorem allows_color_iff_listed {text : Text} {tokens : DesignTokens}
    (h : DesignTokens.read text = .ok tokens) (theme : Option Theme) :
    ∃ document, Json.read text = .ok document ∧
      (∀ color, (withTokens tokens theme).allows .hardcodedColor color = true ↔
        normalizeColor color ∈ builtInColors ∨ Keeps document theme color) ∧
      ((∀ color, (withTokens tokens theme).allows .hardcodedColor color = true ↔
          normalizeColor color ∈ builtInColors ∨ Lists document theme color) ↔
        LosesNone document theme) ∧
      ((modeMembers document).Pairwise (fun a b => Text.lower a.1 ≠ Text.lower b.1) →
        LosesNone document theme) := by
  obtain ⟨document, hread, hof⟩ := DesignTokens.read_eq_ok h
  refine ⟨document, hread, allows_color_iff hof theme, ?_, .of_pairwise theme⟩
  rw [losesNone_iff]
  constructor
  · intro hlisted color hlist
    exact (allows_color_iff hof theme color).mp ((hlisted color).mpr (Or.inr hlist))
  · intro hnone color
    rw [allows_color_iff hof]
    constructor
    · rintro (hbuiltIn | hkept)
      · exact Or.inl hbuiltIn
      · exact Or.inr hkept.lists
    · rintro (hbuiltIn | hlist)
      · exact Or.inl hbuiltIn
      · exact hnone color hlist

/-- Two modes of one name: the first has a color, the second has none. -/
def displacingTokens : Text :=
  "\x7b\"modes\":\x7b\"Dark\":\x7b\"colors\":[\"#111\"]\x7d,\"dark\":\x7b\x7d\x7d\x7d"

theorem allows_color_iff_listed_displacing :
    DesignTokens.read displacingTokens = .ok ⟨[("dark", [])], [], []⟩ ∧
      ∃ document, Json.read displacingTokens = .ok document ∧
        (∀ color, (withTokens ⟨[("dark", [])], [], []⟩ (some .dark)).allows .hardcodedColor color =
            true ↔
          normalizeColor color ∈ builtInColors ∨ Keeps document (some .dark) color) ∧
        ((∀ color, (withTokens ⟨[("dark", [])], [], []⟩ (some .dark)).allows .hardcodedColor
              color = true ↔
            normalizeColor color ∈ builtInColors ∨ Lists document (some .dark) color) ↔
          LosesNone document (some .dark)) ∧
        ((modeMembers document).Pairwise (fun a b => Text.lower a.1 ≠ Text.lower b.1) →
          LosesNone document (some .dark)) := by
  have hread : DesignTokens.read displacingTokens = .ok ⟨[("dark", [])], [], []⟩ := by
    decide +kernel
  exact ⟨hread, allows_color_iff_listed hread (some .dark)⟩

/-- A listed color need not be allowed. -/
theorem not_forall_listed_allowed :
    ¬∀ (text : Text) (tokens : DesignTokens) (document : Json) (theme : Option Theme)
      (color : Text), DesignTokens.read text = .ok tokens → Json.read text = .ok document →
        ((withTokens tokens theme).allows .hardcodedColor color = true ↔
          normalizeColor color ∈ builtInColors ∨ Lists document theme color) := by
  intro h
  have hread : DesignTokens.read displacingTokens = .ok ⟨[("dark", [])], [], []⟩ := by
    decide +kernel
  have hdocument : Json.read displacingTokens = .ok (.object [("modes", .object
      [("Dark", .object [("colors", .array [.str "#111"])]), ("dark", .object [])])]) := by
    with_unfolding_all rfl
  have hrefused : (withTokens ⟨[("dark", [])], [], []⟩ none).allows .hardcodedColor "#111" =
      false := by decide +kernel
  have hiff := h displacingTokens _ _ none "#111" hread hdocument
  rw [hrefused] at hiff
  have hlisted : Lists (.object [("modes", .object
      [("Dark", .object [("colors", .array [.str "#111"])]), ("dark", .object [])])]) none
      "#111" := by
    refine ⟨("Dark", .object [("colors", .array [.str "#111"])]), List.mem_cons_self .., ?_, ?_⟩
    · intro chosen hchosen
      cases hchosen
    · exact ⟨"#111", ⟨_, rfl, .item (List.mem_cons_self ..) (.self _)⟩, rfl⟩
  exact absurd (hiff.mpr (Or.inr hlisted)) Bool.false_ne_true

end AllowedValues

end LiteralAudit
