import LiteralAudit.DesignTokens
import LiteralAudit.Proofs.Json.Members

/-!
# The leaves of a token document

`Json.Contains outer inner` says that a value lies at or below another one, at any depth of lists
and objects.  The two flattenings of a document are read off it: `stringLeaves` gives the strings
a value contains (`mem_stringLeaves`), `scalarLeaves` the strings and the numbers as they are
written (`mem_scalarLeaves`).

A document lists the modes of a theme as the members of one object (`modeMembers`), each with
its colors.  The modes are stored by their names in lower case, one after the other, and a later
one takes the place of an earlier one of the same name.  So what is stored is exactly what the
members hold that are `LastOfName` (`mem_modesOf`).

`mem_colors_iff`, `mem_spacing_iff` and `mem_radii_iff` say what is read from a document.
-/

namespace LiteralAudit

/-! ## Values below values -/

/-- A value lies at or below another one. -/
inductive Json.Contains : Json → Json → Prop
  /-- A value contains itself. -/
  | self (value : Json) : Contains value value
  /-- A list contains what its items contain. -/
  | item {items : List Json} {item inner : Json} :
      item ∈ items → Contains item inner → Contains (.array items) inner
  /-- An object contains what its members contain. -/
  | member {members : List (Text × Json)} {name : Text} {value inner : Json} :
      (name, value) ∈ members → Contains value inner → Contains (.object members) inner

theorem Json.contains_array {items : List Json} {inner : Json} (hne : inner ≠ .array items) :
    Json.Contains (.array items) inner ↔ ∃ item ∈ items, Json.Contains item inner := by
  constructor
  · intro h
    cases h with
    | self => exact absurd rfl hne
    | item hmem hin => exact ⟨_, hmem, hin⟩
  · rintro ⟨item, hmem, hin⟩
    exact .item hmem hin

theorem Json.contains_object {members : List (Text × Json)} {inner : Json}
    (hne : inner ≠ .object members) :
    Json.Contains (.object members) inner ↔
      ∃ entry ∈ members, Json.Contains entry.2 inner := by
  constructor
  · intro h
    cases h with
    | self => exact absurd rfl hne
    | member hmem hin => exact ⟨_, hmem, hin⟩
  · rintro ⟨⟨name, value⟩, hmem, hin⟩
    exact .member hmem hin

/-- A string is at a leaf of a value. -/
def IsStringLeaf (value : Json) (leaf : Text) : Prop := Json.Contains value (.str leaf)

/-- A string, or a number as it is written, is at a leaf of a value. -/
def IsScalarLeaf (value : Json) (leaf : Text) : Prop :=
  Json.Contains value (.str leaf) ∨ ∃ n : Json.Number, Json.Contains value (.num n) ∧ n.text = leaf

theorem isScalarLeaf_array {items : List Json} {leaf : Text} :
    IsScalarLeaf (.array items) leaf ↔ ∃ item ∈ items, IsScalarLeaf item leaf := by
  simp only [IsScalarLeaf, ne_eq, reduceCtorEq, not_false_eq_true, Json.contains_array]
  constructor
  · rintro (⟨item, hmem, hin⟩ | ⟨n, ⟨item, hmem, hin⟩, hn⟩)
    · exact ⟨item, hmem, Or.inl hin⟩
    · exact ⟨item, hmem, Or.inr ⟨n, hin, hn⟩⟩
  · rintro ⟨item, hmem, hin | ⟨n, hin, hn⟩⟩
    · exact Or.inl ⟨item, hmem, hin⟩
    · exact Or.inr ⟨n, ⟨item, hmem, hin⟩, hn⟩

theorem isScalarLeaf_object {members : List (Text × Json)} {leaf : Text} :
    IsScalarLeaf (.object members) leaf ↔ ∃ entry ∈ members, IsScalarLeaf entry.2 leaf := by
  simp only [IsScalarLeaf, ne_eq, reduceCtorEq, not_false_eq_true, Json.contains_object]
  constructor
  · rintro (⟨entry, hmem, hin⟩ | ⟨n, ⟨entry, hmem, hin⟩, hn⟩)
    · exact ⟨entry, hmem, Or.inl hin⟩
    · exact ⟨entry, hmem, Or.inr ⟨n, hin, hn⟩⟩
  · rintro ⟨entry, hmem, hin | ⟨n, hin, hn⟩⟩
    · exact Or.inl ⟨entry, hmem, hin⟩
    · exact Or.inr ⟨n, ⟨entry, hmem, hin⟩, hn⟩

/-! ## Flattening -/

mutual

/-- The leaves that are collected from a value are the texts in it, at any depth. -/
theorem mem_stringLeaves (leaf : Text) :
    ∀ value : Json, leaf ∈ stringLeaves value ↔ IsStringLeaf value leaf
  | .null => ⟨fun h => absurd h List.not_mem_nil, fun h => nomatch h⟩
  | .bool _ => ⟨fun h => absurd h List.not_mem_nil, fun h => nomatch h⟩
  | .num _ => ⟨fun h => absurd h List.not_mem_nil, fun h => nomatch h⟩
  | .str text => by
      rw [stringLeaves, List.mem_singleton]
      constructor
      · rintro rfl
        exact .self _
      · intro h
        cases h
        rfl
  | .array items => by
      rw [stringLeaves, mem_stringLeavesOfItems, IsStringLeaf,
        Json.contains_array (by simp)]
      rfl
  | .object members => by
      rw [stringLeaves, mem_stringLeavesOfMembers, IsStringLeaf,
        Json.contains_object (by simp)]
      rfl

theorem mem_stringLeavesOfItems (leaf : Text) :
    ∀ items : List Json,
      leaf ∈ stringLeavesOfItems items ↔ ∃ item ∈ items, IsStringLeaf item leaf
  | [] => by simp [stringLeavesOfItems]
  | item :: items => by
      rw [stringLeavesOfItems, List.mem_append, mem_stringLeaves leaf item,
        mem_stringLeavesOfItems leaf items, List.exists_mem_cons_iff]

theorem mem_stringLeavesOfMembers (leaf : Text) :
    ∀ members : List (Text × Json),
      leaf ∈ stringLeavesOfMembers members ↔ ∃ entry ∈ members, IsStringLeaf entry.2 leaf
  | [] => by simp [stringLeavesOfMembers]
  | (_, value) :: members => by
      rw [stringLeavesOfMembers, List.mem_append, mem_stringLeaves leaf value,
        mem_stringLeavesOfMembers leaf members, List.exists_mem_cons_iff]

end

mutual

theorem mem_scalarLeaves (leaf : Text) :
    ∀ value : Json, leaf ∈ scalarLeaves value ↔ IsScalarLeaf value leaf
  | .null => by
      refine ⟨fun h => absurd h List.not_mem_nil, ?_⟩
      rintro (h | ⟨n, h, -⟩) <;> cases h
  | .bool _ => by
      refine ⟨fun h => absurd h List.not_mem_nil, ?_⟩
      rintro (h | ⟨n, h, -⟩) <;> cases h
  | .num number => by
      rw [scalarLeaves, List.mem_singleton]
      constructor
      · rintro rfl
        exact Or.inr ⟨number, .self _, rfl⟩
      · rintro (h | ⟨n, h, rfl⟩)
        · cases h
        · cases h
          rfl
  | .str text => by
      rw [scalarLeaves, List.mem_singleton]
      constructor
      · rintro rfl
        exact Or.inl (.self _)
      · rintro (h | ⟨n, h, -⟩)
        · cases h
          rfl
        · cases h
  | .array items => by
      rw [scalarLeaves, mem_scalarLeavesOfItems, isScalarLeaf_array]
  | .object members => by
      rw [scalarLeaves, mem_scalarLeavesOfMembers, isScalarLeaf_object]

theorem mem_scalarLeavesOfItems (leaf : Text) :
    ∀ items : List Json,
      leaf ∈ scalarLeavesOfItems items ↔ ∃ item ∈ items, IsScalarLeaf item leaf
  | [] => by simp [scalarLeavesOfItems]
  | item :: items => by
      rw [scalarLeavesOfItems, List.mem_append, mem_scalarLeaves leaf item,
        mem_scalarLeavesOfItems leaf items, List.exists_mem_cons_iff]

theorem mem_scalarLeavesOfMembers (leaf : Text) :
    ∀ members : List (Text × Json),
      leaf ∈ scalarLeavesOfMembers members ↔ ∃ entry ∈ members, IsScalarLeaf entry.2 leaf
  | [] => by simp [scalarLeavesOfMembers]
  | (_, value) :: members => by
      rw [scalarLeavesOfMembers, List.mem_append, mem_scalarLeaves leaf value,
        mem_scalarLeavesOfMembers leaf members, List.exists_mem_cons_iff]

end

namespace DesignTokens

theorem mem_leavesUnder {leaves : Json → List Text} {value : Option Json} {leaf : Text} :
    leaf ∈ leavesUnder leaves value ↔ ∃ found, value = some found ∧ leaf ∈ leaves found := by
  cases value with
  | none => simp [leavesUnder]
  | some found => simp [leavesUnder]

/-! ## Modes -/

/-- The modes of a document by their names as they are written. -/
def modeMembers (document : Json) : List (Text × Json) :=
  match document.member? "modes" with
  | some (.object members) => members
  | _ => []

/-- A string is at a leaf below the colors of a mode. -/
def IsColorLeaf (mode : Text × Json) (leaf : Text) : Prop :=
  ∃ colors, mode.2.member? "colors" = some colors ∧ IsStringLeaf colors leaf

/-- A mode is looked at when tokens are read for a theme, or for all of them. -/
def SeenUnder (theme : Option Theme) (mode : Text × Json) : Prop :=
  ∀ chosen, theme = some chosen → Text.lower mode.1 = chosen.name

/-- A mode that no later one shares its name with, in lower case. -/
inductive LastOfName : List (Text × Json) → Text × Json → Prop
  /-- The first mode is the last of its name if all others have other names. -/
  | here {mode : Text × Json} {modes : List (Text × Json)} :
      (∀ later ∈ modes, Text.lower later.1 ≠ Text.lower mode.1) → LastOfName (mode :: modes) mode
  /-- What stands in front does not matter. -/
  | there {first mode : Text × Json} {modes : List (Text × Json)} :
      LastOfName modes mode → LastOfName (first :: modes) mode

theorem LastOfName.mem {modes : List (Text × Json)} {mode : Text × Json}
    (h : LastOfName modes mode) : mode ∈ modes := by
  induction h with
  | here _ => exact List.mem_cons_self ..
  | there _ ih => exact List.mem_cons_of_mem _ ih

/-- If all names differ, each mode is the last of its name. -/
theorem LastOfName.of_pairwise {mode : Text × Json} :
    ∀ {modes : List (Text × Json)},
      modes.Pairwise (fun a b => Text.lower a.1 ≠ Text.lower b.1) → mode ∈ modes →
      LastOfName modes mode
  | _ :: _, hp, hmem => by
      obtain ⟨hfirst, hrest⟩ := List.pairwise_cons.mp hp
      cases List.mem_cons.mp hmem with
      | inl h =>
          subst h
          exact .here fun later hlater => (hfirst later hlater).symm
      | inr h => exact .there (.of_pairwise hrest h)

/-- Storing one mode under its name in lower case. -/
def storeMode (stored : List (Text × List Text)) (mode : Text × Json) :
    List (Text × List Text) :=
  Json.insertMember (Text.lower mode.1) (leavesUnder stringLeaves (mode.2.member? "colors")) stored

/-- The modes of a document are stored one after the other, and a later one replaces one of the same
name. -/
theorem modesOf_eq (document : Json) :
    modesOf (document.member? "modes") = (modeMembers document).foldl storeMode [] := by
  rw [modeMembers]
  split
  · rename_i members h
    rw [h]
    rfl
  · rename_i h
    rw [modesOf]
    · rfl
    · exact h

/-- What is stored after some modes: the last one of each name, and what was there before under
other names. -/
theorem mem_foldl_storeMode {entry : Text × List Text} :
    ∀ {modes : List (Text × Json)} {stored : List (Text × List Text)}, Json.Ascending stored →
      (entry ∈ modes.foldl storeMode stored ↔
        (∃ mode, LastOfName modes mode ∧
          entry = (Text.lower mode.1, leavesUnder stringLeaves (mode.2.member? "colors"))) ∨
        (∀ mode ∈ modes, Text.lower mode.1 ≠ entry.1) ∧ entry ∈ stored)
  | [], stored, _ => by
      constructor
      · intro h
        exact Or.inr ⟨by simp, h⟩
      · rintro (⟨mode, hlast, -⟩ | ⟨-, h⟩)
        · cases hlast
        · exact h
  | first :: modes, stored, h => by
      have hstored : Json.Ascending (storeMode stored first) := Json.ascending_insertMember h
      rw [List.foldl_cons, mem_foldl_storeMode hstored, storeMode, Json.mem_insertMember h]
      constructor
      · rintro (⟨mode, hlast, heq⟩ | ⟨hnone, rfl | ⟨hne, hmem⟩⟩)
        · exact Or.inl ⟨mode, .there hlast, heq⟩
        · exact Or.inl ⟨first, .here hnone, rfl⟩
        · refine Or.inr ⟨?_, hmem⟩
          intro mode hmode
          cases List.mem_cons.mp hmode with
          | inl hfirst => subst hfirst; exact hne.symm
          | inr hlater => exact hnone mode hlater
      · rintro (⟨mode, hlast, heq⟩ | ⟨hnone, hmem⟩)
        · cases hlast with
          | here hnone =>
              subst heq
              exact Or.inr ⟨hnone, Or.inl rfl⟩
          | there hlast => exact Or.inl ⟨mode, hlast, heq⟩
        · exact Or.inr ⟨fun mode hmode => hnone mode (List.mem_cons_of_mem _ hmode),
            Or.inr ⟨(hnone first (List.mem_cons_self ..)).symm, hmem⟩⟩

/-- Each name is stored with the colors of the last mode of that name. -/
theorem mem_modesOf {document : Json} {entry : Text × List Text} :
    entry ∈ modesOf (document.member? "modes") ↔
      ∃ mode, LastOfName (modeMembers document) mode ∧
        entry = (Text.lower mode.1, leavesUnder stringLeaves (mode.2.member? "colors")) := by
  rw [modesOf_eq, mem_foldl_storeMode Json.ascending_nil]
  simp

/-! ## What is read from a document -/

/-- A text that is read as tokens is a JSON document with an object at its root. -/
theorem read_eq_ok {text : Text} {tokens : DesignTokens} (h : read text = .ok tokens) :
    ∃ document, Json.read text = .ok document ∧ ofJson? document = .ok tokens := by
  rw [read] at h
  split at h
  · cases h
  · rename_i document hread
    exact ⟨document, hread, h⟩

/-- Where the parts of a document come from: radii may stand at three places. -/
theorem ofJson?_eq_ok {document : Json} {tokens : DesignTokens}
    (h : ofJson? document = .ok tokens) :
    tokens.modes = modesOf (document.member? "modes") ∧
      tokens.spacing = leavesUnder scalarLeaves (document.member? "spacing") ∧
      tokens.radii =
        leavesUnder scalarLeaves (document.member? "effects" >>= Json.member? "radii") ++
          leavesUnder scalarLeaves (document.member? "radii") ++
          leavesUnder scalarLeaves (document.member? "borderRadius") := by
  cases document with
  | object members =>
      cases h
      exact ⟨rfl, rfl, rfl⟩
  | null => cases h
  | bool value => cases h
  | num value => cases h
  | str value => cases h
  | array items => cases h

/-- A mode is seen under a theme if its name in small letters is that of the theme, and under no
theme all are. -/
theorem isVisible_iff {theme : Option Theme} {mode : Text × Json} :
    isVisible theme (Text.lower mode.1) = true ↔ SeenUnder theme mode := by
  cases theme with
  | none => simp [isVisible, SeenUnder]
  | some chosen => simp [isVisible, SeenUnder]

/-- The colors of a document are the leaves of the modes that are looked at and are the last of
their names. -/
theorem mem_colors_iff {document : Json} {tokens : DesignTokens}
    (h : ofJson? document = .ok tokens) {theme : Option Theme} {leaf : Text} :
    leaf ∈ tokens.colors theme ↔
      ∃ mode, LastOfName (modeMembers document) mode ∧ SeenUnder theme mode ∧
        IsColorLeaf mode leaf := by
  rw [colors, (ofJson?_eq_ok h).1, List.mem_flatMap]
  constructor
  · rintro ⟨entry, hentry, hleaf⟩
    obtain ⟨hentry, hvisible⟩ := List.mem_filter.mp hentry
    obtain ⟨mode, hlast, rfl⟩ := mem_modesOf.mp hentry
    obtain ⟨found, hfound, hleaf⟩ := mem_leavesUnder.mp hleaf
    exact ⟨mode, hlast, isVisible_iff.mp hvisible, found, hfound, (mem_stringLeaves _ _).mp hleaf⟩
  · rintro ⟨mode, hlast, hseen, found, hfound, hleaf⟩
    refine ⟨(_, _), List.mem_filter.mpr ⟨mem_modesOf.mpr ⟨mode, hlast, rfl⟩, ?_⟩, ?_⟩
    · exact isVisible_iff.mpr hseen
    · exact mem_leavesUnder.mpr ⟨found, hfound, (mem_stringLeaves _ _).mpr hleaf⟩

/-- A string or a number is at a leaf below the distances of a document. -/
def IsSpacingLeaf (document : Json) (leaf : Text) : Prop :=
  ∃ spacing, document.member? "spacing" = some spacing ∧ IsScalarLeaf spacing leaf

/-- The three places of a document where border radii are listed. -/
inductive RadiiAt (document : Json) : Json → Prop
  /-- Below the effects. -/
  | effects {effects radii : Json} :
      document.member? "effects" = some effects → effects.member? "radii" = some radii →
      RadiiAt document radii
  /-- At the root. -/
  | radii {radii : Json} : document.member? "radii" = some radii → RadiiAt document radii
  /-- At the root, by the name of the style property. -/
  | borderRadius {radii : Json} :
      document.member? "borderRadius" = some radii → RadiiAt document radii

/-- A string or a number is at a leaf below the border radii of a document. -/
def IsRadiusLeaf (document : Json) (leaf : Text) : Prop :=
  ∃ radii, RadiiAt document radii ∧ IsScalarLeaf radii leaf

/-- The distances of a document are its leaves under the name for distances. -/
theorem mem_spacing_iff {document : Json} {tokens : DesignTokens}
    (h : ofJson? document = .ok tokens) {leaf : Text} :
    leaf ∈ tokens.spacing ↔ IsSpacingLeaf document leaf := by
  rw [(ofJson?_eq_ok h).2.1, mem_leavesUnder]
  simp only [mem_scalarLeaves, IsSpacingLeaf]

/-- The radii of a document are its leaves under one of the three names for radii. -/
theorem mem_radii_iff {document : Json} {tokens : DesignTokens}
    (h : ofJson? document = .ok tokens) {leaf : Text} :
    leaf ∈ tokens.radii ↔ IsRadiusLeaf document leaf := by
  rw [(ofJson?_eq_ok h).2.2]
  simp only [List.mem_append, mem_leavesUnder, mem_scalarLeaves]
  constructor
  · rintro ((⟨radii, hat, hleaf⟩ | ⟨radii, hat, hleaf⟩) | ⟨radii, hat, hleaf⟩)
    · obtain ⟨effects, heffects, hmember⟩ := Option.bind_eq_some_iff.mp hat
      exact ⟨radii, .effects heffects hmember, hleaf⟩
    · exact ⟨radii, .radii hat, hleaf⟩
    · exact ⟨radii, .borderRadius hat, hleaf⟩
  · rintro ⟨radii, hat, hleaf⟩
    cases hat with
    | effects heffects hmember =>
        exact Or.inl (Or.inl ⟨radii, Option.bind_eq_some_iff.mpr ⟨_, heffects, hmember⟩, hleaf⟩)
    | radii hat => exact Or.inl (Or.inr ⟨radii, hat, hleaf⟩)
    | borderRadius hat => exact Or.inr ⟨radii, hat, hleaf⟩

end DesignTokens

end LiteralAudit
