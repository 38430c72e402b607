import LiteralAudit.DesignTokens
import LiteralAudit.Diagnostic

/-!
# Allowed values

The values that may be written out: colors, distances and border radii.  There is a built-in
set, and a token document adds to it.  Colors are compared without white space around them and
without regard to the case of ASCII letters.  Distances and radii are compared as numbers of
pixels, and only numbers below `2 ^ 32` are known.
-/

namespace LiteralAudit

/-- A color as it is stored and looked up. -/
def normalizeColor (literal : Text) : Text := Text.asciiLower (Text.trim literal)

/-- The number of pixels that a text such as `16px`, `16` or ` 16 px ` names. -/
def parsePixels? (literal : Text) : Option Nat :=
  let trimmed := Text.trim literal
  let digits := Text.trimEnd ((Text.dropEnd? "px" trimmed).getD trimmed)
  if digits.isEmpty || !digits.all Text.isDigit then none
  else if Text.value digits < Nat.pow 2 32 then some (Text.value digits)
  else none

/-- A list with one more element at its end, unless it is there already. -/
def insertNew (items : List Text) (item : Text) : List Text :=
  if item ∈ items then items else items ++ [item]

/-- An ascending list with one more number, unless it is there already. -/
def insertAscending : List Nat → Nat → List Nat
  | [], n => [n]
  | m :: numbers, n =>
      if n < m then n :: m :: numbers
      else if n = m then m :: numbers
      else m :: insertAscending numbers n

/-- The values that may be written out. -/
structure AllowedValues where
  /-- The colors, in the order in which they were added. -/
  colors : List Text
  /-- The distances in pixels, ascending. -/
  spacing : List Nat
  /-- The border radii in pixels, ascending. -/
  radii : List Nat
  deriving DecidableEq, Repr

namespace AllowedValues

/-- Nothing is allowed. -/
def empty : AllowedValues := ⟨[], [], []⟩

/-- The colors that are allowed without a token document. -/
def builtInColors : List Text :=
  ["#ffffff", "#f4f6f8", "#eef4ff", "#e3f2fd", "#90caf9", "#d7f5e9", "#4caf50", "#e8f2ff",
    "#2196f3", "#e0f2f1", "#4db6ac", "#cbd7e0", "#cbd5e1", "#1a1a1a", "#2d3748", "#1e3a5f",
    "#1e3a8a", "#60a5fa", "#064e3b", "#10b981", "#1e40af", "#3b82f6", "#134e4a", "#14b8a6",
    "#4b5563", "#555d6f", "#000000", "#000", "#fff"]

/-- The steps of the built-in scale of distances. -/
def builtInSpacing : List Nat := [4, 8, 12, 16, 20, 24, 32, 48, 64]

/-- The steps of the built-in scale of border radii. -/
def builtInRadii : List Nat := [4, 8, 12, 16]

/-- Distances up to this one are hairlines, which are always allowed. -/
def hairline : Nat := 3

/-- What is allowed without a token document. -/
def builtIn : AllowedValues := ⟨builtInColors, builtInSpacing, builtInRadii⟩

/-- The allowed values and those of a token document. -/
def merge (allowed : AllowedValues) (tokens : DesignTokens) (theme : Option Theme) :
    AllowedValues where
  colors := ((tokens.colors theme).map normalizeColor).foldl insertNew allowed.colors
  spacing := (tokens.spacing.filterMap parsePixels?).foldl insertAscending allowed.spacing
  radii := (tokens.radii.filterMap parsePixels?).foldl insertAscending allowed.radii

/-- The built-in values and those of a token document. -/
def withTokens (tokens : DesignTokens) (theme : Option Theme) : AllowedValues :=
  builtIn.merge tokens theme

/-- Whether a literal of a category is allowed.  Only colors, distances and radii can be. -/
def allows (allowed : AllowedValues) (category : Category) (literal : Text) : Bool :=
  match category with
  | .hardcodedColor => normalizeColor literal ∈ allowed.colors
  | .nonStandardSpacing =>
      (parsePixels? literal).any fun pixels => pixels ≤ hairline || pixels ∈ allowed.spacing
  | .nonStandardRadius => (parsePixels? literal).any fun pixels => pixels ∈ allowed.radii
  | .parseError | .legacyPattern => false

end AllowedValues

end LiteralAudit
