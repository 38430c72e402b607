import LiteralAudit.Proofs.AllowedValues.Colors
import LiteralAudit.Proofs.Detector.Pixels

/-!
# Sanctioned colors

A color of the tokens that stands on a line is compared with what the pattern for colors reads
there.  The pattern reads six digits or three.  So a color of six or three digits is read whole, in
any letter case, and is not reported.  Of one with four or eight digits the beginning is read, and
it is reported unless it is a sanctioned color itself (`detect_sanctioned`).  With a transparency
behind it a sanctioned color can therefore be reported (`not_forall_sanctioned_spared`).
-/

namespace LiteralAudit

open Text (Part Enumerates isHexDigit isBlank colorLength colorAt?)

/-! ## Letter case -/

namespace Text

theorem toNat_toLower (c : Char) :
    c.toLower.toNat = if 65 ≤ c.toNat ∧ c.toNat ≤ 90 then c.toNat + 32 else c.toNat := by
  have hrange : (c.val ≥ 'A'.val ∧ c.val ≤ 'Z'.val) ↔ 65 ≤ c.toNat ∧ c.toNat ≤ 90 := by
    simp only [ge_iff_le, UInt32.le_iff_toNat_le]
    rfl
  by_cases h : 65 ≤ c.toNat ∧ c.toNat ≤ 90
  · have hlower : c.toLower.val = c.val + 32 := congrArg Char.val (dif_pos (hrange.mpr h))
    have hlast : c.val.toNat ≤ 90 := h.2
    rw [if_pos h]
    show c.toLower.val.toNat = c.val.toNat + 32
    rw [hlower, UInt32.toNat_add]
    show (c.val.toNat + 32) % 2 ^ 32 = _
    omega
  · have hlower : c.toLower = c := dif_neg (mt hrange.mp h)
    rw [hlower, if_neg h]

theorem isHexDigit_iff {c : Char} :
    isHexDigit c = true ↔ (48 ≤ c.toNat ∧ c.toNat ≤ 57) ∨ (97 ≤ c.toNat ∧ c.toNat ≤ 102) ∨
      (65 ≤ c.toNat ∧ c.toNat ≤ 70) := by
  simp only [isHexDigit, Bool.or_eq_true, isDigit_iff, Bool.and_eq_true, decide_eq_true_eq,
    Char.le_def, UInt32.le_iff_toNat_le, or_assoc]
  rfl

/-- Hexadecimal digits stay such in small letters, and no other character becomes one. -/
theorem isHexDigit_toLower {c : Char} : isHexDigit c.toLower = true ↔ isHexDigit c = true := by
  rw [isHexDigit_iff, isHexDigit_iff, toNat_toLower]
  split_ifs <;> omega

theorem toLower_eq_sign {c : Char} : c.toLower = '#' ↔ c = '#' := by
  have hsign : ('#' : Char).toNat = 35 := rfl
  rw [← Char.toNat_inj, ← Char.toNat_inj, hsign, toNat_toLower]
  split_ifs <;> omega

theorem isBlank_of_isHexDigit {c : Char} (h : isHexDigit c = true) : isBlank c = false := by
  have hrange := isHexDigit_iff.mp h
  simp [isBlank, inRanges, blankRanges]
  omega

/-! ## Colors of any number of digits -/

/-- A number sign and a number of hexadecimal digits. -/
def IsHexColor (n : Nat) (text : Text) : Prop :=
  ∃ digits, text = '#' :: digits ∧ digits.length = n ∧ ∀ c ∈ digits, isHexDigit c = true

/-- What is read of a color with a number of digits: the number sign and the first ones. -/
def readColor (n : Nat) (text : Text) : Text := text.take (colorLength n + 1)

/-- A color spelled with other cases is a color with as many digits. -/
theorem IsHexColor.of_asciiLower_eq {n : Nat} {text other : Text} (h : IsHexColor n text)
    (hsame : asciiLower other = asciiLower text) : IsHexColor n other := by
  obtain ⟨digits, rfl, rfl, hall⟩ := h
  cases other with
  | nil => cases hsame
  | cons c others =>
      obtain ⟨hsign, hdigits⟩ := List.cons.inj hsame
      have hlength : others.length = digits.length := by
        simpa using congrArg List.length hdigits
      refine ⟨others, by rw [toLower_eq_sign.mp hsign], hlength, ?_⟩
      intro d hd
      have hmem : d.toLower ∈ digits.map Char.toLower := by
        have h : others.map Char.toLower = digits.map Char.toLower := hdigits
        rw [← h]
        exact List.mem_map_of_mem hd
      obtain ⟨e, he, heq⟩ := List.mem_map.mp hmem
      rw [← isHexDigit_toLower, ← heq, isHexDigit_toLower]
      exact hall e he

/-- A color has no white space around it. -/
theorem IsHexColor.trim_eq {n : Nat} {text : Text} (h : IsHexColor n text) : trim text = text := by
  obtain ⟨digits, rfl, -, hall⟩ := h
  have hink : ∀ c ∈ '#' :: digits, isBlank c = false := by
    intro c hc
    rcases List.mem_cons.mp hc with rfl | hc
    · decide
    · exact isBlank_of_isHexDigit (hall c hc)
  have htrim : trim ([] ++ ('#' :: digits ++ [])) = '#' :: digits :=
    trim_append nofun nofun (List.cons_ne_nil '#' digits)
      (fun c hc => hink c (List.mem_of_mem_head? hc)) fun c hc => hink c (List.mem_of_getLast? hc)
  rwa [List.append_nil] at htrim

/-- A part is the only thing on its line with a number sign, and it is a text but for the case of
letters.  No digit follows it. -/
structure Part.IsOnlySpelling (text : Text) (part : Part) : Prop where
  /-- The piece is the text but for the case of letters. -/
  same : asciiLower part.piece = asciiLower text
  /-- No number sign stands before it. -/
  before : '#' ∉ part.before
  /-- No number sign stands behind it. -/
  after : '#' ∉ part.after
  /-- No digit stands right behind it. -/
  stop : ∀ c, part.after.head? = some c → isHexDigit c = false

/-- The color that is read where a part stands. -/
def Part.read (n : Nat) (part : Part) : Part :=
  ⟨part.before, readColor n part.piece, part.piece.drop (colorLength n + 1) ++ part.after⟩

theorem Part.piece_append_read (n : Nat) (part : Part) :
    (part.read n).piece ++ (part.read n).after = part.piece ++ part.after := by
  rw [read, readColor, ← List.append_assoc, List.take_append_drop]

theorem Part.whole_read (n : Nat) (part : Part) : (part.read n).whole = part.whole := by
  rw [whole, piece_append_read]
  rfl

/-- The only color on a line is read from its beginning. -/
theorem Part.IsOnlySpelling.enumerates {n : Nat} {text : Text} {part : Part}
    (h : part.IsOnlySpelling text) (hcolor : IsHexColor n text) (hlength : 3 ≤ n) :
    Enumerates part.whole Part.IsColor [part.read n] := by
  obtain ⟨digits, hpiece, rfl, hall⟩ := hcolor.of_asciiLower_eq h.same
  have hnone : '#' ∉ digits ++ part.after := by
    rw [List.mem_append, not_or]
    exact ⟨fun hmem => absurd (hall '#' hmem) (by decide), h.after⟩
  have hread : (part.read digits.length).IsColor := by
    refine ⟨digits, part.after, ?_, hall, h.stop, hlength, ?_⟩
    · rw [Part.piece_append_read, hpiece, List.cons_append]
    · rw [Part.read, readColor, hpiece, List.take_succ_cons]
  refine ⟨?_, List.pairwise_singleton ..⟩
  intro other
  rw [List.mem_singleton]
  constructor
  · rintro rfl
    exact ⟨part.whole_read _, hread⟩
  · rintro ⟨hwhole, hother⟩
    obtain ⟨run, rest, hrun, -⟩ := id hother
    have hsigns : part.before ++ '#' :: (digits ++ part.after) =
        other.before ++ '#' :: (run ++ rest) := by
      rw [← hrun, ← List.cons_append, ← hpiece]
      exact hwhole.symm
    obtain ⟨hbefore, -, hafter⟩ := (List.append_cons_inj_of_notMem h.before hnone).mp hsigns
    have hpieces : part.piece ++ part.after = other.piece ++ other.after := by
      rw [hrun, hpiece, List.cons_append, hafter]
    have hat : colorAt? part.before (part.piece ++ part.after) = some (part.read digits.length) :=
      colorAt?_eq_some.mpr ⟨rfl, (part.piece_append_read _).symm, hread⟩
    have hat' : colorAt? part.before (part.piece ++ part.after) = some other :=
      colorAt?_eq_some.mpr ⟨hbefore.symm, hpieces, hother⟩
    exact Option.some.inj (hat'.symm.trans hat)

end Text

/-! ## The findings -/

namespace Detector

open AllowedValues (withTokens)
open Text (IsHexColor readColor)

/-- What the rule for colors says of a color. -/
def colorFinding (path : Path) (line : Text) (number : Nat) (color : Text) : Diagnostic :=
  .onLine path number .hardcodedColor color line (Rule.hexColor.render color)

theorem unsanctioned_color (allowed : AllowedValues) (path : Path) (line : Text) (number : Nat)
    (color : Text) :
    unsanctioned allowed .hexColor path line number [color] =
      if allowed.allows .hardcodedColor color then []
      else [colorFinding path line number color] := by
  show ([color].filter fun literal => !allowed.allows .hardcodedColor literal).map
    (colorFinding path line number) = _
  cases hallowed : allowed.allows .hardcodedColor color <;> simp [hallowed]

/-- The findings about colors are those of the colors on the line that are not allowed. -/
theorem detect_colors (allowed : AllowedValues) (path : Path) (line : Text) (number : Nat) :
    ∃ colors, Enumerates line Part.IsColor colors ∧
      ((designTokens allowed).detect path line number).filter (·.category = .hardcodedColor) =
        unsanctioned allowed .hexColor path line number (colors.map Part.piece) := by
  obtain ⟨colors, distances, radii, hcolors, -, -, -, hfindings⟩ :=
    detect_values allowed path line number
  refine ⟨colors, hcolors, ?_⟩
  rw [hfindings]
  simp only [List.filter_append, filter_unsanctioned]
  exact List.append_nil _

/-- A color of the tokens is allowed in any letter case. -/
theorem allows_of_asciiLower_eq {tokens : DesignTokens} {theme : Option Theme} {leaf color : Text}
    {n : Nat} (hleaf : leaf ∈ tokens.colors theme) (hcolor : IsHexColor n leaf)
    (hsame : Text.asciiLower color = Text.asciiLower leaf) :
    (withTokens tokens theme).allows .hardcodedColor color = true := by
  rw [AllowedValues.allows_color, AllowedValues.mem_colors_withTokens]
  refine Or.inr ⟨leaf, hleaf, ?_⟩
  rw [normalizeColor, normalizeColor, hcolor.trim_eq, (hcolor.of_asciiLower_eq hsame).trim_eq,
    hsame]

/-- On a line where a color of the tokens stands in any letter case, and nothing else that looks
like a color, that color is not reported if it has three or six digits.  If it has another number
of them, what is read of it is reported unless that is allowed, and nothing else is. -/
theorem detect_sanctioned {tokens : DesignTokens} {theme : Option Theme} {leaf : Text} {n : Nat}
    (hleaf : leaf ∈ tokens.colors theme) (hcolor : IsHexColor n leaf) (hlength : 3 ≤ n)
    {part : Part} (hpart : part.IsOnlySpelling leaf) (path : Path) (number : Nat) :
    ((designTokens (withTokens tokens theme)).detect path part.whole number).filter
        (·.category = .hardcodedColor) =
      if n = 3 ∨ n = 6 ∨
          (withTokens tokens theme).allows .hardcodedColor (readColor n part.piece) = true then []
      else [colorFinding path part.whole number (readColor n part.piece)] := by
  obtain ⟨colors, hcolors, hfindings⟩ :=
    detect_colors (withTokens tokens theme) path part.whole number
  rw [hfindings, hcolors.unique (hpart.enumerates hcolor hlength), List.map_singleton]
  show unsanctioned _ _ _ _ _ [readColor n part.piece] = _
  rw [unsanctioned_color]
  have hwhole : n = 3 ∨ n = 6 →
      (withTokens tokens theme).allows .hardcodedColor (readColor n part.piece) = true := by
    intro hn
    obtain ⟨digits, hpiece, hdigits, -⟩ := hcolor.of_asciiLower_eq hpart.same
    have hread : readColor n part.piece = part.piece := by
      refine List.take_of_length_le ?_
      rw [hpiece, List.length_cons, hdigits, colorLength]
      rcases hn with rfl | rfl <;> decide
    rw [hread]
    exact allows_of_asciiLower_eq hleaf hcolor hpart.same
  by_cases hallowed :
      (withTokens tokens theme).allows .hardcodedColor (readColor n part.piece) = true
  · rw [if_pos hallowed, if_pos (Or.inr (Or.inr hallowed))]
  · have hcut : ¬(n = 3 ∨ n = 6 ∨
        (withTokens tokens theme).allows .hardcodedColor (readColor n part.piece) = true) := by
      rintro (hn | hn | h)
      · exact hallowed (hwhole (Or.inl hn))
      · exact hallowed (hwhole (Or.inr hn))
      · exact hallowed h
    rw [if_neg hallowed, if_neg hcut]

/-- A document with a color and its transparency. -/
def transparentDocument : Text :=
  "\x7b\"modes\":\x7b\"light\":\x7b\"colors\":[\"#11AA3344\"]\x7d\x7d\x7d"

/-- Its color. -/
def transparentColor : Text := "#11AA3344"

/-- Its tokens. -/
def transparentTokens : DesignTokens := ⟨[("light", [transparentColor])], [], []⟩

/-- Its color on a line. -/
def transparentPart : Part := ⟨"color: ", "#11aa3344", ";"⟩

theorem mem_transparentTokens : transparentColor ∈ transparentTokens.colors none := by
  decide +kernel

theorem isHexColor_transparent : IsHexColor 8 transparentColor :=
  ⟨"11AA3344", rfl, rfl, List.all_eq_true.mp (by decide)⟩

theorem isOnlySpelling_transparent : transparentPart.IsOnlySpelling transparentColor := by
  refine ⟨by decide, by decide, by decide, ?_⟩
  intro c hc
  cases hc
  decide

theorem detect_sanctioned_transparent :
    transparentColor ∈ transparentTokens.colors none ∧ IsHexColor 8 transparentColor ∧ 3 ≤ 8 ∧
      transparentPart.IsOnlySpelling transparentColor ∧
      ((designTokens (withTokens transparentTokens none)).detect (.ofText "a.css")
          transparentPart.whole 1).filter (·.category = .hardcodedColor) =
        if 8 = 3 ∨ 8 = 6 ∨ (withTokens transparentTokens none).allows .hardcodedColor
            (readColor 8 transparentPart.piece) = true then []
        else [colorFinding (.ofText "a.css") transparentPart.whole 1
          (readColor 8 transparentPart.piece)] := by
  have hlength : 3 ≤ 8 := by decide
  exact ⟨mem_transparentTokens, isHexColor_transparent, hlength, isOnlySpelling_transparent,
    detect_sanctioned mem_transparentTokens isHexColor_transparent hlength
      isOnlySpelling_transparent (.ofText "a.css") 1⟩

/-- A color of the tokens can be reported. -/
theorem not_forall_sanctioned_spared :
    ¬∀ (text : Text) (tokens : DesignTokens) (theme : Option Theme) (leaf : Text) (n : Nat)
      (part : Part) (path : Path) (number : Nat),
        DesignTokens.read text = .ok tokens → leaf ∈ tokens.colors theme → n ∈ [3, 4, 6, 8] →
        IsHexColor n leaf → part.IsOnlySpelling leaf →
        ((designTokens (withTokens tokens theme)).detect path part.whole number).filter
          (·.category = .hardcodedColor) = [] := by
  intro h
  have hread : DesignTokens.read transparentDocument = .ok transparentTokens := by decide +kernel
  have hspared := h transparentDocument transparentTokens none _ 8 transparentPart (.ofText "a.css")
    1 hread mem_transparentTokens (by decide) isHexColor_transparent isOnlySpelling_transparent
  have hreported : ((designTokens (withTokens transparentTokens none)).detect (.ofText "a.css")
      transparentPart.whole 1).filter (·.category = .hardcodedColor) =
        [colorFinding (.ofText "a.css") transparentPart.whole 1 "#11aa33"] := by decide +kernel
  rw [hreported] at hspared
  cases hspared

end Detector

end LiteralAudit
