import LiteralAudit.Proofs.Yaml.Cursor
import LiteralAudit.Yaml.Token.Anchor
import LiteralAudit.Yaml.Token.Block
import LiteralAudit.Yaml.Token.Directive
import LiteralAudit.Yaml.Token.Plain
import LiteralAudit.Yaml.Token.Quoted

/-!
# Reading one token

Each reader of a token stops at a cursor that it reaches and fails at a place that it reaches.
There is one theorem for each: `Anchor.reads_scan`, `Plain.reads_scan`, `Quoted.reads_scan`,
`Block.reads_scan`, `Tag.reads_scan` and `Directive.reads_scan`.

A reader that skips a character without a look at it has looked before: the token begins with a
character that breaks no line.
-/

namespace LiteralAudit.Yaml

open Cursor

variable {cursor : Cursor}

/-! ## Characters that break no line -/

/-- A kind of characters breaks no line if none of the five breaks is of it. -/
theorem isBreak_eq_false {p : Char → Bool}
    (hp : ['\n', '\r', '\u0085', '\u2028', '\u2029'].any p = false) (c : Char)
    (h : p c = true) : isBreak c = false := by
  cases hbreak : isBreak c with
  | false => rfl
  | true =>
      have hmem : c ∈ ['\n', '\r', '\u0085', '\u2028', '\u2029'] := by
        simpa [isBreak, or_assoc] using hbreak
      exact absurd h (List.any_eq_false.mp hp c hmem)

theorem isBreak_of_isNameChar : ∀ c, isNameChar c = true → isBreak c = false :=
  isBreak_eq_false (by decide)

theorem isBreak_of_isDigit : ∀ c, Text.isDigit c = true → isBreak c = false :=
  isBreak_eq_false (by decide)

theorem isBreak_of_isHexDigit : ∀ c, Text.isHexDigit c = true → isBreak c = false :=
  isBreak_eq_false (by decide)

/-- After what was read, the line has to end. -/
theorem reads_lineEnd {α : Type} (read : α) (activity : Activity) (began : Place)
    (cursor : Cursor) :
    cursor.Reads Prod.snd
      (if endsLine cursor.skipComment.rest then .ok (read, cursor.skipComment.skipBreak)
        else .error (.within activity began .expectedLineEnd cursor.skipComment.place)) := by
  have hcomment := reaches_skipComment cursor
  split
  · exact hcomment.trans (reaches_skipBreak _)
  · exact .fail _ _ _ hcomment

/-! ## Anchors and aliases -/

/-- The name of an anchor is read up to the first character that cannot be in one. -/
theorem Anchor.reads_scan (activity : Activity) (h : cursor.KeepsLine) :
    cursor.Reads Prod.snd (Anchor.scan activity cursor) := by
  have hname := (reaches_skip h).trans (reaches_takeWhile isBreak_of_isNameChar cursor.skip)
  rw [Anchor.scan]
  cases hread : cursor.skip.takeWhile isNameChar with
  | mk name stop =>
      rw [hread] at hname
      dsimp only
      split
      · exact hname
      · exact .fail _ _ _ hname

/-! ## Plain scalars -/

namespace Plain

/-- A plain scalar is read on over white space and breaks, and stops where its last word ends. -/
theorem reads_scanFrom (inFlow : Bool) (indent : Nat) (began : Place) (words : Text) (gap : Gap)
    (text : Text) (place : Place) :
    (Cursor.mk text place).Reads Scanned.cursor
      (scanFrom inFlow indent began words gap text place) := by
  fun_induction scanFrom inFlow indent began words gap text place with
  | case1 => exact .refl _
  | case2 words gap rest place ih => exact .pair ih
  | case3 words gap c rest place hpair hbreak ih => exact .newLine hbreak hpair ih
  | case4 => exact .fail _ _ _ (.refl _)
  | case5 words gap c rest place hpair hbreak hgap htab ih => exact .char hbreak ih
  | case6 => exact Reaches.refl _
  | case7 => exact Reaches.refl _
  | case8 => exact .fail _ _ _ (.refl _)
  | case9 => exact Reaches.refl _
  | case10 words gap c rest place hpair hbreak hgap hend hmarker hcolon hbefore ih =>
      exact .char hbreak ih

theorem reads_scan (inFlow : Bool) (indent : Nat) (cursor : Cursor) :
    cursor.Reads Scanned.cursor (scan inFlow indent cursor) :=
  reads_scanFrom inFlow indent cursor.place [] .nothing cursor.rest cursor.place

end Plain

/-! ## Quoted scalars -/

namespace Quoted

/-- An escape by number has only digits behind it. -/
theorem isBreak_of_codeChar {count : Nat} {text : Text} {escaped : Char}
    (h : codeChar count text = .ok escaped) : ∀ c ∈ text.take count, isBreak c = false := by
  intro c hc
  rw [codeChar] at h
  split at h
  · next hdigits =>
      rw [Bool.and_eq_true, List.all_eq_true] at hdigits
      exact isBreak_of_isHexDigit c (hdigits.2 c hc)
  · cases h

/-- A quoted scalar is read on over white space, breaks and escapes up to its closing quote. -/
theorem reads_scanFrom (quote : Char) (began : Place) (words : Text) (gap : Gap) (text : Text)
    (place : Place) :
    (Cursor.mk text place).Reads Prod.snd (scanFrom quote began words gap text place) := by
  fun_induction scanFrom quote began words gap text place with
  | case1 => exact .fail _ _ _ (.refl _)
  | case2 words gap place rest ih => exact .pair ih
  | case3 words gap place c rest hpair hbreak ih => exact .newLine hbreak hpair ih
  | case4 words gap place c rest hpair hbreak hgap ih => exact .char hbreak ih
  | case5 => exact .fail _ _ _ (.refl _)
  -- A quote that is written twice.
  | case6 words gap place joined rest hquote hbreak hgap hpair hmarker ih =>
      subst hquote
      exact .char hbreak (.char hbreak ih)
  | case7 words gap place joined rest hquote hbreak => exact Reads.char hbreak (Reaches.refl _)
  | case8 words gap place joined rest hsecond hpair hbreak =>
      exact Reads.char hbreak (Reaches.refl _)
  -- A backslash: nothing behind it, two forms of a break, and a letter.
  | case9 => exact .fail _ _ _ (.refl _)
  | case10 words gap place joined c hbreak hgap hquote hescape rest hpair hmarker ih =>
      exact .char hbreak (.pair ih)
  | case11 words gap place joined c hbreak hgap hquote hescape letter rest hpair hletter _ _ ih =>
      exact .char hbreak (.newLine hletter hpair ih)
  | case12 => exact .fail _ _ _ (.refl _)
  | case13 words gap place joined c hbreak hgap hquote hescape letter rest hpair hletter behind
      escaped _ _ _ ih =>
      exact .char hbreak (.char hletter ih)
  | case14 words gap place c hbreak hgap hquote hescape letter rest hpair hletter behind =>
      refine Reads.char hbreak (Reads.char hletter ?_)
      exact .fail _ _ _ (.refl _)
  | case15 words gap place joined c hbreak hgap hquote hescape letter rest hpair hletter behind
      count hcode escaped hescaped _ _ ih =>
      refine .char hbreak (.char hletter ?_)
      have hdigits : Reaches ⟨rest, behind⟩ (skipMany ⟨rest, behind⟩ count) :=
        reaches_skipMany (isBreak_of_codeChar hescaped)
      refine .of_reaches hdigits ?_
      rw [← rest_skipMany (Cursor.mk rest behind)] at ih ⊢
      exact ih
  | case16 words gap place joined c rest hpair hbreak hgap hmarker hquote hescape ih =>
      exact .char hbreak ih

theorem reads_scan {quote : Char} (h : cursor.KeepsLine) :
    cursor.Reads Prod.snd (scan quote cursor) :=
  .of_reaches (reaches_skip h)
    (reads_scanFrom quote cursor.place [] .nothing cursor.skip.rest cursor.skip.place)

end Quoted

/-! ## Literal and folded scalars -/

namespace Block

theorem keepsLine_of_chomping {chomping : Chomping} (h : chomping? cursor = some chomping) :
    cursor.KeepsLine := by
  rw [chomping?] at h
  split at h
  · next hplus => exact keepsLine_of_isAt hplus rfl
  · split at h
    · next hminus => exact keepsLine_of_isAt hminus rfl
    · cases h

/-- An indentation is one digit. -/
theorem reads_indent? (began : Place) (cursor : Cursor) :
    cursor.Reads (fun indent => if indent.isSome then cursor.skip else cursor)
      (indent? began cursor) := by
  rw [indent?]
  cases hhead : cursor.rest.head? with
  | none => exact Reaches.refl _
  | some c =>
      dsimp only
      split
      · exact .fail _ _ _ (.refl _)
      · split
        · next hdigit =>
            refine reaches_skip fun next hnext => ?_
            rw [hhead] at hnext
            cases hnext
            exact isBreak_of_isDigit c hdigit
        · exact Reaches.refl _

/-- The header of a block scalar has a sign and a number in either order. -/
theorem reads_scanHeader (began : Place) (cursor : Cursor) :
    cursor.Reads Prod.snd (scanHeader began cursor) := by
  rw [scanHeader]
  cases hchomping : chomping? cursor with
  | some chomping =>
      have hsign := reaches_skip (keepsLine_of_chomping hchomping)
      refine .of_reaches hsign (.bind (reads_indent? began cursor.skip) fun indent _ => ?_)
      cases indent with
      | none => exact reads_lineEnd ..
      | some indent => exact reads_lineEnd ..
  | none =>
      refine .bind (reads_indent? began cursor) fun indent _ => ?_
      cases indent with
      | none => exact reads_lineEnd ..
      | some indent =>
          dsimp only
          cases hsign : chomping? cursor.skip with
          | none => exact reads_lineEnd ..
          | some chomping =>
              exact .of_reaches (reaches_skip (keepsLine_of_chomping hsign)) (reads_lineEnd ..)

theorem reads_scanBreaks (began : Place) (indent : Option Nat) (deepest : Nat) (text : Text)
    (place : Place) :
    (Cursor.mk text place).Reads (fun read => read.2.2)
      (scanBreaks began indent deepest text place) := by
  fun_induction scanBreaks began indent deepest text place with
  | case1 => exact Reaches.refl _
  | case2 deepest rest place ih => exact .pair (.bind ih fun _ _ => Reaches.refl _)
  | case3 deepest c rest place hpair inIndent hspace ih =>
      rw [Bool.and_eq_true, decide_eq_true_eq] at hspace
      obtain ⟨rfl, -⟩ := hspace
      exact .char (by decide) ih
  | case4 => exact .fail _ _ _ (.refl _)
  | case5 deepest c rest place hpair inIndent hspace htab hbreak ih =>
      exact .newLine hbreak hpair (.bind ih fun _ _ => Reaches.refl _)
  | case6 => exact Reaches.refl _

/-- The lines of a block scalar are read until one is indented less, or the text ends. -/
theorem reads_scanLines (began : Place) (isLiteral : Bool) (chomping : Chomping) (indent : Nat)
    (fuel : Nat) (text : Text) (first : Option Char) (later : Text) (afterBlank : Bool)
    (cursor : Cursor) :
    cursor.Reads Prod.snd
      (scanLines began isLiteral chomping indent fuel text first later afterBlank cursor) := by
  induction fuel generalizing text first later afterBlank cursor with
  | zero => exact Reaches.refl _
  | succ fuel ih =>
      rw [scanLines.eq_def]
      dsimp only
      split
      · have hline := reaches_takeWhile (p := fun c => !isBreak c) (by simp) cursor
        have hbehind := hline.trans (reaches_skipBreak _)
        exact .of_reaches hbehind (.bind (reads_scanBreaks ..) fun _ _ => ih ..)
      · exact Reaches.refl _

theorem reads_scan {isLiteral : Bool} {enclosing : Nat} (h : cursor.KeepsLine) :
    cursor.Reads Prod.snd (scan isLiteral enclosing cursor) := by
  refine .of_reaches (reaches_skip h) (.bind (reads_scanHeader ..) fun header _ => ?_)
  exact .bind (reads_scanBreaks ..) fun _ _ => reads_scanLines ..

end Block

/-! ## Tags -/

namespace Tag

theorem isBreak_of_isTagChar : ∀ c, isTagChar c = true → isBreak c = false :=
  isBreak_eq_false (by decide)

theorem isBreak_of_isFullTagChar : ∀ c, isFullTagChar c = true → isBreak c = false :=
  isBreak_eq_false (by decide)

/-- An escaped byte is three characters of one line. -/
theorem reaches_octet {octet : Nat} (h : octet? cursor.rest = some octet) :
    cursor.Reaches (cursor.skipMany 3) := by
  refine reaches_skipMany ?_
  rw [octet?.eq_def] at h
  split at h
  · next a b rest hrest =>
      split at h
      · next hdigits =>
          rw [Bool.and_eq_true] at hdigits
          rw [hrest]
          simp only [List.take_succ_cons, List.take_zero, List.forall_mem_cons, List.not_mem_nil]
          exact ⟨rfl, isBreak_of_isHexDigit a hdigits.1, isBreak_of_isHexDigit b hdigits.2, nofun⟩
      · cases h
  · cases h

section Scanning

variable {fail : Problem → Place → SyntaxFault}
  (hfail : ∀ problem place, (fail problem place).place = place)
include hfail

theorem reads_fail {α : Type} {stop : α → Cursor} (problem : Problem) {next : Cursor}
    (h : cursor.Reaches next) : cursor.Reads stop (.error (fail problem next.place)) :=
  ⟨next.rest, by rw [hfail]; exact h⟩

theorem reads_scanLater (count : Nat) (cursor : Cursor) :
    cursor.Reads Prod.snd (scanLater fail count cursor) := by
  induction count generalizing cursor with
  | zero => exact Reaches.refl _
  | succ count ih =>
      rw [scanLater]
      cases hoctet : octet? cursor.rest with
      | none => exact reads_fail hfail _ (.refl _)
      | some octet =>
          dsimp only
          split
          · exact reads_fail hfail _ (.refl _)
          · exact .of_reaches (reaches_octet hoctet) (.bind (ih _) fun _ _ => Reaches.refl _)

theorem reads_scanEscape (cursor : Cursor) : cursor.Reads Prod.snd (scanEscape fail cursor) := by
  rw [scanEscape]
  cases hoctet : octet? cursor.rest with
  | none => exact reads_fail hfail _ (.refl _)
  | some octet =>
      dsimp only
      split
      · exact reads_fail hfail _ (.refl _)
      · exact .of_reaches (reaches_octet hoctet)
          (.bind (reads_scanLater hfail _ _) fun _ _ => Reaches.refl _)

variable {p : Char → Bool} (hp : ∀ c, p c = true → isBreak c = false)
include hp

theorem reads_scanChars (fuel : Nat) (cursor : Cursor) :
    cursor.Reads Prod.snd (scanChars fail p fuel cursor) := by
  induction fuel generalizing cursor with
  | zero => exact Reaches.refl _
  | succ fuel ih =>
      rw [scanChars]
      cases hhead : cursor.rest.head? with
      | none => exact Reaches.refl _
      | some c =>
          dsimp only
          split
          · exact .bind (reads_scanEscape hfail cursor) fun _ _ =>
              .bind (ih _) fun _ _ => Reaches.refl _
          · split
            · next hc =>
                have hkeeps : cursor.KeepsLine := by
                  intro next hnext
                  rw [hhead] at hnext
                  cases hnext
                  exact hp c hc
                exact .of_reaches (reaches_skip hkeeps) (.bind (ih _) fun _ _ => Reaches.refl _)
            · exact Reaches.refl _

theorem reads_scanText (start : Text) (cursor : Cursor) :
    cursor.Reads Prod.snd (scanText fail p start cursor) := by
  refine .bind (reads_scanChars hfail hp _ cursor) fun read _ => ?_
  obtain ⟨octets, stop⟩ := read
  dsimp only
  split
  · exact reads_fail hfail _ (.refl _)
  · exact Reaches.refl _

end Scanning

/-- The handle of a tag is passed, whether or not it is closed. -/
theorem reaches_scanHandle (h : cursor.KeepsLine) : cursor.Reaches (scanHandle cursor).2 := by
  have hname := (reaches_skip h).trans (reaches_takeWhile isBreak_of_isNameChar cursor.skip)
  rw [scanHandle]
  cases hread : cursor.skip.takeWhile isNameChar with
  | mk name stop =>
      rw [hread] at hname
      dsimp only
      split
      · next hmark => exact hname.trans (reaches_skip (keepsLine_of_isAt hmark rfl))
      · exact hname

theorem reads_scan {inFlow : Bool} (h : cursor.KeepsLine) :
    cursor.Reads (fun read => read.2.2) (scan inFlow cursor) := by
  -- Whatever the tag is, a word has to end behind it.
  have hend (handle : Text) (suffix : List UInt8) (stop : Cursor) :
      stop.Reads (fun read : Text × List UInt8 × Cursor => read.2.2)
        (if endsWord stop.rest || (inFlow && stop.isAt ',') then .ok (handle, suffix, stop)
          else .error (.within .tag cursor.place .expectedGapOrBreak stop.place)) := by
    split
    · exact Reaches.refl _
    · exact .fail _ _ _ (.refl _)
  rw [scan]
  split
  · next hangle =>
      have hopen := (reaches_skip h).trans (reaches_skip (keepsLine_of_isAt hangle rfl))
      refine .of_reaches hopen
        (.bind (reads_scanText (fun _ _ => rfl) isBreak_of_isFullTagChar ..) fun read _ => ?_)
      obtain ⟨full, stop⟩ := read
      dsimp only
      split
      · next hclose =>
          exact .of_reaches (reaches_skip (keepsLine_of_isAt hclose rfl)) (hend ..)
      · exact .fail _ _ _ (.refl _)
  · have hhandle := reaches_scanHandle h
    cases hread : scanHandle cursor with
    | mk handle behind =>
        rw [hread] at hhandle
        dsimp only
        split
        · exact .of_reaches hhandle
            (.bind (reads_scanText (fun _ _ => rfl) isBreak_of_isTagChar ..) fun _ _ => hend ..)
        · refine .of_reaches hhandle
            (.bind (reads_scanText (fun _ _ => rfl) isBreak_of_isTagChar ..) fun read _ => ?_)
          obtain ⟨suffix, stop⟩ := read
          dsimp only
          split
          · exact hend ..
          · exact hend ..

end Tag

/-! ## Directives -/

namespace Directive

theorem reads_scanNumber (began : Place) (cursor : Cursor) :
    cursor.Reads Prod.snd (scanNumber began cursor) := by
  have hdigits := reaches_takeWhile isBreak_of_isDigit cursor
  have htaken := takeWhile_fst Text.isDigit cursor
  rw [scanNumber]
  cases hread : cursor.takeWhile Text.isDigit with
  | mk digits stop =>
      rw [hread] at hdigits htaken
      dsimp only
      split
      · exact .fail _ _ _ (.refl _)
      · split
        · next hlong =>
            refine .fail _ _ _ (reaches_skipMany fun c hc => ?_)
            rw [← List.takeWhile_append_dropWhile (p := Text.isDigit) (l := cursor.rest), ← htaken,
              List.take_append_of_le_length (Nat.le_of_lt hlong)] at hc
            have hmem : c ∈ cursor.rest.takeWhile Text.isDigit := htaken ▸ List.mem_of_mem_take hc
            exact isBreak_of_isDigit c (List.all_eq_true.mp List.all_takeWhile c hmem)
        · exact hdigits

theorem reads_scanVersion (began : Place) (cursor : Cursor) :
    cursor.Reads Prod.snd (scanVersion began cursor) := by
  have hgap := reaches_takeWhile (fun _ => isBreak_of_isGap) cursor
  refine .of_reaches hgap (.bind (reads_scanNumber ..) fun read _ => ?_)
  obtain ⟨major, dot⟩ := read
  dsimp only
  split
  · next hdot =>
      exact .of_reaches (reaches_skip (keepsLine_of_isAt hdot rfl))
        (.bind (reads_scanNumber ..) fun _ _ => Reaches.refl _)
  · exact .fail _ _ _ (.refl _)

theorem reads_scanHandle (began : Place) (cursor : Cursor) :
    cursor.Reads Prod.snd (scanHandle began cursor) := by
  rw [scanHandle]
  split
  · next hmark =>
      have hhandle := Tag.reaches_scanHandle (keepsLine_of_isAt hmark rfl)
      cases hread : Tag.scanHandle cursor with
      | mk handle stop =>
          rw [hread] at hhandle
          dsimp only
          split
          · exact hhandle
          · exact .fail _ _ _ hhandle
  · exact .fail _ _ _ (.refl _)

theorem reads_scanTag (began : Place) (cursor : Cursor) :
    cursor.Reads Prod.snd (scanTag began cursor) := by
  have hgap := reaches_takeWhile (fun _ => isBreak_of_isGap) cursor
  refine .of_reaches hgap (.bind (reads_scanHandle ..) fun read _ => ?_)
  obtain ⟨handle, gap⟩ := read
  dsimp only
  split
  · exact .fail _ _ _ (.refl _)
  · refine .of_reaches (reaches_takeWhile (fun _ => isBreak_of_isGap) gap)
      (.bind (Tag.reads_scanText (fun _ _ => rfl) Tag.isBreak_of_isFullTagChar ..) fun read _ => ?_)
    obtain ⟨start, stop⟩ := read
    dsimp only
    split
    · exact Reaches.refl _
    · exact .fail _ _ _ (.refl _)

theorem reads_scan (h : cursor.KeepsLine) : cursor.Reads Prod.snd (scan cursor) := by
  have hname := (reaches_skip h).trans (reaches_takeWhile isBreak_of_isNameChar cursor.skip)
  rw [scan]
  cases hread : cursor.skip.takeWhile isNameChar with
  | mk name behind =>
      rw [hread] at hname
      dsimp only
      split
      · exact .fail _ _ _ hname
      · split
        · exact .fail _ _ _ hname
        · refine .of_reaches hname ?_
          split
          · exact .bind (reads_scanVersion ..) fun _ _ => reads_lineEnd ..
          · split
            · exact .bind (reads_scanTag ..) fun _ _ => reads_lineEnd ..
            · exact .fail _ _ _ (.refl _)

end Directive
end LiteralAudit.Yaml
