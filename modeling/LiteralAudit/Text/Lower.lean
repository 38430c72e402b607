import LiteralAudit.Text.Basic
import LiteralAudit.Text.CaseTable

/-!
# Lower case

Lower case of a whole text.  One capital has a lower case of two characters, the dotted capital
I.  A capital sigma at the end of a word becomes a final sigma: there is a cased character
before it and none behind it, where characters that are ignored for case are passed over.
-/

namespace LiteralAudit.Text

/-- The lower case of one code point whose lower case is a single one. -/
def lowerPoint (point : Nat) : Nat :=
  match lowerRuns.find? fun run =>
      run.first ≤ point && point ≤ run.last && (point - run.first) % run.step = 0 with
  | some run => ((point : Int) + run.shift).toNat
  | none => point

/-- Whether a character has case. -/
def isCased (c : Char) : Bool := inRanges casedRanges c.toNat

/-- Whether a character is passed over when the neighbours of a sigma are looked for. -/
def isCaseIgnorable (c : Char) : Bool := inRanges caseIgnorableRanges c.toNat

/-- Whether the first character that is not passed over has case. -/
def meetsCased (text : Text) : Bool :=
  match text.dropWhile isCaseIgnorable with
  | [] => false
  | c :: _ => isCased c

/-- The lower case of a character, given the text before it, backwards, and the text behind. -/
def lowerChar (before : Text) (c : Char) (after : Text) : Text :=
  if c = '\u03a3' then
    [if meetsCased before && !meetsCased after then '\u03c2' else '\u03c3']
  else if c = '\u0130' then ['i', '\u0307']
  else [Char.ofNat (lowerPoint c.toNat)]

/-- The lower case of a text that stands behind `before`, which is read backwards. -/
def lowerBehind (before : Text) : Text → Text
  | [] => []
  | c :: text => lowerChar before c text ++ lowerBehind (c :: before) text

/-- The lower case of a text. -/
def lower (text : Text) : Text := lowerBehind [] text

end LiteralAudit.Text
