import LiteralAudit.Text.Basic
import LiteralAudit.Text.WordTable

/-!
# Words

A word is a run of word characters.  Words are compared without regard to case by simple case
folding: of the characters beyond ASCII only the long s folds to an ASCII letter of the words
the library looks for, and the Kelvin sign folds to `k`.
-/

namespace LiteralAudit.Text

/-- Whether a character takes part in words. -/
def isWord (c : Char) : Bool :=
  if c.toNat < 0x80 then isLetter c || isDigit c || c = '_'
  else inRanges wordRanges c.toNat

/-- The small ASCII letter that a character folds to, and otherwise the character. -/
def fold (c : Char) : Char :=
  if c = 'ſ' then 's' else if c = '\u212a' then 'k' else c.toLower

end LiteralAudit.Text
