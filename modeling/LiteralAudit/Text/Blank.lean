import LiteralAudit.Text.Basic

/-!
# White space

The twenty-five characters with the Unicode property White_Space, and trimming by them.
-/

namespace LiteralAudit.Text

/-- The ranges of code points that are white space. -/
def blankRanges : List (Nat × Nat) :=
  [(0x09, 0x0d), (0x20, 0x20), (0x85, 0x85), (0xa0, 0xa0), (0x1680, 0x1680), (0x2000, 0x200a),
    (0x2028, 0x2029), (0x202f, 0x202f), (0x205f, 0x205f), (0x3000, 0x3000)]

/-- Whether a character is white space. -/
def isBlank (c : Char) : Bool := inRanges blankRanges c.toNat

/-- The text without the white space at its beginning. -/
def trimStart (text : Text) : Text := text.dropWhile isBlank

/-- The text without the white space at its end. -/
def trimEnd (text : Text) : Text := dropEndWhile isBlank text

/-- The text without the white space at both ends. -/
def trim (text : Text) : Text := trimEnd (trimStart text)

end LiteralAudit.Text
