import LiteralAudit.Yaml.Cursor

/-!
# Folding lines

The gap between two words of a plain or quoted scalar.  A gap on one line is kept as it is.  Of a
gap across lines only the line breaks count: a single line feed becomes a space, and of several
breaks the first is dropped if it is a line feed.
-/

namespace LiteralAudit.Yaml

/-- What stands between two words of a scalar. -/
inductive Gap where
  /-- Spaces and tabs on one line. -/
  | within (blanks : Text)
  /-- Line breaks.  The first is missing if it was escaped. -/
  | across (first : Option Char) (later : Text)
  deriving DecidableEq, Repr

namespace Gap

/-- No gap at all. -/
def nothing : Gap := .within []

/-- Whether the gap goes across lines. -/
def isAcross : Gap → Bool
  | .within _ => false
  | .across _ _ => true

/-- The gap with one more space or tab at its end. -/
def addBlank (c : Char) : Gap → Gap
  | .within blanks => .within (blanks ++ [c])
  | .across first later => .across first later

/-- The gap with one more line break at its end. -/
def addBreak (c : Char) : Gap → Gap
  | .within _ => .across (some c) []
  | .across first later => .across first (later ++ [c])

/-- What the gap becomes inside the scalar. -/
def fold : Gap → Text
  | .within blanks => blanks
  | .across none later => later
  | .across (some '\n') [] => [' ']
  | .across (some '\n') later => later
  | .across (some c) later => c :: later

end Gap

end LiteralAudit.Yaml
