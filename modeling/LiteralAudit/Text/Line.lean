import LiteralAudit.Text.Basic

/-!
# Lines

A line ends at a line feed, at a carriage return, or at the two together, which count as one
break.  There is no line behind a final break.
-/

namespace LiteralAudit.Text

/-- The pieces that are each ended by a character.  A piece behind the last occurrence counts if
it is not empty. -/
def splitEnded (ending : Char) (text : Text) : List Text :=
  let pieces := splitOn ending text
  if pieces.getLast? = some [] then pieces.dropLast else pieces

/-- The lines of a piece between two line feeds: a carriage return at its end belongs to the
break, every other one is a break of its own. -/
def splitReturns (piece : Text) : List Text :=
  splitOn '\r' ((dropEnd? ['\r'] piece).getD piece)

/-- The lines of a text, in order, without their breaks. -/
def splitLines (text : Text) : List Text := (splitEnded '\n' text).flatMap splitReturns

end LiteralAudit.Text
