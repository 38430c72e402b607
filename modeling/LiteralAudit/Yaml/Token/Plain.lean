import LiteralAudit.Yaml.SyntaxFault
import LiteralAudit.Yaml.Token
import LiteralAudit.Yaml.Token.Folding

/-!
# Plain scalars

A plain scalar is a run of words.  It ends at a colon before the end of a word, at a comment
behind a gap, at a document marker, or where a line is not indented enough; within brackets and
braces punctuation ends it too.
-/

namespace LiteralAudit.Yaml.Plain

/-- The punctuation of brackets and braces. -/
def isPunctuation (c : Char) : Bool :=
  c = ',' || c = '[' || c = ']' || c = '\x7b' || c = '\x7d'

/-- Whether a word ends before a character and the text behind it. -/
def endsBefore (inFlow : Bool) (c : Char) (rest : Text) : Bool :=
  (c = ':' && endsWord rest) || (inFlow && isPunctuation c)

/-- Whether a colon in brackets or braces stands directly before punctuation. -/
def isStrayColon (inFlow : Bool) (c : Char) (rest : Text) : Bool :=
  inFlow && c = ':' && rest.head?.any fun next => isPunctuation next || next = '?'

/-- A plain scalar and what follows it. -/
structure Scanned where
  /-- The text of the scalar. -/
  text : Text
  /-- Whether the gap behind the scalar goes across lines. -/
  brokeLine : Bool
  /-- The cursor behind that gap. -/
  cursor : Cursor
  deriving DecidableEq, Repr

/-- Reads on inside a plain scalar.  `words` is what was read so far, the last character first,
and `gap` is the gap behind it. -/
def scanFrom (inFlow : Bool) (indent : Nat) (began : Place) (words : Text) (gap : Gap) :
    Text → Place → Except SyntaxFault Scanned
  | [], place => .ok ⟨words.reverse, gap.isAcross, ⟨[], place⟩⟩
  | '\r' :: '\n' :: rest, place =>
      scanFrom inFlow indent began words (gap.addBreak '\n') rest (place.newLine 2)
  | c :: rest, place =>
      let finish : Except SyntaxFault Scanned :=
        .ok ⟨words.reverse, gap.isAcross, ⟨c :: rest, place⟩⟩
      if isBreak c then
        scanFrom inFlow indent began words (gap.addBreak (foldBreak c)) rest
          (place.newLine c.utf8Size)
      else if isGap c then
        if c = '\t' && gap.isAcross && place.column < indent then
          .error (.within .plainScalar began .tabBreaksIndent place)
        else scanFrom inFlow indent began words (gap.addBlank c) rest (place.after c)
      else if gap ≠ .nothing && ((!inFlow && place.column < indent) || c = '#') then finish
      else if place.column = 0 && atMarker (c :: rest) then finish
      else if isStrayColon inFlow c rest then
        .error (.within .plainScalar began .strayColon place)
      else if endsBefore inFlow c rest then finish
      else
        scanFrom inFlow indent began (c :: gap.fold.reverse ++ words) .nothing rest
          (place.after c)

/-- Reads a plain scalar at a cursor.  Its later lines are indented by `indent` at least. -/
def scan (inFlow : Bool) (indent : Nat) (cursor : Cursor) : Except SyntaxFault Scanned :=
  scanFrom inFlow indent cursor.place [] .nothing cursor.rest cursor.place

end LiteralAudit.Yaml.Plain
