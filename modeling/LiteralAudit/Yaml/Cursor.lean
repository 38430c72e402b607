import LiteralAudit.Text.Basic

/-!
# Walking over YAML text

A place in a YAML text has a byte offset, a line and a column, all counted from zero.  A cursor
is a place together with the text behind it.

YAML knows five line breaks: the line feed, the carriage return, the two together, the next-line
character and the two separators U+2028 and U+2029.  Inside a scalar the separators stay what
they are, and all other breaks become line feeds.
-/

namespace LiteralAudit.Yaml

/-! ## Classes of characters -/

/-- The space and the tab. -/
def isGap (c : Char) : Bool := c = ' ' || c = '\t'

/-- The characters that break a line. -/
def isBreak (c : Char) : Bool :=
  c = '\n' || c = '\r' || c = '\u0085' || c = '\u2028' || c = '\u2029'

/-- What a line break becomes inside a scalar. -/
def foldBreak (c : Char) : Char := if c = '\u2028' || c = '\u2029' then c else '\n'

/-- The characters of anchors, tag handles and directive names. -/
def isNameChar (c : Char) : Bool := Text.isLetter c || Text.isDigit c || c = '-' || c = '_'

/-- Whether a word ends before the text: at its end, a gap or a break. -/
def endsWord : Text → Bool
  | [] => true
  | c :: _ => isGap c || isBreak c

/-- Whether a line ends before the text: at its end or a break. -/
def endsLine : Text → Bool
  | [] => true
  | c :: _ => isBreak c

/-- Whether the text begins with a document marker: three equal characters and the end of a
word. -/
def isMarker (mark : Char) : Text → Bool
  | a :: b :: c :: rest => a = mark && b = mark && c = mark && endsWord rest
  | _ => false

/-- Whether the text begins with either document marker. -/
def atMarker (text : Text) : Bool := isMarker '-' text || isMarker '.' text

/-! ## Places -/

/-- A place in a text. -/
structure Place where
  /-- The number of bytes before the place. -/
  offset : Nat
  /-- The number of line breaks before the place. -/
  line : Nat
  /-- The number of characters before the place on its line. -/
  column : Nat
  deriving DecidableEq, Repr

namespace Place

/-- The beginning of a text. -/
def start : Place := ⟨0, 0, 0⟩

/-- The place behind a character that breaks no line. -/
def after (place : Place) (c : Char) : Place :=
  ⟨place.offset + c.utf8Size, place.line, place.column + 1⟩

/-- The beginning of the next line, behind a break of some bytes. -/
def newLine (place : Place) (size : Nat) : Place := ⟨place.offset + size, place.line + 1, 0⟩

/-- Whether two places have the same line and column. -/
def sameSpot (a b : Place) : Bool := a.line = b.line && a.column = b.column

/-- Whether the place is the beginning of the text. -/
def atStart (place : Place) : Bool := place.line = 0 && place.column = 0

/-- Line and column in words, counted from one.  Nothing is said of the beginning of the text. -/
def message (place : Place) : Text :=
  if place.atStart then []
  else " at line " ++ Text.ofNat (place.line + 1) ++ " column " ++ Text.ofNat (place.column + 1)

end Place

/-! ## Cursors -/

/-- A place and the text behind it. -/
structure Cursor where
  /-- The text behind the place. -/
  rest : Text
  /-- The place. -/
  place : Place
  deriving DecidableEq, Repr

namespace Cursor

/-- The cursor at the beginning of a text. -/
def ofText (text : Text) : Cursor := ⟨text, .start⟩

/-- Whether the next character is the given one. -/
def isAt (cursor : Cursor) (c : Char) : Bool := cursor.rest.head? = some c

/-- Whether the next character satisfies `p`. -/
def isAtAny (cursor : Cursor) (p : Char → Bool) : Bool := cursor.rest.head?.any p

/-- The cursor behind the next character, which breaks no line. -/
def skip : Cursor → Cursor
  | ⟨[], place⟩ => ⟨[], place⟩
  | ⟨c :: rest, place⟩ => ⟨rest, place.after c⟩

/-- The cursor behind some characters, which break no line. -/
def skipMany (cursor : Cursor) : Nat → Cursor
  | 0 => cursor
  | count + 1 => cursor.skip.skipMany count

/-- The characters before the first one that fails the test, and the cursor behind them.  No
character that passes the test breaks a line. -/
def takeWhile (p : Char → Bool) (cursor : Cursor) : Text × Cursor :=
  go cursor.rest cursor.place
where
  /-- The same from a text and its place. -/
  go : Text → Place → Text × Cursor
    | [], place => ([], ⟨[], place⟩)
    | c :: rest, place =>
        if p c then
          let (taken, stop) := go rest (place.after c)
          (c :: taken, stop)
        else ([], ⟨c :: rest, place⟩)

/-- The cursor behind the characters that pass the test. -/
def dropWhile (p : Char → Bool) (cursor : Cursor) : Cursor := (cursor.takeWhile p).2

/-- The line break at the cursor, as it is written inside a scalar, and the cursor behind it. -/
def takeBreak? : Cursor → Option (Char × Cursor)
  | ⟨'\r' :: '\n' :: rest, place⟩ => some ('\n', ⟨rest, place.newLine 2⟩)
  | ⟨c :: rest, place⟩ =>
      if isBreak c then some (foldBreak c, ⟨rest, place.newLine c.utf8Size⟩) else none
  | ⟨[], _⟩ => none

/-- The cursor behind the line break, if there is one. -/
def skipBreak (cursor : Cursor) : Cursor :=
  match cursor.takeBreak? with
  | some (_, next) => next
  | none => cursor

/-- The cursor behind the gap and the comment at the end of a line. -/
def skipComment (cursor : Cursor) : Cursor :=
  let behind := cursor.dropWhile isGap
  if behind.isAt '#' then behind.dropWhile (fun c => !isBreak c) else behind

end Cursor

end LiteralAudit.Yaml
