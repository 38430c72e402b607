import LiteralAudit.Yaml.Token.Tag

/-!
# Directives

A percent sign, a name and its values on one line.  There are two directives: one gives the
version, the other a tag handle and the prefix that it stands for.
-/

namespace LiteralAudit.Yaml.Directive

/-- Reads one of the two numbers of a version.  It has at most nine digits. -/
def scanNumber (began : Place) (cursor : Cursor) : Except SyntaxFault (Nat × Cursor) :=
  let (digits, stop) := cursor.takeWhile Text.isDigit
  let fail := SyntaxFault.within .versionDirective began
  if digits.isEmpty then .error (fail .expectedVersion cursor.place)
  else if 9 < digits.length then .error (fail .longVersion (cursor.skipMany 9).place)
  else .ok (Text.value digits, stop)

/-- Reads a version. -/
def scanVersion (began : Place) (cursor : Cursor) : Except SyntaxFault (TokenKind × Cursor) := do
  let (major, dot) ← scanNumber began (cursor.dropWhile isGap)
  if dot.isAt '.' then
    let (minor, stop) ← scanNumber began dot.skip
    .ok (.versionDirective major minor, stop)
  else .error (.within .versionDirective began .expectedVersionDot dot.place)

/-- Reads a handle.  It ends with an exclamation mark. -/
def scanHandle (began : Place) (cursor : Cursor) : Except SyntaxFault (Text × Cursor) :=
  if cursor.isAt '!' then
    let (handle, stop) := Tag.scanHandle cursor
    if Text.endsWith ['!'] handle then .ok (handle, stop)
    else .error (.within .directiveHandleEnd began .expectedMark stop.place)
  else .error (.within .directiveHandle began .expectedMark cursor.place)

/-- Reads a handle and a prefix. -/
def scanTag (began : Place) (cursor : Cursor) : Except SyntaxFault (TokenKind × Cursor) := do
  let (handle, gap) ← scanHandle began (cursor.dropWhile isGap)
  if !gap.isAtAny isGap then .error (.within .tagDirective began .expectedGap gap.place)
  else
    let (start, stop) ←
      Tag.scanText (.within .directivePrefix began) Tag.isFullTagChar [] (gap.dropWhile isGap)
    if endsWord stop.rest then .ok (.tagDirective handle start, stop)
    else .error (.within .tagDirective began .expectedGapOrBreak stop.place)

/-- Reads a directive at its percent sign, up to the end of its line. -/
def scan (cursor : Cursor) : Except SyntaxFault (TokenKind × Cursor) := do
  let began := cursor.place
  let fail := SyntaxFault.within .directive began
  let (name, behind) := cursor.skip.takeWhile isNameChar
  if name.isEmpty then .error (fail .expectedDirectiveName behind.place)
  else if !endsWord behind.rest then .error (fail .badDirectiveName behind.place)
  else
    let (kind, stop) ←
      if name = "YAML".toList then scanVersion began behind
      else if name = "TAG".toList then scanTag began behind
      else .error (fail .unknownDirective behind.place)
    let stop := stop.skipComment
    if endsLine stop.rest then .ok (kind, stop.skipBreak)
    else .error (fail .expectedLineEnd stop.place)

end LiteralAudit.Yaml.Directive
