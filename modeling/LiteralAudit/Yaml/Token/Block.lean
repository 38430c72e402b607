import LiteralAudit.Yaml.SyntaxFault
import LiteralAudit.Yaml.Token

/-!
# Literal and folded scalars

A header says how the scalar ends and may give its indentation.  The lines that follow with that
indentation are its text.  A literal scalar keeps their breaks; a folded one joins two lines that
begin with neither a space nor a tab.
-/

namespace LiteralAudit.Yaml.Block

/-- What is kept of the line breaks at the end. -/
inductive Chomping where
  /-- None. -/
  | strip
  /-- The first. -/
  | clip
  /-- All. -/
  | keep
  deriving DecidableEq, Repr

/-- What the header says. -/
structure Header where
  /-- How the scalar ends. -/
  chomping : Chomping
  /-- The indentation, if it is given. -/
  indent : Option Nat
  deriving DecidableEq, Repr

/-- How the scalar ends, if that is given at the cursor. -/
def chomping? (cursor : Cursor) : Option Chomping :=
  if cursor.isAt '+' then some .keep else if cursor.isAt '-' then some .strip else none

/-- The indentation, if it is given at the cursor.  It is not zero. -/
def indent? (began : Place) (cursor : Cursor) : Except SyntaxFault (Option Nat) :=
  match cursor.rest.head? with
  | some c =>
      if c = '0' then .error (.within .blockScalar began .zeroIndent cursor.place)
      else if Text.isDigit c then .ok (some (Text.digitValue c))
      else .ok none
  | none => .ok none

/-- Reads the header up to the end of its line. -/
def scanHeader (began : Place) (cursor : Cursor) : Except SyntaxFault (Header × Cursor) := do
  let (header, cursor) : Header × Cursor ← match chomping? cursor with
    | some chomping => do
        let indent ← indent? began cursor.skip
        .ok (⟨chomping, indent⟩, if indent.isSome then cursor.skip.skip else cursor.skip)
    | none => do
        match ← indent? began cursor with
        | none => .ok (⟨.clip, none⟩, cursor)
        | some indent =>
            match chomping? cursor.skip with
            | none => .ok (⟨.clip, some indent⟩, cursor.skip)
            | some chomping => .ok (⟨chomping, some indent⟩, cursor.skip.skip)
  let stop := cursor.skipComment
  if endsLine stop.rest then .ok (header, stop.skipBreak)
  else .error (.within .blockScalar began .expectedLineEnd stop.place)

/-- The breaks of the blank lines at a cursor, the greatest indentation among them and the line
behind them, and the cursor behind that indentation.  Without a known indentation all leading
spaces are taken. -/
def scanBreaks (began : Place) (indent : Option Nat) (deepest : Nat) :
    Text → Place → Except SyntaxFault (Text × Nat × Cursor)
  | [], place => .ok ([], max deepest place.column, ⟨[], place⟩)
  | '\r' :: '\n' :: rest, place => do
      let (breaks, deepest, cursor) ←
        scanBreaks began indent (max deepest place.column) rest (place.newLine 2)
      .ok ('\n' :: breaks, deepest, cursor)
  | c :: rest, place =>
      let inIndent := indent.all fun indent => place.column < indent
      if c = ' ' && inIndent then scanBreaks began indent deepest rest (place.after c)
      else if c = '\t' && inIndent then
        .error (.within .blockScalar began .tabInIndent place)
      else if isBreak c then do
        let (breaks, deepest, cursor) ←
          scanBreaks began indent (max deepest place.column) rest (place.newLine c.utf8Size)
        .ok (foldBreak c :: breaks, deepest, cursor)
      else .ok ([], max deepest place.column, ⟨c :: rest, place⟩)

/-- What stands between two lines of a scalar: the break behind the first, and the breaks of the
blank lines after it. -/
def joint (isLiteral isPlainJoint : Bool) (first : Option Char) (later : Text) : Text :=
  if !isLiteral && isPlainJoint && first = some '\n' then
    if later.isEmpty then [' '] else later
  else first.toList ++ later

/-- Reads the lines of a scalar.  `text` is what was read so far, `first` and `later` are the
breaks behind it, and `afterBlank` says whether its last line begins with a space or a tab.
`fuel` bounds the number of lines. -/
def scanLines (began : Place) (isLiteral : Bool) (chomping : Chomping) (indent : Nat) :
    (fuel : Nat) → (text : Text) → (first : Option Char) → (later : Text) →
      (afterBlank : Bool) → Cursor → Except SyntaxFault (Text × Cursor)
  | 0, text, _, _, _, cursor => .ok (text, cursor)
  | fuel + 1, text, first, later, afterBlank, cursor =>
      if cursor.place.column = indent && !cursor.rest.isEmpty then do
        let onBlank := cursor.isAtAny isGap
        let (line, stop) := cursor.takeWhile fun c => !isBreak c
        let text := text ++ joint isLiteral (!afterBlank && !onBlank) first later ++ line
        let behind := stop.skipBreak
        let (breaks, _, next) ← scanBreaks began (some indent) 0 behind.rest behind.place
        scanLines began isLiteral chomping indent fuel text (stop.takeBreak?.map Prod.fst) breaks
          onBlank next
      else
        .ok (match chomping with
          | .strip => text
          | .clip => text ++ first.toList
          | .keep => text ++ first.toList ++ later, cursor)

/-- Reads a scalar at its bar or angle bracket.  `enclosing` is one more than the indentation of
the collection around it, or zero outside of all collections. -/
def scan (isLiteral : Bool) (enclosing : Nat) (cursor : Cursor) :
    Except SyntaxFault (Text × Cursor) := do
  let began := cursor.place
  let (header, cursor) ← scanHeader began cursor.skip
  let given := header.indent.map fun indent => (enclosing - 1) + indent
  let (breaks, deepest, cursor) ← scanBreaks began given 0 cursor.rest cursor.place
  let indent := given.getD (max deepest (max enclosing 1))
  scanLines began isLiteral header.chomping indent (cursor.rest.length + 1) [] none breaks false
    cursor

end LiteralAudit.Yaml.Block
