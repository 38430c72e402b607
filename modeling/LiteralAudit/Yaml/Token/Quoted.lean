import LiteralAudit.Yaml.SyntaxFault
import LiteralAudit.Yaml.Token
import LiteralAudit.Yaml.Token.Folding

/-!
# Quoted scalars

Between single quotes only the quote itself is special: it is written twice.  Between double
quotes a backslash escapes a character, gives a code point in hexadecimal, or joins two lines.
Lines are folded as in plain scalars, whatever their indentation.
-/

namespace LiteralAudit.Yaml.Quoted

/-- What a backslash and a letter stand for. -/
inductive Escape where
  /-- A character. -/
  | char (c : Char)
  /-- The code point given by that many hexadecimal digits. -/
  | code (digits : Nat)
  deriving DecidableEq, Repr

/-- The escapes that stand for a character. -/
def escapes : List (Char × Char) :=
  [('0', '\x00'), ('a', '\x07'), ('b', '\x08'), ('t', '\t'), ('\t', '\t'), ('n', '\n'),
    ('v', '\x0b'), ('f', '\x0c'), ('r', '\r'), ('e', '\x1b'), (' ', ' '), ('"', '"'),
    ('/', '/'), ('\\', '\\'), ('N', '\u0085'), ('_', '\u00a0'), ('L', '\u2028'),
    ('P', '\u2029')]

/-- The escape with the given letter. -/
def Escape.ofLetter? (letter : Char) : Option Escape :=
  if letter = 'x' then some (.code 2)
  else if letter = 'u' then some (.code 4)
  else if letter = 'U' then some (.code 8)
  else (escapes.find? fun escape => escape.1 = letter).map fun escape => .char escape.2

/-- The character whose code point the first digits of a text give. -/
def codeChar (count : Nat) (text : Text) : Except Problem Char :=
  let digits := text.take count
  if digits.length = count && digits.all Text.isHexDigit then
    let point := Text.valueIn 16 digits
    if point.isValidChar then .ok (Char.ofNat point) else .error .badCharacterCode
  else .error .expectedHexDigit

/-- Reads on inside a quoted scalar.  `words` is what was read so far, the last character first,
and `gap` is the gap behind it. -/
def scanFrom (quote : Char) (began : Place) (words : Text) (gap : Gap) (text : Text)
    (place : Place) : Except SyntaxFault (Text × Cursor) :=
  let joined := gap.fold.reverse ++ words
  match text with
  | [] => .error (.within .quotedScalar began .endInScalar place)
  | '\r' :: '\n' :: rest =>
      scanFrom quote began words (gap.addBreak '\n') rest (place.newLine 2)
  | c :: rest =>
      if isBreak c then
        scanFrom quote began words (gap.addBreak (foldBreak c)) rest (place.newLine c.utf8Size)
      else if isGap c then scanFrom quote began words (gap.addBlank c) rest (place.after c)
      else if place.column = 0 && atMarker (c :: rest) then
        .error (.within .quotedScalar began .markerInScalar place)
      else if c = quote then
        match rest with
        | '\'' :: rest =>
            if quote = '\'' then
              scanFrom quote began ('\'' :: joined) .nothing rest ((place.after c).after c)
            else .ok (joined.reverse, ⟨'\'' :: rest, place.after c⟩)
        | _ => .ok (joined.reverse, ⟨rest, place.after c⟩)
      else if c = '\\' && quote = '"' then
        match rest with
        | [] => .error (.within .escape began .unknownEscape place)
        | '\r' :: '\n' :: rest =>
            scanFrom quote began joined (.across none []) rest ((place.after c).newLine 2)
        | letter :: rest =>
            if isBreak letter then
              scanFrom quote began joined (.across none []) rest
                ((place.after c).newLine letter.utf8Size)
            else
              let behind := (place.after c).after letter
              match Escape.ofLetter? letter with
              | none => .error (.within .escape began .unknownEscape place)
              | some (.char escaped) =>
                  scanFrom quote began (escaped :: joined) .nothing rest behind
              | some (.code count) =>
                  match codeChar count rest with
                  | .error problem => .error (.within .escape began problem behind)
                  | .ok escaped =>
                      scanFrom quote began (escaped :: joined) .nothing (rest.drop count)
                        ((Cursor.mk rest behind).skipMany count).place
      else scanFrom quote began (c :: joined) .nothing rest (place.after c)
termination_by text.length
decreasing_by all_goals simp; try omega

/-- Reads a quoted scalar at its opening quote. -/
def scan (quote : Char) (cursor : Cursor) : Except SyntaxFault (Text × Cursor) :=
  scanFrom quote cursor.place [] .nothing cursor.skip.rest cursor.skip.place

end LiteralAudit.Yaml.Quoted
