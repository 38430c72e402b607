import LiteralAudit.Toml.Statement

/-!
# Quoted TOML texts

What quoted texts stand for.  Between single quotes everything stands for itself.  Between double
quotes a backslash begins an escape.  Texts between triple quotes may go over several lines; a
line break right behind the opening quotes does not count, and between double quotes a backslash
at the end of a line takes the white space behind it away.
-/

namespace LiteralAudit.Toml.Quoted

/-- The control characters other than the tab. -/
def isControl (c : Char) : Bool := (c < ' ' && c ≠ '\t') || c = '\x7f'

/-- What was read of a text goes before what is read later. -/
def prepend (c : Char) (later : Except Fault Text) : Except Fault Text := later.map (c :: ·)

/-- The character that hexadecimal digits at the beginning of a text stand for. -/
def codeChar (offset count : Nat) (text : Text) : Except Fault Char :=
  let digits := (text.take count).takeWhile Text.isHexDigit
  let behind := offset + digits.length
  if digits.length < count then .error (.atOffset .shortCode behind)
  else
    let point := Text.valueIn 16 digits
    if point.isValidChar then .ok (Char.ofNat point) else .error (.atOffset .badCode behind)

/-- The character that a letter behind a backslash stands for. -/
def simpleEscape? (letter : Char) : Option Char :=
  ([('b', '\x08'), ('e', '\x1b'), ('f', '\x0c'), ('n', '\n'), ('r', '\r'), ('t', '\t'),
    ('\\', '\\'), ('"', '"')].find? fun escape => escape.1 = letter).map Prod.snd

/-- The number of hexadecimal digits behind a letter behind a backslash. -/
def codeLength? (letter : Char) : Option Nat :=
  ([('x', 2), ('u', 4), ('U', 8)].find? fun escape => escape.1 = letter).map Prod.snd

/-- Reads an escape behind its backslash: the character, and how many characters it takes up. -/
def escape (offset : Nat) : Text → Except Fault (Char × Nat)
  | [] => .error (.atOffset .badEscape offset)
  | letter :: rest =>
      match simpleEscape? letter, codeLength? letter with
      | some c, _ => .ok (c, 1)
      | none, some count => (codeChar (offset + 1) count rest).map fun c => (c, count + 1)
      | none, none => .error (.atOffset .badEscape offset)

/-- What is said of a character that may not stand in a text. -/
def refuse {α : Type} (kind expected : Text) (offset : Nat) (bad : Text) : Except Fault α :=
  .error ⟨.badText kind expected, ⟨offset, offset + Text.byteSize bad⟩⟩

/-- What a text between double quotes stands for, without the quotes. -/
def unescape (offset : Nat) (text : Text) : Except Fault Text :=
  match text with
  | [] => .ok []
  | c :: rest =>
      if c = '\\' then
        match escape (offset + 1) rest with
        | .error fault => .error fault
        | .ok (escaped, count) =>
            prepend escaped
              (unescape (offset + 1 + Text.byteSize (rest.take count)) (rest.drop count))
      else if isControl c || c = '"' then
        refuse "basic" "non-double-quote visible characters, `\\`" offset
          (text.takeWhile fun d => isControl d || d = '"')
      else prepend c (unescape (offset + c.utf8Size) rest)
termination_by text.length
decreasing_by all_goals simp; try omega

/-- What a text between triple double quotes stands for, without the quotes.  `trimming` says
whether white space is being taken away. -/
def unescapeLong (offset : Nat) (trimming : Bool) (text : Text) : Except Fault Text :=
  match text with
  | [] => .ok []
  | '\r' :: '\n' :: rest =>
      if trimming then unescapeLong (offset + 2) true rest
      else prepend '\n' (unescapeLong (offset + 2) false rest)
  | c :: rest =>
      if trimming && (c = ' ' || c = '\t' || c = '\n') then unescapeLong (offset + 1) true rest
      else if c = '\r' then .error (.atOffset .loneReturn (offset + 1))
      else if c = '\\' then
        if rest.head?.any fun d => d = ' ' || d = '\t' || d = '\n' || d = '\r' then
          unescapeLong (offset + 1) true rest
        else
          match escape (offset + 1) rest with
          | .error fault => .error fault
          | .ok (escaped, count) =>
              prepend escaped
                (unescapeLong (offset + 1 + Text.byteSize (rest.take count)) false
                  (rest.drop count))
      else if isControl c && c ≠ '\n' then
        refuse "multi-line basic" "`\\`, characters" offset
          (text.takeWhile fun d => isControl d && d ≠ '\n')
      else prepend c (unescapeLong (offset + c.utf8Size) false rest)
termination_by text.length
decreasing_by all_goals simp; try omega

/-- A text without its quotes, and the offset of its first character.  The opening quotes are
there. -/
def strip (kind : Text) (quotes : Text) (raw : Raw) : Except Fault (Text × Nat) :=
  let inside := (Text.dropStart? quotes raw.text).getD raw.text
  match Text.dropEnd? quotes inside with
  | some inside => .ok (inside, raw.start + quotes.length)
  | none => .error (.atOffset (.badText kind ("`" ++ quotes ++ "`")) raw.stop)

/-- A text and its offset without the line break at its beginning. -/
def dropBreak : Text × Nat → Text × Nat
  | ('\n' :: text, offset) => (text, offset + 1)
  | ('\r' :: '\n' :: text, offset) => (text, offset + 2)
  | (text, offset) => (text, offset)

/-- The first character that satisfies `p`, as the text it begins, and its offset. -/
def firstBad? (p : Char → Bool) (offset : Nat) : Text → Option (Text × Nat)
  | [] => none
  | c :: rest => if p c then some ([c], offset) else firstBad? p (offset + c.utf8Size) rest

/-- What a text between single quotes stands for. -/
def literal (raw : Raw) : Except Fault Text := do
  let (text, offset) ← strip "literal" "'" raw
  match firstBad? isControl offset text with
  | some (bad, offset) =>
      refuse "literal" "non-single-quote visible characters" offset bad
  | none => .ok text

/-- The text with every break of two characters made a line feed.  A carriage return that stands
alone is refused. -/
def joinBreaks (offset : Nat) : Text → Except Fault Text
  | [] => .ok []
  | '\r' :: '\n' :: rest => prepend '\n' (joinBreaks (offset + 2) rest)
  | c :: rest =>
      if c = '\r' then .error (.atOffset .loneReturn (offset + 1))
      else if isControl c && c ≠ '\n' then
        refuse "multi-line literal" "non-single-quote characters" offset [c]
      else prepend c (joinBreaks (offset + c.utf8Size) rest)

/-- What a text between triple single quotes stands for. -/
def longLiteral (raw : Raw) : Except Fault Text := do
  let inside ← strip "multi-line literal" "'''" raw
  let (text, offset) := dropBreak inside
  joinBreaks offset text

/-- What a text between double quotes stands for. -/
def basic (raw : Raw) : Except Fault Text := do
  let (text, offset) ← strip "basic" "\"" raw
  unescape offset text

/-- What a text between triple double quotes stands for. -/
def longBasic (raw : Raw) : Except Fault Text := do
  let inside ← strip "multi-line basic" "\"\"\"" raw
  let (text, offset) := dropBreak inside
  unescapeLong offset false text

end LiteralAudit.Toml.Quoted
