import LiteralAudit.Toml.Fault

/-!
# TOML tokens

A token is a punctuation mark, a quoted text, a comment, a line break, a run of spaces, or a run
of anything else, which is called an atom.  A text that is not closed ends with its line or, if
it may go over several lines, with the document.  A byte-order mark at the beginning is skipped.
-/

namespace LiteralAudit.Toml

/-- How a text is quoted. -/
inductive Quoting where
  /-- Not at all. -/
  | bare
  /-- Between single quotes. -/
  | literal
  /-- Between double quotes. -/
  | basic
  /-- Between triple single quotes. -/
  | longLiteral
  /-- Between triple double quotes. -/
  | longBasic
  deriving DecidableEq, Repr

/-- What a token is. -/
inductive TokenKind where
  /-- A dot. -/
  | dot
  /-- An equals sign. -/
  | equals
  /-- A comma. -/
  | comma
  /-- An opening bracket. -/
  | openBracket
  /-- A closing bracket. -/
  | closeBracket
  /-- An opening brace. -/
  | openBrace
  /-- A closing brace. -/
  | closeBrace
  /-- Spaces and tabs. -/
  | space
  /-- A line break. -/
  | newline
  /-- A comment. -/
  | comment
  /-- A word: a quoted text or an atom. -/
  | word (quoting : Quoting)
  /-- The end of the document. -/
  | textEnd
  deriving DecidableEq, Repr

/-- A token. -/
structure Token where
  /-- What it is. -/
  kind : TokenKind
  /-- Its text. -/
  text : Text
  /-- The offset of its first byte. -/
  start : Nat
  deriving DecidableEq, Repr

namespace Token

/-- The offset behind its last byte. -/
def stop (token : Token) : Nat := token.start + Text.byteSize token.text

/-- The bytes it takes up. -/
def span (token : Token) : Span := ⟨token.start, token.stop⟩

/-! ## Quoted texts -/

/-- The text up to and with its closing quote, or up to the end of its line. -/
def takeLiteral : Text → Text × Text
  | [] => ([], [])
  | c :: rest =>
      if c = '\'' then (['\''], rest)
      else if c = '\n' then ([], c :: rest)
      else
        let (taken, left) := takeLiteral rest
        (c :: taken, left)

/-- The text up to and with its closing quote, or up to the end of its line.  A backslash takes a
quote or a backslash behind it along. -/
def takeBasic : Text → Text × Text
  | [] => ([], [])
  | '\\' :: '\\' :: rest =>
      let (taken, left) := takeBasic rest
      ('\\' :: '\\' :: taken, left)
  | '\\' :: '"' :: rest =>
      let (taken, left) := takeBasic rest
      ('\\' :: '"' :: taken, left)
  | c :: rest =>
      if c = '"' then (['"'], rest)
      else if c = '\n' then ([], c :: rest)
      else
        let (taken, left) := takeBasic rest
        (c :: taken, left)

/-- At most two quotes that follow three closing ones. -/
def takeMoreQuotes (quote : Char) : Text → Text × Text
  | a :: b :: rest =>
      if a = quote then if b = quote then ([a, b], rest) else ([a], b :: rest)
      else ([], a :: b :: rest)
  | [a] => if a = quote then ([a], []) else ([], [a])
  | [] => ([], [])

/-- The text up to and with its three closing quotes, or up to the end of the document. -/
def takeLongLiteral : Text → Text × Text
  | [] => ([], [])
  | '\'' :: '\'' :: '\'' :: rest =>
      let (more, left) := takeMoreQuotes '\'' rest
      ('\'' :: '\'' :: '\'' :: more, left)
  | c :: rest =>
      let (taken, left) := takeLongLiteral rest
      (c :: taken, left)

/-- The text up to and with its three closing quotes, or up to the end of the document.  A
backslash takes a quote or a backslash behind it along. -/
def takeLongBasic : Text → Text × Text
  | [] => ([], [])
  | '\\' :: '\\' :: rest =>
      let (taken, left) := takeLongBasic rest
      ('\\' :: '\\' :: taken, left)
  | '\\' :: '"' :: rest =>
      let (taken, left) := takeLongBasic rest
      ('\\' :: '"' :: taken, left)
  | '"' :: '"' :: '"' :: rest =>
      let (more, left) := takeMoreQuotes '"' rest
      ('"' :: '"' :: '"' :: more, left)
  | c :: rest =>
      let (taken, left) := takeLongBasic rest
      (c :: taken, left)

/-! ## Tokens -/

/-- The marks that are tokens by themselves. -/
def markKind? (c : Char) : Option TokenKind :=
  match c with
  | '.' => some .dot
  | '=' => some .equals
  | ',' => some .comma
  | '[' => some .openBracket
  | ']' => some .closeBracket
  | '\x7b' => some .openBrace
  | '\x7d' => some .closeBrace
  | '\n' => some .newline
  | _ => none

/-- The characters of atoms. -/
def isAtomChar (c : Char) : Bool :=
  (markKind? c).isNone && c ≠ ' ' && c ≠ '\t' && c ≠ '#' && c ≠ '\r'

/-- The first token of a text that begins with `c`: its kind, its text and what is left. -/
def first (c : Char) (rest : Text) : TokenKind × Text × Text :=
  match markKind? c with
  | some kind => (kind, [c], rest)
  | none =>
      match c, rest with
      | '\r', '\n' :: rest => (.newline, ['\r', '\n'], rest)
      | '\r', rest => (.newline, ['\r'], rest)
      | '\'', '\'' :: '\'' :: rest =>
          let (taken, left) := takeLongLiteral rest
          (.word .longLiteral, '\'' :: '\'' :: '\'' :: taken, left)
      | '\'', rest =>
          let (taken, left) := takeLiteral rest
          (.word .literal, '\'' :: taken, left)
      | '"', '"' :: '"' :: rest =>
          let (taken, left) := takeLongBasic rest
          (.word .longBasic, '"' :: '"' :: '"' :: taken, left)
      | '"', rest =>
          let (taken, left) := takeBasic rest
          (.word .basic, '"' :: taken, left)
      | c, rest =>
          if c = ' ' || c = '\t' then
            let (taken, left) := rest.span fun d => d = ' ' || d = '\t'
            (.space, c :: taken, left)
          else if c = '#' then
            let (taken, left) := rest.span fun d => d ≠ '\n' && d ≠ '\r'
            (.comment, c :: taken, left)
          else
            let (taken, left) := rest.span isAtomChar
            (.word .bare, c :: taken, left)

/-- The tokens of a text that begins at an offset.  `fuel` bounds their number. -/
def scan : (fuel : Nat) → (offset : Nat) → Text → List Token
  | _, offset, [] => [⟨.textEnd, [], offset⟩]
  | 0, offset, _ => [⟨.textEnd, [], offset⟩]
  | fuel + 1, offset, c :: rest =>
      let (kind, taken, left) := first c rest
      ⟨kind, taken, offset⟩ :: scan fuel (offset + Text.byteSize taken) left

/-- The tokens of a document.  The last one is its end, and every other one takes a character. -/
def ofText (text : Text) : List Token :=
  match text with
  | '\ufeff' :: rest => scan rest.length 3 rest
  | _ => scan text.length 0 text

end Token

end LiteralAudit.Toml
