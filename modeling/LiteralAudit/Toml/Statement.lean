import LiteralAudit.Toml.Token

/-!
# TOML statements

A document is a list of statements: headers of tables and pairs of a key and a value.  Statements
are made of tokens without looking into them, so keys and scalars are still raw here.  A key or a
value that is missing where punctuation leaves no doubt about it is a raw one without any
characters; it is refused when its text is read.
-/

namespace LiteralAudit.Toml

/-- A key or a scalar as it is written. -/
structure Raw where
  /-- How it is quoted. -/
  quoting : Quoting
  /-- What is written, with the quotes. -/
  text : Text
  /-- The offset of its first byte. -/
  start : Nat
  deriving DecidableEq, Repr

namespace Raw

/-- The offset behind its last byte. -/
def stop (raw : Raw) : Nat := raw.start + Text.byteSize raw.text

/-- The bytes it takes up. -/
def span (raw : Raw) : Span := ⟨raw.start, raw.stop⟩

/-- What is missing at an offset. -/
def missing (offset : Nat) : Raw := ⟨.bare, [], offset⟩

end Raw

/-- A value as it is written. -/
inductive RawValue where
  /-- A scalar. -/
  | scalar (raw : Raw)
  /-- The items of an array. -/
  | array (items : List RawValue) (span : Span)
  /-- The pairs between braces.  The keys of a pair lead down to its place. -/
  | table (pairs : List (List Raw × RawValue)) (span : Span)
  deriving Repr

/-- A statement. -/
inductive Statement where
  /-- The header of a table or of an item of a table array. -/
  | header (isArray : Bool) (keys : List Raw) (span : Span)
  /-- A pair of a key and a value.  The keys lead down from the table it stands in. -/
  | pair (keys : List Raw) (value : RawValue)
  deriving Repr

namespace Statement

/-- What is left of the tokens. -/
abbrev Tokens := List Token

/-- The next token. -/
def next (tokens : Tokens) : Token := tokens.head?.getD ⟨.textEnd, [], 0⟩

/-- The tokens behind spaces. -/
def skipSpace (tokens : Tokens) : Tokens := tokens.dropWhile fun token => token.kind = .space

/-- A fault before a token. -/
def failBefore {α : Type} (cause : Cause) (token : Token) : Except Fault α :=
  .error (.atOffset cause token.start)

/-! ## Line ends -/

/-- The break is a line feed, with or without a carriage return. -/
def checkBreak (token : Token) : Except Fault Unit :=
  if token.text = ['\r'] then .error (.atOffset .loneReturn token.stop) else .ok ()

/-- Whether a character may stand in a comment. -/
def isCommentChar (c : Char) : Bool := c = '\t' || (' ' ≤ c && c ≠ '\x7f')

/-- A comment holds no control characters. -/
def checkComment (token : Token) : Except Fault Unit :=
  let fine := token.text.takeWhile isCommentChar
  if fine.length = token.text.length then .ok ()
  else .error (.atOffset .controlInComment (token.start + Text.byteSize fine))

/-- Skips spaces, comments and line breaks, all of which must be well formed. -/
def skipIdle : Tokens → Except Fault Tokens
  | [] => .ok []
  | token :: tokens =>
      match token.kind with
      | .space => skipIdle tokens
      | .newline => do
          checkBreak token
          skipIdle tokens
      | .comment => do
          checkComment token
          skipIdle tokens
      | _ => .ok (token :: tokens)

/-- Skips what may stand behind a value or a header, up to and with the line break. -/
def endLine : Tokens → Except Fault Tokens
  | [] => .ok []
  | token :: tokens =>
      match token.kind with
      | .space => endLine tokens
      | .comment => do
          checkComment token
          endLine tokens
      | .newline => do
          checkBreak token
          .ok tokens
      | .textEnd => .ok (token :: tokens)
      | _ => failBefore .lineNotEnded token

/-! ## Keys -/

/-- Reads keys with dots between them.  Says also whether the last one is there.  `fuel` bounds
their number. -/
def takeKeys : (fuel : Nat) → Tokens → List Raw × Bool × Tokens
  | 0, tokens => ([], false, tokens)
  | fuel + 1, tokens =>
      let tokens := skipSpace tokens
      let token := next tokens
      match token.kind with
      | .word quoting =>
          let key : Raw := ⟨quoting, token.text, token.start⟩
          let behind := skipSpace (tokens.drop 1)
          if (next behind).kind = .dot then
            let (keys, complete, left) := takeKeys fuel (behind.drop 1)
            (key :: keys, complete, left)
          else ([key], true, behind)
      | .dot =>
          let (keys, complete, left) := takeKeys fuel (tokens.drop 1)
          (.missing token.start :: keys, complete, left)
      | _ => ([.missing token.start], false, tokens)

/-- The offset behind the last key, or behind the bracket if there is none. -/
def endOfKeys (bracket : Nat) (keys : List Raw) : Nat := (keys.getLast?.map Raw.stop).getD bracket

/-! ## Values -/

/-- Joins the atoms and dots of an unquoted scalar.  Atoms with spaces between them belong to the
same scalar. -/
def joinAtoms (text : Text) : Tokens → Text × Tokens
  | [] => (text, [])
  | [token] =>
      if token.kind = .dot || token.kind = .word .bare then (text ++ token.text, [])
      else (text, [token])
  | token :: after :: tokens =>
      if token.kind = .dot || token.kind = .word .bare then
        joinAtoms (text ++ token.text) (after :: tokens)
      else if token.kind = .space && after.kind = .word .bare then
        joinAtoms (text ++ token.text ++ after.text) tokens
      else (text, token :: after :: tokens)

/-- Reads a scalar that begins with the next token. -/
def takeScalar (tokens : Tokens) : Raw × Tokens :=
  let token := next tokens
  let behind := tokens.drop 1
  match token.kind with
  | .word .bare | .dot =>
      let (text, left) := joinAtoms token.text behind
      (⟨.bare, text, token.start⟩, left)
  | .word quoting => (⟨quoting, token.text, token.start⟩, behind)
  | _ => (.missing token.start, tokens)

/-- What is expected next between braces, and the keys read for it. -/
inductive PairState where
  /-- Keys, or the end. -/
  | key
  /-- An equals sign behind some keys. -/
  | equals (keys : List Raw)
  /-- A value for some keys. -/
  | value (keys : List Raw)
  /-- A comma, or the end. -/
  | comma
  deriving Repr

/-- What is expected, without the keys. -/
def PairState.wanted : PairState → Wanted
  | .key => .key
  | .equals _ => .equals
  | .value _ => .value
  | .comma => .comma

mutual

/-- Reads a value at the next token. -/
def takeValue : (fuel : Nat) → Tokens → Except Fault (RawValue × Tokens)
  | 0, tokens => .ok (.scalar (.missing (next tokens).start), tokens)
  | fuel + 1, tokens =>
      let token := next tokens
      match token.kind with
      | .openBracket => do
          let (items, stop, left) ← takeItems fuel false (tokens.drop 1)
          .ok (.array items ⟨token.start, stop⟩, left)
      | .openBrace => do
          let (pairs, stop, left) ← takePairs fuel .key (tokens.drop 1)
          .ok (.table pairs ⟨token.start, stop⟩, left)
      | .equals => .error ⟨.extraEquals, token.span⟩
      | .closeBracket => failBefore .unopenedArray token
      | .closeBrace => failBefore .unopenedInlineTable token
      | _ =>
          let (raw, left) := takeScalar tokens
          .ok (.scalar raw, left)

/-- Reads the items of an array up to its end. -/
def takeItems :
    (fuel : Nat) → (needsComma : Bool) → Tokens → Except Fault (List RawValue × Nat × Tokens)
  | 0, _, tokens => .ok ([], (next tokens).start, tokens)
  | fuel + 1, needsComma, tokens => do
      let tokens ← skipIdle tokens
      let token := next tokens
      match token.kind with
      | .closeBracket => .ok ([], token.stop, tokens.drop 1)
      | .textEnd => failBefore .unclosedArray token
      | .comma =>
          if needsComma then takeItems fuel false (tokens.drop 1)
          else .error ⟨.extraCommaInArray, token.span⟩
      | .equals => .error ⟨.equalsInArray, token.span⟩
      | _ =>
          if needsComma then failBefore .missingCommaInArray token
          else do
            let (item, left) ← takeValue fuel tokens
            let (items, stop, left) ← takeItems fuel true left
            .ok (item :: items, stop, left)

/-- Reads the pairs between braces up to the end. -/
def takePairs :
    (fuel : Nat) → PairState → Tokens →
      Except Fault (List (List Raw × RawValue) × Nat × Tokens)
  | 0, _, tokens => .ok ([], (next tokens).start, tokens)
  | fuel + 1, state, tokens => do
      let tokens ← skipIdle tokens
      let token := next tokens
      match token.kind, state with
      | .textEnd, _ => failBefore .unclosedInlineTable token
      | .closeBrace, .key | .closeBrace, .comma => .ok ([], token.stop, tokens.drop 1)
      | .closeBrace, state => failBefore (.earlyTableEnd state.wanted) token
      | .comma, .comma => takePairs fuel .key (tokens.drop 1)
      | .comma, state => failBefore (.extraCommaInTable state.wanted) token
      | .equals, .equals keys => takePairs fuel (.value keys) (tokens.drop 1)
      | .equals, .value _ => failBefore (.extraAssignment .value) token
      | .equals, .comma => failBefore (.extraAssignment .comma) token
      | .openBracket, .key | .openBrace, .key => failBefore (.missingKeyInTable .key) token
      | .openBracket, .comma | .openBrace, .comma =>
          failBefore (.missingKeyInTable .comma) token
      | .closeBracket, .value _ => failBefore .unopenedArray token
      | .closeBracket, state => failBefore (.strayBracketInTable state.wanted) token
      | _, .key =>
          let (keys, _, left) := takeKeys tokens.length tokens
          takePairs fuel (.equals keys) left
      | _, .equals _ => failBefore .missingAssignment token
      | _, .comma => failBefore .missingCommaInTable token
      | _, .value keys => do
          let (value, left) ← takeValue fuel tokens
          let (pairs, stop, left) ← takePairs fuel .comma left
          .ok ((keys, value) :: pairs, stop, left)

end

/-! ## Statements -/

/-- Reads a header behind its opening bracket. -/
def takeHeader (bracket : Token) (tokens : Tokens) : Except Fault (Statement × Tokens) := do
  let isArray := (next tokens).kind = .openBracket
  let inside := if isArray then tokens.drop 1 else tokens
  let (keys, complete, behind) := takeKeys inside.length inside
  let close := next behind
  if close.kind = .closeBracket then
    if isArray then
      let second := next (behind.drop 1)
      if second.kind = .closeBracket then
        let left ← endLine (behind.drop 2)
        .ok (.header true keys ⟨bracket.start, second.stop⟩, left)
      else .error (.atOffset .halfClosedTableArray close.stop)
    else
      let left ← endLine (behind.drop 1)
      .ok (.header false keys ⟨bracket.start, close.stop⟩, left)
  else if complete then
    .error (.atOffset (if isArray then .unclosedTableArray else .unclosedTable)
      (endOfKeys bracket.stop keys))
  else .ok (.header isArray keys ⟨bracket.start, close.start⟩, behind.dropWhile fun token =>
    token.kind ≠ .newline && token.kind ≠ .textEnd)

/-- Reads a pair. -/
def takePair (tokens : Tokens) : Except Fault (Statement × Tokens) := do
  let (keys, _, behind) := takeKeys tokens.length tokens
  let token := next behind
  if token.kind = .equals then
    let (value, left) ← takeValue (3 * behind.length + 3) (skipSpace (behind.drop 1))
    let left ← endLine left
    .ok (.pair keys value, left)
  else failBefore .keyWithoutValue token

/-- Reads statements up to the end.  `fuel` bounds their number. -/
def takeAll : (fuel : Nat) → Tokens → Except Fault (List Statement)
  | 0, _ => .ok []
  | fuel + 1, tokens => do
      let tokens ← skipIdle tokens
      let token := next tokens
      match token.kind with
      | .textEnd => .ok []
      | .openBracket => do
          let (statement, left) ← takeHeader token (tokens.drop 1)
          let statements ← takeAll fuel left
          .ok (statement :: statements)
      | .closeBracket => failBefore .unopenedTable token
      | .comma | .openBrace | .closeBrace => failBefore .invalidKey token
      | _ => do
          let (statement, left) ← takePair tokens
          let statements ← takeAll fuel left
          .ok (statement :: statements)

/-- The statements of a document.  Each of them takes a token. -/
def ofText (text : Text) : Except Fault (List Statement) :=
  let tokens := Token.ofText text
  takeAll (tokens.length + 1) tokens

end Statement

end LiteralAudit.Toml
