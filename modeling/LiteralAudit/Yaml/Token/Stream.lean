import LiteralAudit.Yaml.Token.Anchor
import LiteralAudit.Yaml.Token.Block
import LiteralAudit.Yaml.Token.Directive
import LiteralAudit.Yaml.Token.Plain
import LiteralAudit.Yaml.Token.Quoted

/-!
# The tokens of a text

A key may be written without a question mark, and then only the colon behind it shows that it was
one.  So whatever could be such a key is remembered as a candidate together with the number of
its first token.  When the colon comes, the tokens that open the key are put before that token.
A candidate must be on one line and is given up after 1024 bytes.

A token is settled when no candidate can put anything before it any more.  A fault hides all
tokens that are not settled: `TokenStream` holds the settled tokens and the fault that ended
them, if one did.
-/

namespace LiteralAudit.Yaml

/-- The tokens of a text, and the fault behind the last one if there is no end of text. -/
structure TokenStream where
  /-- The tokens. -/
  tokens : List Token
  /-- The fault that ended them. -/
  fault : Option SyntaxFault
  deriving DecidableEq, Repr

/-- Something that is a key if a colon follows. -/
structure KeyCandidate where
  /-- Whether nothing but a key can stand here. -/
  required : Bool
  /-- The number of its first token. -/
  number : Nat
  /-- Where it begins. -/
  place : Place
  deriving DecidableEq, Repr

/-- The state of scanning between two tokens. -/
structure Scan where
  /-- What is left of the text. -/
  cursor : Cursor
  /-- The tokens so far, the last one first. -/
  tokens : List Token
  /-- The number of tokens so far. -/
  count : Nat
  /-- The number of settled tokens. -/
  settled : Nat
  /-- The columns of the block collections that are open, the innermost first. -/
  indents : List Nat
  /-- The candidate in the innermost brackets or braces. -/
  candidate : Option KeyCandidate
  /-- The candidates outside of them, the innermost first. -/
  outer : List (Option KeyCandidate)
  /-- Whether a candidate may begin here. -/
  keyAllowed : Bool
  /-- Whether the text has ended. -/
  ended : Bool
  deriving DecidableEq, Repr

namespace Scan

/-- The state at the beginning of a text. -/
def start (text : Text) : Scan where
  cursor := .ofText text
  tokens := []
  count := 0
  settled := 0
  indents := []
  candidate := none
  outer := []
  keyAllowed := true
  ended := false

/-- The place reached. -/
def place (scan : Scan) : Place := scan.cursor.place

/-- Whether the place is within brackets or braces. -/
def inFlow (scan : Scan) : Bool := !scan.outer.isEmpty

/-- One more than the column of the innermost block collection, and zero if there is none. -/
def enclosing (scan : Scan) : Nat :=
  match scan.indents with
  | [] => 0
  | indent :: _ => indent + 1

/-! ## Adding tokens -/

/-- The state with one more token. -/
def add (scan : Scan) (kind : TokenKind) (place : Place) : Scan :=
  { scan with tokens := ⟨kind, place⟩ :: scan.tokens, count := scan.count + 1 }

/-- The state with a token put before the one with the given number. -/
def addBefore (scan : Scan) (number : Nat) (kind : TokenKind) (place : Place) : Scan :=
  { scan with
    tokens := scan.tokens.insertIdx (scan.count - number) ⟨kind, place⟩
    count := scan.count + 1 }

/-- The state with a token of one character at the cursor. -/
def addMark (scan : Scan) (kind : TokenKind) : Scan :=
  { scan.add kind scan.place with cursor := scan.cursor.skip }

/-! ## Candidates -/

/-- Gives up a candidate, which is a fault if it is required. -/
def giveUp (scan : Scan) (candidate : Option KeyCandidate) : Except SyntaxFault Unit :=
  match candidate with
  | some key =>
      if key.required then .error (.within .simpleKey key.place .expectedColon scan.place)
      else .ok ()
  | none => .ok ()

/-- Gives up the innermost candidate. -/
def dropCandidate (scan : Scan) : Except SyntaxFault Scan := do
  scan.giveUp scan.candidate
  .ok { scan with candidate := none }

/-- Remembers what begins at the cursor as a candidate, if one may begin here. -/
def saveCandidate (scan : Scan) : Except SyntaxFault Scan :=
  if scan.keyAllowed then do
    let scan ← scan.dropCandidate
    let required := !scan.inFlow && scan.indents.head? = some scan.place.column
    .ok { scan with candidate := some ⟨required, scan.count, scan.place⟩ }
  else .ok scan

/-- Whether a candidate is too far back to be a key. -/
def isStale (scan : Scan) (key : KeyCandidate) : Bool :=
  key.place.line < scan.place.line || key.place.offset + 1024 < scan.place.offset

/-- Gives up a candidate that is too far back. -/
def refresh (scan : Scan) (candidate : Option KeyCandidate) :
    Except SyntaxFault (Option KeyCandidate) :=
  if candidate.any scan.isStale then do
    scan.giveUp candidate
    .ok none
  else .ok candidate

/-- Gives up all candidates that are too far back, the outermost first. -/
def refreshAll (scan : Scan) : Except SyntaxFault Scan := do
  let outer ← scan.outer.reverse.mapM scan.refresh
  let candidate ← scan.refresh scan.candidate
  .ok { scan with outer := outer.reverse, candidate := candidate }

/-- Settles all tokens before the first candidate. -/
def settle (scan : Scan) : Except SyntaxFault Scan := do
  let scan ← scan.refreshAll
  let keys := (scan.candidate :: scan.outer).filterMap id
  .ok { scan with settled := keys.foldl (fun number key => min number key.number) scan.count }

/-! ## Indentation -/

/-- Opens a block collection at a column, unless one is open there or further right. -/
def openBlock (scan : Scan) (column : Nat) (kind : TokenKind) (number : Nat) (place : Place) :
    Scan :=
  if !scan.inFlow && scan.enclosing ≤ column then
    { scan.addBefore number kind place with indents := column :: scan.indents }
  else scan

/-- Closes the block collections whose columns satisfy `p`, the innermost first. -/
def closeWhile (p : Nat → Bool) (indents : List Nat) (scan : Scan) : Scan :=
  match indents with
  | [] => { scan with indents := [] }
  | indent :: outer =>
      if p indent then closeWhile p outer (scan.add .blockEnd scan.place)
      else { scan with indents := indent :: outer }

/-- Closes the block collections that satisfy `p`, unless brackets or braces are open. -/
def closeBlocks (scan : Scan) (p : Nat → Bool) : Scan :=
  if scan.inFlow then scan else scan.closeWhile p scan.indents

/-! ## Between tokens -/

/-- Skips gaps, comments and line breaks.  A tab is no gap where it could be indentation.  A line
break outside brackets and braces allows a candidate.  Gives the cursor behind it all and whether
a candidate may begin there. -/
def skipFrom (inFlow : Bool) (inComment keyAllowed : Bool) : Text → Place → Cursor × Bool
  | [], place => (⟨[], place⟩, keyAllowed)
  | '\r' :: '\n' :: rest, place =>
      skipFrom inFlow false (keyAllowed || !inFlow) rest (place.newLine 2)
  | c :: rest, place =>
      if isBreak c then
        skipFrom inFlow false (keyAllowed || !inFlow) rest (place.newLine c.utf8Size)
      else if inComment || c = '#' then skipFrom inFlow true keyAllowed rest (place.after c)
      else if c = ' ' || (c = '\t' && (inFlow || !keyAllowed))
          || (c = '\ufeff' && place.column = 0) then
        skipFrom inFlow false keyAllowed rest (place.after c)
      else (⟨c :: rest, place⟩, keyAllowed)

/-- Skips what stands before the next token. -/
def skipToToken (scan : Scan) : Scan :=
  let (cursor, keyAllowed) :=
    skipFrom scan.inFlow false scan.keyAllowed scan.cursor.rest scan.cursor.place
  { scan with cursor, keyAllowed }

/-! ## Tokens -/

/-- A fault at the cursor with nothing to say about what was being read. -/
def fail {α : Type} (scan : Scan) (problem : Problem) : Except SyntaxFault α :=
  .error (.alone problem scan.place)

/-- Ends the text on a line of its own. -/
def takeEnd (scan : Scan) : Except SyntaxFault Scan := do
  let place := scan.place
  let scan :=
    if place.column = 0 then scan else { scan with cursor := ⟨[], place.newLine 0⟩ }
  let scan ← (scan.closeBlocks fun _ => true).dropCandidate
  .ok { scan.add .textEnd scan.place with keyAllowed := false, ended := true }

/-- Takes a directive. -/
def takeDirective (scan : Scan) : Except SyntaxFault Scan := do
  let scan ← (scan.closeBlocks fun _ => true).dropCandidate
  let (kind, cursor) ← Directive.scan scan.cursor
  .ok { scan.add kind scan.place with cursor, keyAllowed := false }

/-- Takes a document marker. -/
def takeMarker (scan : Scan) (kind : TokenKind) : Except SyntaxFault Scan := do
  let scan ← (scan.closeBlocks fun _ => true).dropCandidate
  .ok { scan.add kind scan.place with cursor := scan.cursor.skipMany 3, keyAllowed := false }

/-- Takes an opening bracket or brace. -/
def takeOpening (scan : Scan) (kind : TokenKind) : Except SyntaxFault Scan := do
  let scan ← scan.saveCandidate
  .ok
    { scan.addMark kind with
      candidate := none, outer := scan.candidate :: scan.outer, keyAllowed := true }

/-- Takes a closing bracket or brace. -/
def takeClosing (scan : Scan) (kind : TokenKind) : Except SyntaxFault Scan := do
  let scan ← scan.dropCandidate
  let closed := match scan.outer with
    | [] => scan
    | candidate :: outer => { scan with candidate, outer }
  .ok { closed.addMark kind with keyAllowed := false }

/-- Takes a comma. -/
def takeComma (scan : Scan) : Except SyntaxFault Scan := do
  let scan ← scan.dropCandidate
  .ok { scan.addMark .flowEntry with keyAllowed := true }

/-- Takes a dash. -/
def takeDash (scan : Scan) : Except SyntaxFault Scan := do
  if !scan.inFlow && !scan.keyAllowed then scan.fail .entryNotAllowed
  else
    let scan := scan.openBlock scan.place.column .blockSequenceStart scan.count scan.place
    let scan ← scan.dropCandidate
    .ok { scan.addMark .blockEntry with keyAllowed := true }

/-- Takes a question mark. -/
def takeKey (scan : Scan) : Except SyntaxFault Scan := do
  if !scan.inFlow && !scan.keyAllowed then scan.fail .keyNotAllowed
  else
    let scan := scan.openBlock scan.place.column .blockMappingStart scan.count scan.place
    let scan ← scan.dropCandidate
    .ok { scan.addMark .key with keyAllowed := !scan.inFlow }

/-- Takes a colon.  A candidate before it is a key. -/
def takeValue (scan : Scan) : Except SyntaxFault Scan :=
  match scan.candidate with
  | some key =>
      let scan := scan.addBefore key.number .key key.place
      let scan := scan.openBlock key.place.column .blockMappingStart key.number key.place
      .ok { scan.addMark .value with candidate := none, keyAllowed := false }
  | none =>
      if !scan.inFlow && !scan.keyAllowed then scan.fail .valueNotAllowed
      else
        let scan := scan.openBlock scan.place.column .blockMappingStart scan.count scan.place
        .ok { scan.addMark .value with keyAllowed := !scan.inFlow }

/-- Takes an alias. -/
def takeAlias (scan : Scan) : Except SyntaxFault Scan := do
  let scan ← scan.saveCandidate
  let (name, cursor) ← Anchor.scan .alias scan.cursor
  .ok { scan.add (.alias name) scan.place with cursor, keyAllowed := false }

/-- Takes an anchor. -/
def takeAnchor (scan : Scan) : Except SyntaxFault Scan := do
  let scan ← scan.saveCandidate
  let (name, cursor) ← Anchor.scan .anchor scan.cursor
  .ok { scan.add (.anchor name) scan.place with cursor, keyAllowed := false }

/-- Takes a tag. -/
def takeTag (scan : Scan) : Except SyntaxFault Scan := do
  let scan ← scan.saveCandidate
  let (handle, suffix, cursor) ← Tag.scan scan.inFlow scan.cursor
  .ok { scan.add (.tag handle suffix) scan.place with cursor, keyAllowed := false }

/-- Takes a literal or folded scalar. -/
def takeBlockScalar (scan : Scan) (isLiteral : Bool) : Except SyntaxFault Scan := do
  let scan ← scan.dropCandidate
  let (text, cursor) ← Block.scan isLiteral scan.enclosing scan.cursor
  .ok { scan.add (.scalar text false) scan.place with cursor, keyAllowed := true }

/-- Takes a quoted scalar. -/
def takeQuoted (scan : Scan) (quote : Char) : Except SyntaxFault Scan := do
  let scan ← scan.saveCandidate
  let (text, cursor) ← Quoted.scan quote scan.cursor
  .ok { scan.add (.scalar text false) scan.place with cursor, keyAllowed := false }

/-- Takes a plain scalar.  If the gap behind it goes across lines, a candidate may follow. -/
def takePlain (scan : Scan) : Except SyntaxFault Scan := do
  let scan ← scan.saveCandidate
  let scanned ← Plain.scan scan.inFlow scan.enclosing scan.cursor
  .ok
    { scan.add (.scalar scanned.text true) scan.place with
      cursor := scanned.cursor, keyAllowed := scanned.brokeLine }

/-- Whether a plain scalar may begin with a character and the text behind it. -/
def startsPlain (inFlow : Bool) (c : Char) (rest : Text) : Bool :=
  if c = '-' then !rest.head?.any isGap
  else if c = '?' || c = ':' then !inFlow && !endsWord rest
  else !"[]\x7b\x7d,#&*!|>'\"%@`".toList.contains c && !isGap c

/-- Takes the token at the cursor, which is no gap and no comment. -/
def takeToken (scan : Scan) : Except SyntaxFault Scan :=
  match scan.cursor.rest with
  | [] => scan.takeEnd
  | c :: rest =>
      let atColumnZero := scan.place.column = 0
      if atColumnZero && c = '%' then scan.takeDirective
      else if atColumnZero && isMarker '-' (c :: rest) then scan.takeMarker .documentStart
      else if atColumnZero && isMarker '.' (c :: rest) then scan.takeMarker .documentEnd
      else if c = '[' then scan.takeOpening .flowSequenceStart
      else if c = '\x7b' then scan.takeOpening .flowMappingStart
      else if c = ']' then scan.takeClosing .flowSequenceEnd
      else if c = '\x7d' then scan.takeClosing .flowMappingEnd
      else if c = ',' then scan.takeComma
      else if c = '-' && endsWord rest then scan.takeDash
      else if c = '?' && (scan.inFlow || endsWord rest) then scan.takeKey
      else if c = ':' && (scan.inFlow || endsWord rest) then scan.takeValue
      else if c = '*' then scan.takeAlias
      else if c = '&' then scan.takeAnchor
      else if c = '!' then scan.takeTag
      else if c = '|' && !scan.inFlow then scan.takeBlockScalar true
      else if c = '>' && !scan.inFlow then scan.takeBlockScalar false
      else if c = '\'' then scan.takeQuoted '\''
      else if c = '"' then scan.takeQuoted '"'
      else if startsPlain scan.inFlow c rest then scan.takePlain
      else .error (.within .nextToken scan.place .strayCharacter scan.place)

/-- Takes the next token and settles what can be settled. -/
def step (scan : Scan) : Except SyntaxFault Scan := do
  let scan ← scan.skipToToken.refreshAll
  let scan ← (scan.closeBlocks fun indent => scan.place.column < indent).takeToken
  scan.settle

/-- The settled tokens. -/
def settledTokens (scan : Scan) : List Token :=
  (scan.tokens.drop (scan.count - scan.settled)).reverse

/-- Takes tokens up to the end of the text or a fault.  `fuel` bounds their number. -/
def run : (fuel : Nat) → Scan → TokenStream
  | 0, scan => ⟨scan.settledTokens, none⟩
  | fuel + 1, scan =>
      match scan.step with
      | .error fault => ⟨scan.settledTokens, some fault⟩
      | .ok next => if next.ended then ⟨next.settledTokens, none⟩ else run fuel next

end Scan

/-- The tokens of a text.  Every token but the last takes a character. -/
def TokenStream.ofText (text : Text) : TokenStream :=
  Scan.run (text.length + 1) (Scan.start text)

end LiteralAudit.Yaml
