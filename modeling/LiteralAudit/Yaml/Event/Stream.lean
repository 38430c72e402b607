import LiteralAudit.Yaml.Event
import LiteralAudit.Yaml.Token.Stream

/-!
# The events of a text

Tokens become events by a machine with a stack.  On the stack lies what is expected next: the
rest of the innermost collection on top, below it the rest of the collection around it, and at
the bottom the rest of the documents.

`EventStream` holds the events up to the end of the text or the first fault.
-/

namespace LiteralAudit.Yaml

/-- The events of a text, and the fault that ended them, if one did. -/
structure EventStream where
  /-- The events. -/
  events : List Event
  /-- The fault that ended them. -/
  fault : Option SyntaxFault
  deriving DecidableEq, Repr

/-- What is expected next. -/
inductive Expected where
  /-- The first document, which may begin without a marker. -/
  | firstDocument
  /-- Another document, which begins with a marker. -/
  | document
  /-- What follows the marker of a document. -/
  | content
  /-- The end of a document. -/
  | documentEnd
  /-- A node outside brackets and braces. -/
  | blockNode
  /-- An entry of a sequence of dashes that began at a place, or its end. -/
  | blockEntry (began : Place)
  /-- An entry of a sequence of dashes that is indented no further than the mapping around it. -/
  | levelEntry
  /-- A key of a mapping without braces that began at a place, or its end. -/
  | blockKey (began : Place)
  /-- A value of a mapping without braces that began at a place. -/
  | blockValue (began : Place)
  /-- An entry of a sequence in brackets that began at a place, or its end. -/
  | flowEntry (isFirst : Bool) (began : Place)
  /-- The key of a pair in brackets. -/
  | pairKey
  /-- The value of a pair in brackets. -/
  | pairValue
  /-- The end of a pair in brackets. -/
  | pairEnd
  /-- A key of a mapping in braces that began at a place, or its end. -/
  | flowKey (isFirst : Bool) (began : Place)
  /-- A value of a mapping in braces that began at a place. -/
  | flowValue (began : Place)
  /-- The value behind a key in braces without a colon. -/
  | flowNoValue (began : Place)
  deriving DecidableEq, Repr

/-- The state of the machine. -/
structure Walk where
  /-- The tokens to come. -/
  tokens : List Token
  /-- The fault behind them. -/
  fault : Option SyntaxFault
  /-- What is expected, the next first. -/
  stack : List Expected
  /-- The declared tag handles and what they stand for. -/
  handles : List (Text × List UInt8)
  deriving DecidableEq, Repr

namespace Walk

/-- An event and the state behind it, or the end. -/
abbrev Step := Except SyntaxFault (Option (Event × Walk))

/-- The state at the beginning. -/
def start (stream : TokenStream) : Walk := ⟨stream.tokens, stream.fault, [.firstDocument], []⟩

/-- The next token. -/
def peek (walk : Walk) : Except SyntaxFault Token :=
  match walk.tokens with
  | token :: _ => .ok token
  | [] =>
      match walk.fault with
      | some fault => .error fault
      | none => .ok ⟨.textEnd, .start⟩

/-- The state behind the next token. -/
def skip (walk : Walk) : Walk := { walk with tokens := walk.tokens.drop 1 }

/-- The state that expects something before all else. -/
def push (walk : Walk) (expected : Expected) : Walk :=
  { walk with stack := expected :: walk.stack }

/-- An event and the state behind it. -/
def emit (walk : Walk) (kind : EventKind) (place : Place) : Step :=
  .ok (some (⟨kind, place⟩, walk))

/-- A node that is not written. -/
def emitEmpty (walk : Walk) (place : Place) : Step := .ok (some (.empty place, walk))

/-- A fault that names what was being read. -/
def failWithin (activity : Activity) (began : Place) (problem : Problem) (token : Token) : Step :=
  .error (.within activity began problem token.place)

/-! ## Documents -/

/-- The handles that need no declaration. -/
def standardHandles : List (Text × List UInt8) :=
  [("!".toList, Text.Utf8.encode "!".toList),
    ("!!".toList, Text.Utf8.encode "tag:yaml.org,2002:".toList)]

/-- What a handle stands for. -/
def lookUp? (handles : List (Text × List UInt8)) (handle : Text) : Option (List UInt8) :=
  (handles.find? fun entry => entry.1 = handle).map Prod.snd

/-- Reads the directives before a document.  A version is given at most once and is 1.1 or 1.2; a
handle is declared at most once. -/
def readDirectives (sawVersion : Bool) (handles : List (Text × List UInt8)) :
    List Token → Except SyntaxFault (List (Text × List UInt8) × List Token)
  | ⟨.versionDirective major minor, place⟩ :: tokens =>
      if sawVersion then .error (.alone .duplicateVersion place)
      else if major = 1 && (minor = 1 || minor = 2) then readDirectives true handles tokens
      else .error (.alone .incompatibleVersion place)
  | ⟨.tagDirective handle start, place⟩ :: tokens =>
      if (lookUp? handles handle).isSome then .error (.alone .duplicateHandle place)
      else readDirectives sawVersion (handles ++ [(handle, start)]) tokens
  | tokens => .ok (handles, tokens)

/-- Whether a token is a directive. -/
def isDirective : TokenKind → Bool
  | .versionDirective _ _ | .tagDirective _ _ => true
  | _ => false

/-- The state behind the directives before a document. -/
def takeDirectives (walk : Walk) : Except SyntaxFault Walk := do
  let (handles, tokens) ← readDirectives false [] walk.tokens
  .ok { walk with tokens, handles := handles ++ standardHandles }

/-- A document that begins with a marker. -/
def explicitDocument (walk : Walk) (began : Place) : Step := do
  let walk ← walk.takeDirectives
  let token ← walk.peek
  match token.kind with
  | .documentStart => (((walk.skip.push .documentEnd).push .content).emit .documentStart began)
  | _ => .error (.alone .expectedDocumentStart token.place)

/-- The first document. -/
def firstDocument (walk : Walk) : Step := do
  let token ← walk.peek
  match token.kind with
  | .textEnd => .ok none
  | .documentStart => walk.explicitDocument token.place
  | kind =>
      if isDirective kind then walk.explicitDocument token.place
      else
        let walk := { walk with handles := standardHandles }
        ((walk.push .documentEnd).push .blockNode).emit .documentStart token.place

/-- A document behind others.  Further end markers before it mean nothing. -/
def document (walk : Walk) : Step := do
  let isEndMarker (token : Token) : Bool := token.kind = .documentEnd
  let walk := { walk with tokens := walk.tokens.dropWhile isEndMarker }
  let token ← walk.peek
  match token.kind with
  | .textEnd => .ok none
  | _ => walk.explicitDocument token.place

/-- The end of a document. -/
def documentEnd (walk : Walk) : Step := do
  let token ← walk.peek
  let walk := if token.kind = .documentEnd then walk.skip else walk
  ({ walk with handles := [] }.push .document).emit .documentEnd token.place

/-! ## Nodes -/

/-- What a handle and a suffix stand for together. -/
def resolve (walk : Walk) (began : Place) (handle : Text) (suffix : List UInt8) (place : Place) :
    Except SyntaxFault TagBytes :=
  if handle.isEmpty then .ok suffix
  else
    match lookUp? walk.handles handle with
    | some start => .ok (start ++ suffix)
    | none => .error (.within .node began .undefinedHandle place)

/-- Reads an anchor if one is next. -/
def takeAnchor (walk : Walk) : Except SyntaxFault (Option Text × Walk) := do
  match (← walk.peek).kind with
  | .anchor name => .ok (some name, walk.skip)
  | _ => .ok (none, walk)

/-- Reads a tag if one is next: the handle, the suffix and the place. -/
def takeTag (walk : Walk) : Except SyntaxFault (Option (Text × List UInt8 × Place) × Walk) := do
  let token ← walk.peek
  match token.kind with
  | .tag handle suffix => .ok (some (handle, suffix, token.place), walk.skip)
  | _ => .ok (none, walk)

/-- Reads the properties of a node that begins at a place: an anchor and a tag in any order. -/
def takeProperties (walk : Walk) (began : Place) : Except SyntaxFault (Properties × Walk) := do
  let (first, walk) ← walk.takeAnchor
  let (tag, walk) ← walk.takeTag
  let (second, walk) ← if first.isNone && tag.isSome then walk.takeAnchor else .ok (none, walk)
  let _ ← walk.peek
  match tag with
  | none => .ok (⟨first, none⟩, walk)
  | some (handle, suffix, place) => do
      let bytes ← walk.resolve began handle suffix place
      .ok (⟨first <|> second, some bytes⟩, walk)

/-- A tag that says of a scalar only that it is one. -/
def isPlainTag (tag : Option TagBytes) : Bool := tag = some (Text.Utf8.encode ['!'])

/-- A node.  `inBlock` says whether it may be a collection without brackets and braces, and
`level` whether it may be a sequence that is not indented further. -/
def node (walk : Walk) (inBlock level : Bool) : Step := do
  let first ← walk.peek
  let began := first.place
  match first.kind with
  | .alias name => walk.skip.emit (.alias name) began
  | _ => do
      let (properties, walk) ← walk.takeProperties began
      let token ← walk.peek
      let unknown : Step :=
        if properties = .none then
          failWithin (if inBlock then .blockNode else .flowNode) began .expectedNode token
        else walk.emit (.scalar properties [] true) began
      match token.kind with
      | .blockEntry =>
          if level then (walk.push .levelEntry).emit (.sequenceStart properties) began
          else unknown
      | .scalar text isPlain =>
          let tag := if isPlainTag properties.tag then none else properties.tag
          walk.skip.emit (.scalar { properties with tag } text isPlain) began
      | .flowSequenceStart =>
          (walk.skip.push (.flowEntry true token.place)).emit (.sequenceStart properties) began
      | .flowMappingStart =>
          (walk.skip.push (.flowKey true token.place)).emit (.mappingStart properties) began
      | .blockSequenceStart =>
          if inBlock then
            (walk.skip.push (.blockEntry token.place)).emit (.sequenceStart properties) began
          else unknown
      | .blockMappingStart =>
          if inBlock then
            (walk.skip.push (.blockKey token.place)).emit (.mappingStart properties) began
          else unknown
      | _ => unknown

/-- What follows the marker of a document: a node or nothing. -/
def content (walk : Walk) : Step := do
  let token ← walk.peek
  match token.kind with
  | .documentStart | .documentEnd | .textEnd => walk.emitEmpty token.place
  | kind => if isDirective kind then walk.emitEmpty token.place else walk.node true false

/-! ## Collections without brackets and braces -/

/-- An entry of a sequence, or its end. -/
def blockEntry (walk : Walk) (began : Place) : Step := do
  let token ← walk.peek
  match token.kind with
  | .blockEntry => do
      let walk := walk.skip.push (.blockEntry began)
      let next ← walk.peek
      match next.kind with
      | .blockEntry | .blockEnd => walk.emitEmpty next.place
      | _ => walk.node true false
  | .blockEnd => walk.skip.emit .sequenceEnd token.place
  | _ => failWithin .blockSequence began .expectedDash token

/-- An entry of a sequence that is not indented further than the mapping around it, or its
end. -/
def levelEntry (walk : Walk) : Step := do
  let token ← walk.peek
  match token.kind with
  | .blockEntry => do
      let walk := walk.skip.push .levelEntry
      let next ← walk.peek
      match next.kind with
      | .blockEntry | .key | .value | .blockEnd => walk.emitEmpty next.place
      | _ => walk.node true false
  | _ => walk.emit .sequenceEnd token.place

/-- A node of a mapping, which is empty if a key, a value or the end comes at once. -/
def blockMember (walk : Walk) : Step := do
  let next ← walk.peek
  match next.kind with
  | .key | .value | .blockEnd => walk.emitEmpty next.place
  | _ => walk.node true true

/-- A key of a mapping, or its end. -/
def blockKey (walk : Walk) (began : Place) : Step := do
  let token ← walk.peek
  match token.kind with
  | .key => (walk.skip.push (.blockValue began)).blockMember
  | .blockEnd => walk.skip.emit .mappingEnd token.place
  | _ => failWithin .blockMapping began .expectedKey token

/-- A value of a mapping. -/
def blockValue (walk : Walk) (began : Place) : Step := do
  let token ← walk.peek
  let walk := walk.push (.blockKey began)
  match token.kind with
  | .value => walk.skip.blockMember
  | _ => walk.emitEmpty token.place

/-! ## Collections in brackets and braces -/

/-- The state behind the comma between two members of a collection. -/
def takeComma (walk : Walk) (isFirst : Bool) (activity : Activity) (began : Place)
    (problem : Problem) : Except SyntaxFault Walk := do
  if isFirst then .ok walk
  else
    let token ← walk.peek
    match token.kind with
    | .flowEntry => .ok walk.skip
    | _ => .error (.within activity began problem token.place)

/-- An entry of a sequence, or its end.  A key begins a mapping of one pair. -/
def flowEntry (walk : Walk) (isFirst : Bool) (began : Place) : Step := do
  let token ← walk.peek
  match token.kind with
  | .flowSequenceEnd => walk.skip.emit .sequenceEnd token.place
  | _ => do
      let walk ← walk.takeComma isFirst .flowSequence began .expectedBracket
      let token ← walk.peek
      let behind := walk.push (.flowEntry false began)
      match token.kind with
      | .key => (behind.skip.push .pairKey).emit (.mappingStart .none) token.place
      | .flowSequenceEnd => walk.skip.emit .sequenceEnd token.place
      | _ => behind.node false false

/-- The key of a pair.  A token that cannot begin it stands for an empty key and is skipped. -/
def pairKey (walk : Walk) : Step := do
  let token ← walk.peek
  let walk := walk.push .pairValue
  match token.kind with
  | .value | .flowEntry | .flowSequenceEnd => walk.skip.emitEmpty token.place
  | _ => walk.node false false

/-- The value of a pair. -/
def pairValue (walk : Walk) : Step := do
  let token ← walk.peek
  let walk := walk.push .pairEnd
  match token.kind with
  | .value => do
      let next ← walk.skip.peek
      match next.kind with
      | .flowEntry | .flowSequenceEnd => walk.skip.emitEmpty next.place
      | _ => walk.skip.node false false
  | _ => walk.emitEmpty token.place

/-- The end of a pair. -/
def pairEnd (walk : Walk) : Step := do
  let token ← walk.peek
  walk.emit .mappingEnd token.place

/-- A key of a mapping, or its end.  A key may come without a question mark and a colon. -/
def flowKey (walk : Walk) (isFirst : Bool) (began : Place) : Step := do
  let token ← walk.peek
  match token.kind with
  | .flowMappingEnd => walk.skip.emit .mappingEnd token.place
  | _ => do
      let walk ← walk.takeComma isFirst .flowMapping began .expectedBrace
      let token ← walk.peek
      match token.kind with
      | .key => do
          let walk := walk.skip.push (.flowValue began)
          let next ← walk.peek
          match next.kind with
          | .value | .flowEntry | .flowMappingEnd => walk.emitEmpty next.place
          | _ => walk.node false false
      | .flowMappingEnd => walk.skip.emit .mappingEnd token.place
      | _ => (walk.push (.flowNoValue began)).node false false

/-- A value of a mapping. -/
def flowValue (walk : Walk) (began : Place) : Step := do
  let token ← walk.peek
  let walk := walk.push (.flowKey false began)
  match token.kind with
  | .value => do
      let next ← walk.skip.peek
      match next.kind with
      | .flowEntry | .flowMappingEnd => walk.skip.emitEmpty next.place
      | _ => walk.skip.node false false
  | _ => walk.emitEmpty token.place

/-- The value behind a key without a colon. -/
def flowNoValue (walk : Walk) (began : Place) : Step := do
  let token ← walk.peek
  (walk.push (.flowKey false began)).emitEmpty token.place

/-! ## The machine -/

/-- The next event. -/
def step (walk : Walk) : Step :=
  match walk.stack with
  | [] => .ok none
  | expected :: stack =>
      let walk := { walk with stack }
      match expected with
      | .firstDocument => walk.firstDocument
      | .document => walk.document
      | .content => walk.content
      | .documentEnd => walk.documentEnd
      | .blockNode => walk.node true false
      | .blockEntry began => walk.blockEntry began
      | .levelEntry => walk.levelEntry
      | .blockKey began => walk.blockKey began
      | .blockValue began => walk.blockValue began
      | .flowEntry isFirst began => walk.flowEntry isFirst began
      | .pairKey => walk.pairKey
      | .pairValue => walk.pairValue
      | .pairEnd => walk.pairEnd
      | .flowKey isFirst began => walk.flowKey isFirst began
      | .flowValue began => walk.flowValue began
      | .flowNoValue began => walk.flowNoValue began

/-- The events up to the end or a fault.  `fuel` bounds their number. -/
def run : (fuel : Nat) → Walk → EventStream
  | 0, _ => ⟨[], none⟩
  | fuel + 1, walk =>
      match walk.step with
      | .error fault => ⟨[], some fault⟩
      | .ok none => ⟨[], none⟩
      | .ok (some (event, next)) =>
          let stream := run fuel next
          { stream with events := event :: stream.events }

end Walk

/-- The events of some tokens.  A token takes part in a few events only: those of the collection
that it opens, of the pair around it, and of the empty nodes beside it. -/
def EventStream.ofTokens (stream : TokenStream) : EventStream :=
  Walk.run (8 * stream.tokens.length + 16) (Walk.start stream)

end LiteralAudit.Yaml
