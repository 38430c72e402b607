import LiteralAudit.Json

/-!
# Reading JSON

A recursive-descent reader of JSON documents.  It walks over the text with a cursor, and the
first thing that does not fit ends it with a cause and an offset.

An offset is either the place the cursor stands at or the place behind the next byte, depending
on whether the offending character has been taken.  `Error.message` turns an offset into a line
and a column of bytes.

Arrays and objects may be nested 127 deep.  The number of steps is bounded by the length of the
text, and each step of a list or an object takes at least one character.
-/

namespace LiteralAudit.Json

/-- Why a text is no JSON document. -/
inductive Cause where
  /-- The text ends inside a list. -/
  | endInList
  /-- The text ends inside an object. -/
  | endInObject
  /-- The text ends inside a string. -/
  | endInString
  /-- The text ends where a value belongs. -/
  | endInValue
  /-- A colon belongs here. -/
  | expectedColon
  /-- A list goes on or ends here. -/
  | expectedListEnd
  /-- An object goes on or ends here. -/
  | expectedObjectEnd
  /-- A literal name is misspelled. -/
  | expectedName
  /-- A value belongs here. -/
  | expectedValue
  /-- A backslash stands before a character that it cannot escape. -/
  | invalidEscape
  /-- A number is not well formed. -/
  | invalidNumber
  /-- A number is too large. -/
  | numberOutOfRange
  /-- A control character stands in a string. -/
  | controlCharacter
  /-- The name of a member is no string. -/
  | keyNotString
  /-- Half of a surrogate pair stands alone. -/
  | loneSurrogate
  /-- The second half of a surrogate pair is missing. -/
  | endOfEscape
  /-- A comma stands before the end. -/
  | trailingComma
  /-- Something stands behind the value. -/
  | trailingCharacters
  /-- The nesting is too deep. -/
  | tooDeep
  deriving DecidableEq, Repr

/-- The words for a cause. -/
def Cause.message : Cause → Text
  | .endInList => "EOF while parsing a list"
  | .endInObject => "EOF while parsing an object"
  | .endInString => "EOF while parsing a string"
  | .endInValue => "EOF while parsing a value"
  | .expectedColon => "expected `:`"
  | .expectedListEnd => "expected `,` or `]`"
  | .expectedObjectEnd => "expected `,` or `\x7d`"
  | .expectedName => "expected ident"
  | .expectedValue => "expected value"
  | .invalidEscape => "invalid escape"
  | .invalidNumber => "invalid number"
  | .numberOutOfRange => "number out of range"
  | .controlCharacter =>
      "control character (\\u0000-\\u001F) found while parsing a string"
  | .keyNotString => "key must be a string"
  | .loneSurrogate => "lone leading surrogate in hex escape"
  | .endOfEscape => "unexpected end of hex escape"
  | .trailingComma => "trailing comma"
  | .trailingCharacters => "trailing characters"
  | .tooDeep => "recursion limit exceeded"

/-- Why and where reading ended. -/
structure Error where
  /-- The cause. -/
  cause : Cause
  /-- The offset in bytes. -/
  offset : Nat
  deriving DecidableEq, Repr

/-- The line and the column of an offset.  Lines are counted from one.  The column is the number
of bytes between the last line feed before the offset and the offset. -/
def lineAndColumn (offset : Nat) (text : Text) : Nat × Nat :=
  go text offset 1 0
where
  /-- The line and the column of an offset into the rest of the text. -/
  go : Text → Nat → Nat → Nat → Nat × Nat
    | [], left, line, column => (line, column + left)
    | c :: rest, left, line, column =>
        if left < c.utf8Size then (line, column + left)
        else if c = '\n' then go rest (left - 1) (line + 1) 0
        else go rest (left - c.utf8Size) line (column + c.utf8Size)

/-- The message for an error in a text. -/
def Error.message (error : Error) (text : Text) : Text :=
  let (line, column) := lineAndColumn error.offset text
  error.cause.message ++ " at line " ++ Text.ofNat line ++ " column " ++ Text.ofNat column

/-- A place in the text that is read. -/
structure Cursor where
  /-- The offset of the place in bytes. -/
  offset : Nat
  /-- The text behind the place. -/
  rest : Text
  deriving DecidableEq, Repr

namespace Cursor

/-- The place behind some characters at the cursor. -/
def skip (cursor : Cursor) (count : Nat) : Cursor :=
  ⟨cursor.offset + Text.byteSize (cursor.rest.take count), cursor.rest.drop count⟩

/-- The next character. -/
def peek (cursor : Cursor) : Option Char := cursor.rest.head?

/-- An error at the cursor. -/
def fail {α : Type} (cursor : Cursor) (cause : Cause) : Except Error α :=
  .error ⟨cause, cursor.offset⟩

/-- An error behind the next byte. -/
def failNext {α : Type} (cursor : Cursor) (cause : Cause) : Except Error α :=
  .error ⟨cause, if cursor.rest.isEmpty then cursor.offset else cursor.offset + 1⟩

end Cursor

/-- The white space of JSON. -/
def isSpace (c : Char) : Bool := c = ' ' || c = '\n' || c = '\t' || c = '\r'

/-- The place behind the white space at the cursor. -/
def skipSpace (cursor : Cursor) : Cursor :=
  cursor.skip (cursor.rest.takeWhile isSpace).length

/-! ## Names -/

/-- The place behind the rest of a literal name. -/
def expectName : (name : Text) → Cursor → Except Error Cursor
  | [], cursor => .ok cursor
  | c :: name, cursor =>
      match cursor.rest with
      | [] => cursor.fail .endInValue
      | d :: _ =>
          if c = d then expectName name (cursor.skip 1) else (cursor.skip 1).fail .expectedName

/-! ## Numbers -/

/-- The greatest number kept exactly. -/
def greatestNatural : Nat := Nat.pow 2 64 - 1

/-- A significand that takes up digits for as long as it stays in range: the significand, the
number of digits taken, and the number of digits left over. -/
def takeDigits (significand : Nat) : Text → Nat × Nat × Nat
  | [] => (significand, 0, 0)
  | digit :: digits =>
      let next := significand * 10 + Text.digitValue digit
      if greatestNatural < next then (significand, 0, digits.length + 1)
      else
        let (last, taken, left) := takeDigits next digits
        (last, taken + 1, left)

/-- The binary number nearest to a natural. -/
def floatOfNat (n : Nat) : Float := Float.ofScientific n false 0

/-- A significand scaled by a power of ten, with one rounding for each scaling step.  A step
divides by `10 ^ 308` at most, and `steps` bounds their number; a number below `10 ^ 20` is zero
after two of them. -/
def scaleFloat : (steps : Nat) → (number : Float) → (exponent : Int) → Option Float
  | 0, number, _ => some number
  | steps + 1, number, exponent =>
      if exponent.natAbs ≤ 308 then
        if 0 ≤ exponent then
          let scaled := number * Float.ofScientific 1 false exponent.natAbs
          if scaled.isInf then none else some scaled
        else some (number / Float.ofScientific 1 false exponent.natAbs)
      else if number == 0.0 then some number
      else if 0 ≤ exponent then none
      else scaleFloat steps (number / 1e308) (exponent + 308)

/-- The number with a sign, a significand and an exponent of ten. -/
def Number.ofParts? (isNegative : Bool) (significand : Nat) (exponent : Int) : Option Number :=
  (scaleFloat 4 (floatOfNat significand) exponent).map fun number =>
    .binary (if isNegative then (-number).toBits else number.toBits)

/-- The number of the parts, or an error at the cursor if it is too large. -/
def numberOfParts (isNegative : Bool) (significand : Nat) (exponent : Int) (cursor : Cursor) :
    Except Error (Number × Cursor) :=
  match Number.ofParts? isNegative significand exponent with
  | some number => .ok (number, cursor)
  | none => cursor.fail .numberOutOfRange

/-- The greatest exponent that is counted. -/
def greatestExponent : Nat := Nat.pow 2 31 - 1

/-- How many digits make the exponent exceed the greatest one, if they do. -/
def overflowAt? (exponent count : Nat) : Text → Option Nat
  | [] => none
  | digit :: digits =>
      let next := exponent * 10 + Text.digitValue digit
      if greatestExponent < next then some (count + 1) else overflowAt? next (count + 1) digits

/-- A number whose exponent mark is next. -/
def readExponent (isNegative : Bool) (significand : Nat) (start : Int) (cursor : Cursor) :
    Except Error (Number × Cursor) :=
  let cursor := cursor.skip 1
  let downward := cursor.peek = some '-'
  let cursor := if downward || cursor.peek = some '+' then cursor.skip 1 else cursor
  match cursor.rest with
  | [] => cursor.fail .endInValue
  | c :: _ =>
      if Text.isDigit c then
        let digits := cursor.rest.takeWhile Text.isDigit
        let behind := cursor.skip digits.length
        match overflowAt? 0 0 digits with
        | some count =>
            if significand ≠ 0 && !downward then (cursor.skip count).fail .numberOutOfRange
            else .ok (.binary (if isNegative then (-0.0 : Float).toBits else 0), behind)
        | none =>
            let exponent : Int := Text.value digits
            numberOfParts isNegative significand
              (if downward then start - exponent else start + exponent) behind
      else (cursor.skip 1).fail .invalidNumber

/-- What may follow the digits of a number that is not whole: an exponent or nothing. -/
def readScaled (isNegative : Bool) (significand : Nat) (exponent : Int) (cursor : Cursor) :
    Except Error (Number × Cursor) :=
  if cursor.peek = some 'e' || cursor.peek = some 'E' then
    readExponent isNegative significand exponent cursor
  else numberOfParts isNegative significand exponent cursor

/-- A number whose point is next. -/
def readFraction (isNegative : Bool) (significand : Nat) (exponent : Int) (cursor : Cursor) :
    Except Error (Number × Cursor) :=
  let cursor := cursor.skip 1
  let digits := cursor.rest.takeWhile Text.isDigit
  if digits.isEmpty then
    cursor.failNext (if cursor.rest.isEmpty then .endInValue else .invalidNumber)
  else
    let (significand, taken, _) := takeDigits significand digits
    readScaled isNegative significand (exponent - taken) (cursor.skip digits.length)

/-- A whole number, unless a point or an exponent follows. -/
def readNumberFrom (isNegative : Bool) (significand leftOver : Nat) (cursor : Cursor) :
    Except Error (Number × Cursor) :=
  if cursor.peek = some '.' then readFraction isNegative significand leftOver cursor
  else if cursor.peek = some 'e' || cursor.peek = some 'E' then
    readExponent isNegative significand leftOver cursor
  else if leftOver ≠ 0 then numberOfParts isNegative significand leftOver cursor
  else if !isNegative then .ok (.natural significand, cursor)
  else if 0 < significand && significand ≤ Nat.pow 2 63 then
    .ok (.negative (significand - 1), cursor)
  else .ok (.binary (-floatOfNat significand).toBits, cursor)

/-- A number whose sign has been read. -/
def readNumber (isNegative : Bool) (cursor : Cursor) : Except Error (Number × Cursor) :=
  match cursor.rest with
  | [] => cursor.fail .endInValue
  | '0' :: rest =>
      if rest.head?.any Text.isDigit then (cursor.skip 1).failNext .invalidNumber
      else readNumberFrom isNegative 0 0 (cursor.skip 1)
  | c :: _ =>
      if Text.isDigit c then
        let digits := cursor.rest.takeWhile Text.isDigit
        let (significand, _, leftOver) := takeDigits 0 digits
        readNumberFrom isNegative significand leftOver (cursor.skip digits.length)
      else (cursor.skip 1).fail .invalidNumber

/-! ## Strings -/

/-- The code unit that four hexadecimal digits at the cursor name. -/
def readUnit (cursor : Cursor) : Except Error (Nat × Cursor) :=
  let digits := cursor.rest.take 4
  if Text.byteSize cursor.rest < 4 then
    .error ⟨.endInString, cursor.offset + Text.byteSize cursor.rest⟩
  else if digits.all Text.isHexDigit then .ok (Text.valueIn 16 digits, cursor.skip 4)
  else .error ⟨.invalidEscape, cursor.offset + 4⟩

/-- The character that a `\u` escape names.  The cursor stands behind the `u`. -/
def readCodePoint (cursor : Cursor) : Except Error (Char × Cursor) := do
  let (high, cursor) ← readUnit cursor
  if 0xdc00 ≤ high && high ≤ 0xdfff then cursor.fail .loneSurrogate
  else if high < 0xd800 || 0xdbff < high then .ok (Char.ofNat high, cursor)
  else
    match cursor.rest with
    | [] => cursor.fail .endInString
    | '\\' :: rest =>
        match rest with
        | [] => (cursor.skip 1).fail .endInString
        | 'u' :: _ => do
            let (low, cursor) ← readUnit (cursor.skip 2)
            if low < 0xdc00 || 0xdfff < low then cursor.fail .loneSurrogate
            else .ok (Char.ofNat ((high - 0xd800) * 0x400 + (low - 0xdc00) + 0x10000), cursor)
        | _ :: _ => .error ⟨.endOfEscape, cursor.offset + 2⟩
    | _ :: _ => .error ⟨.endOfEscape, cursor.offset + 1⟩

/-- The character that a letter behind a backslash stands for. -/
def escaped? : Char → Option Char
  | '"' => some '"'
  | '\\' => some '\\'
  | '/' => some '/'
  | 'b' => some '\x08'
  | 'f' => some '\x0c'
  | 'n' => some '\n'
  | 'r' => some '\r'
  | 't' => some '\t'
  | _ => none

/-- The rest of a string, up to its closing quote. -/
def readString : (steps : Nat) → Cursor → Except Error (Text × Cursor)
  | 0, cursor => cursor.fail .endInString
  | steps + 1, cursor =>
      match cursor.rest with
      | [] => cursor.fail .endInString
      | '"' :: _ => .ok ([], cursor.skip 1)
      | '\\' :: rest =>
          match rest with
          | [] => (cursor.skip 1).fail .endInString
          | 'u' :: _ => do
              let (c, cursor) ← readCodePoint (cursor.skip 2)
              let (text, cursor) ← readString steps cursor
              .ok (c :: text, cursor)
          | letter :: _ =>
              match escaped? letter with
              | some c => do
                  let (text, cursor) ← readString steps (cursor.skip 2)
                  .ok (c :: text, cursor)
              | none => .error ⟨.invalidEscape, cursor.offset + 2⟩
      | c :: _ =>
          if c.toNat < 0x20 then (cursor.skip 1).fail .controlCharacter
          else do
            let (text, cursor) ← readString steps (cursor.skip 1)
            .ok (c :: text, cursor)

/-! ## Values -/

/-- How many lists and objects may be open at once, and one more. -/
def depthLimit : Nat := 128

mutual

/-- The value at the cursor, white space aside.  `depth` more lists and objects may be opened,
less one. -/
def readValue : (steps depth : Nat) → Cursor → Except Error (Json × Cursor)
  | 0, _, cursor => cursor.fail .endInValue
  | steps + 1, depth, cursor =>
      let cursor := skipSpace cursor
      match cursor.rest with
      | [] => cursor.failNext .endInValue
      | 'n' :: _ => do
          let cursor ← expectName "ull" (cursor.skip 1)
          .ok (.null, cursor)
      | 't' :: _ => do
          let cursor ← expectName "rue" (cursor.skip 1)
          .ok (.bool true, cursor)
      | 'f' :: _ => do
          let cursor ← expectName "alse" (cursor.skip 1)
          .ok (.bool false, cursor)
      | '-' :: _ => do
          let (number, cursor) ← readNumber true (cursor.skip 1)
          .ok (.num number, cursor)
      | '"' :: _ => do
          let (text, cursor) ← readString cursor.rest.length (cursor.skip 1)
          .ok (.str text, cursor)
      | '[' :: _ =>
          if depth ≤ 1 then cursor.failNext .tooDeep
          else do
            let (items, cursor) ← readItems steps (depth - 1) true (cursor.skip 1)
            .ok (.array items, cursor)
      | '\x7b' :: _ =>
          if depth ≤ 1 then cursor.failNext .tooDeep
          else do
            let (members, cursor) ← readMembers steps (depth - 1) true [] (cursor.skip 1)
            .ok (.object members, cursor)
      | c :: _ =>
          if Text.isDigit c then do
            let (number, cursor) ← readNumber false cursor
            .ok (.num number, cursor)
          else cursor.failNext .expectedValue

/-- The remaining items of a list and its closing bracket. -/
def readItems : (steps depth : Nat) → (isFirst : Bool) → Cursor → Except Error (List Json × Cursor)
  | 0, _, _, cursor => cursor.fail .endInList
  | steps + 1, depth, isFirst, cursor =>
      let cursor := skipSpace cursor
      match cursor.rest with
      | [] => cursor.failNext .endInList
      | ']' :: _ => .ok ([], cursor.skip 1)
      | c :: _ =>
          if isFirst then do
            let (item, cursor) ← readValue steps depth cursor
            let (items, cursor) ← readItems steps depth false cursor
            .ok (item :: items, cursor)
          else if c = ',' then
            let next := skipSpace (cursor.skip 1)
            match next.rest with
            | [] => next.failNext .endInValue
            | ']' :: _ => next.failNext .trailingComma
            | _ :: _ => do
                let (item, cursor) ← readValue steps depth next
                let (items, cursor) ← readItems steps depth false cursor
                .ok (item :: items, cursor)
          else cursor.failNext .expectedListEnd

/-- The remaining members of an object and its closing brace, added to the members read. -/
def readMembers : (steps depth : Nat) → (isFirst : Bool) → (members : List (Text × Json)) →
    Cursor → Except Error (List (Text × Json) × Cursor)
  | 0, _, _, _, cursor => cursor.fail .endInObject
  | steps + 1, depth, isFirst, members, cursor =>
      let cursor := skipSpace cursor
      match cursor.rest with
      | [] => cursor.failNext .endInObject
      | '\x7d' :: _ => .ok (members, cursor.skip 1)
      | c :: _ =>
          if isFirst then
            if c = '"' then readMember steps depth members cursor
            else cursor.failNext .keyNotString
          else if c = ',' then
            let next := skipSpace (cursor.skip 1)
            match next.rest with
            | [] => next.failNext .endInValue
            | '"' :: _ => readMember steps depth members next
            | '\x7d' :: _ => next.failNext .trailingComma
            | _ :: _ => next.failNext .keyNotString
          else cursor.failNext .expectedObjectEnd

/-- A member whose opening quote is next, and what follows it. -/
def readMember : (steps depth : Nat) → (members : List (Text × Json)) →
    Cursor → Except Error (List (Text × Json) × Cursor)
  | 0, _, _, cursor => cursor.fail .endInObject
  | steps + 1, depth, members, cursor => do
      let (name, cursor) ← readString cursor.rest.length (cursor.skip 1)
      let cursor := skipSpace cursor
      match cursor.rest with
      | [] => cursor.failNext .endInObject
      | ':' :: _ => do
          let (value, cursor) ← readValue steps depth (cursor.skip 1)
          readMembers steps depth false (insertMember name value members) cursor
      | _ :: _ => cursor.failNext .expectedColon

end

/-- The value of a document. -/
def read (text : Text) : Except Error Json := do
  let (value, cursor) ← readValue (3 * text.length + 3) depthLimit ⟨0, text⟩
  let cursor := skipSpace cursor
  match cursor.rest with
  | [] => .ok value
  | _ :: _ => cursor.failNext .trailingCharacters

end LiteralAudit.Json
