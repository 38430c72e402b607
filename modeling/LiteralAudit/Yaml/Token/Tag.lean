import LiteralAudit.Text.Utf8
import LiteralAudit.Yaml.SyntaxFault
import LiteralAudit.Yaml.Token

/-!
# Tags

A tag is written in full between angle brackets, or as a handle and a suffix.  A handle is an
exclamation mark alone, two of them, or a name between two.  In suffixes and prefixes a percent
sign and two hexadecimal digits give a byte of a UTF-8 sequence.
-/

namespace LiteralAudit.Yaml.Tag

/-- The characters of suffixes and prefixes. -/
def isTagChar (c : Char) : Bool := isNameChar c || ";/?:@&=+$.%!~*'()".toList.contains c

/-- The characters of full tags and of prefixes in directives. -/
def isFullTagChar (c : Char) : Bool := isTagChar c || c = ',' || c = '[' || c = ']'

/-- The length of a UTF-8 sequence by its first byte. -/
def sequenceLength? (octet : Nat) : Option Nat :=
  if octet < 0x80 then some 1
  else if octet < 0xc0 then none
  else if octet < 0xe0 then some 2
  else if octet < 0xf0 then some 3
  else if octet < 0xf8 then some 4
  else none

/-- The byte that a percent sign and two hexadecimal digits give. -/
def octet? : Text → Option Nat
  | '%' :: a :: b :: _ =>
      if Text.isHexDigit a && Text.isHexDigit b then some (Text.valueIn 16 [a, b]) else none
  | _ => none

/-- Reads some later bytes of an escaped character. -/
def scanLater (fail : Problem → Place → SyntaxFault) :
    (count : Nat) → Cursor → Except SyntaxFault (List UInt8 × Cursor)
  | 0, cursor => .ok ([], cursor)
  | count + 1, cursor =>
      match octet? cursor.rest with
      | none => .error (fail .badOctet cursor.place)
      | some octet => do
          if octet / 0x40 ≠ 2 then .error (fail .badLaterOctet cursor.place)
          else
            let (octets, stop) ← scanLater fail count (cursor.skipMany 3)
            .ok (octet.toUInt8 :: octets, stop)

/-- Reads an escaped character. -/
def scanEscape (fail : Problem → Place → SyntaxFault) (cursor : Cursor) :
    Except SyntaxFault (List UInt8 × Cursor) :=
  match octet? cursor.rest with
  | none => .error (fail .badOctet cursor.place)
  | some octet =>
      match sequenceLength? octet with
      | none => .error (fail .badFirstOctet cursor.place)
      | some length => do
          let (octets, stop) ← scanLater fail (length - 1) (cursor.skipMany 3)
          .ok (octet.toUInt8 :: octets, stop)

/-- Reads the characters of a suffix or prefix.  `fuel` bounds their number. -/
def scanChars (fail : Problem → Place → SyntaxFault) (p : Char → Bool) :
    (fuel : Nat) → Cursor → Except SyntaxFault (List UInt8 × Cursor)
  | 0, cursor => .ok ([], cursor)
  | fuel + 1, cursor =>
      match cursor.rest.head? with
      | none => .ok ([], cursor)
      | some c =>
          if c = '%' then do
            let (octets, stop) ← scanEscape fail cursor
            let (later, stop) ← scanChars fail p fuel stop
            .ok (octets ++ later, stop)
          else if p c then do
            let (later, stop) ← scanChars fail p fuel cursor.skip
            .ok (c.toNat.toUInt8 :: later, stop)
          else .ok ([], cursor)

/-- Reads a suffix or prefix.  It may be empty only behind a handle that turned out to be its
beginning.  Of its bytes only those before a zero byte count. -/
def scanText (fail : Problem → Place → SyntaxFault) (p : Char → Bool) (start : Text)
    (cursor : Cursor) : Except SyntaxFault (List UInt8 × Cursor) := do
  let (octets, stop) ← scanChars fail p (cursor.rest.length + 1) cursor
  if start.isEmpty && octets.isEmpty then .error (fail .expectedTagText stop.place)
  else .ok (Text.Utf8.encode (start.drop 1) ++ octets.takeWhile (· ≠ 0), stop)

/-- Reads an exclamation mark, a name and, if it is there, another exclamation mark. -/
def scanHandle (cursor : Cursor) : Text × Cursor :=
  let (name, stop) := cursor.skip.takeWhile isNameChar
  if stop.isAt '!' then ('!' :: name ++ ['!'], stop.skip) else ('!' :: name, stop)

/-- Whether what was read is a handle that a suffix follows. -/
def isHandle (text : Text) : Bool := 1 < text.length && Text.endsWith ['!'] text

/-- Reads a tag at its exclamation mark: the handle, which is empty for a full tag, and the
suffix. -/
def scan (inFlow : Bool) (cursor : Cursor) :
    Except SyntaxFault (Text × List UInt8 × Cursor) := do
  let began := cursor.place
  let fail := SyntaxFault.within .tagSuffix began
  let (handle, suffix, stop) : Text × List UInt8 × Cursor ←
    if cursor.skip.isAt '<' then do
      let (full, stop) ← scanText fail isFullTagChar [] cursor.skip.skip
      if stop.isAt '>' then .ok ([], full, stop.skip)
      else .error (.within .tag began .expectedTagEnd stop.place)
    else do
      let (handle, behind) := scanHandle cursor
      if isHandle handle then
        let (suffix, stop) ← scanText fail isTagChar [] behind
        .ok (handle, suffix, stop)
      else
        let (suffix, stop) ← scanText fail isTagChar handle behind
        if suffix.isEmpty then .ok ([], Text.Utf8.encode ['!'], stop)
        else .ok (['!'], suffix, stop)
  if endsWord stop.rest || (inFlow && stop.isAt ',') then .ok (handle, suffix, stop)
  else .error (.within .tag began .expectedGapOrBreak stop.place)

end LiteralAudit.Yaml.Tag
