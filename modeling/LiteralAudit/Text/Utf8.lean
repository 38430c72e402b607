import LiteralAudit.Text.Basic

/-!
# Texts as bytes

Writing a text in UTF-8 and reading it back.  The reader goes byte by byte.  Between characters
it expects a first byte; inside a character it remembers how many bytes are still owed, which
values the next one may have, and the bits read so far.

A byte that does not fit ends the character that was begun.  `decode?` refuses the text then.
`decodeLossy` writes one replacement character for the bytes of the broken character and reads
the byte again as a first byte.  So each broken character is replaced by itself, however long it
was, and a line break is never taken into one.
-/

namespace LiteralAudit.Text.Utf8

/-- The bytes of a text. -/
def encode (text : Text) : List UInt8 := text.flatMap String.utf8EncodeChar

/-- The character written for bytes that are no text. -/
def replacement : Char := '\ufffd'

/-- A character of which some bytes have been read. -/
structure Begun where
  /-- How many bytes are owed. -/
  owed : Nat
  /-- The least value the next byte may have. -/
  low : UInt8
  /-- The greatest value the next byte may have. -/
  high : UInt8
  /-- The bits read so far. -/
  bits : Nat
  deriving DecidableEq, Repr

/-- What a byte amounts to. -/
inductive Step where
  /-- The byte ends a character. -/
  | done (c : Char)
  /-- More bytes are owed. -/
  | more (begun : Begun)
  /-- The byte does not fit. -/
  | broken
  deriving DecidableEq, Repr

/-- The step for a first byte. -/
def first (byte : UInt8) : Step :=
  if byte ≤ 0x7f then .done (Char.ofNat byte.toNat)
  else if 0xc2 ≤ byte && byte ≤ 0xdf then .more ⟨1, 0x80, 0xbf, byte.toNat - 0xc0⟩
  else if byte = 0xe0 then .more ⟨2, 0xa0, 0xbf, 0⟩
  else if byte = 0xed then .more ⟨2, 0x80, 0x9f, 0xd⟩
  else if 0xe1 ≤ byte && byte ≤ 0xef then .more ⟨2, 0x80, 0xbf, byte.toNat - 0xe0⟩
  else if byte = 0xf0 then .more ⟨3, 0x90, 0xbf, 0⟩
  else if 0xf1 ≤ byte && byte ≤ 0xf3 then .more ⟨3, 0x80, 0xbf, byte.toNat - 0xf0⟩
  else if byte = 0xf4 then .more ⟨3, 0x80, 0x8f, 4⟩
  else .broken

/-- The step for a byte inside a character. -/
def Begun.next (begun : Begun) (byte : UInt8) : Step :=
  if begun.low ≤ byte && byte ≤ begun.high then
    let bits := begun.bits * 64 + (byte.toNat - 0x80)
    if begun.owed ≤ 1 then .done (Char.ofNat bits)
    else .more ⟨begun.owed - 1, 0x80, 0xbf, bits⟩
  else .broken

/-- The text of the bytes that follow what has been read of a character, with every broken
character replaced. -/
def decodeLossyFrom : Option Begun → List UInt8 → Text
  | none, [] => []
  | some _, [] => [replacement]
  | none, byte :: bytes =>
      match first byte with
      | .done c => c :: decodeLossyFrom none bytes
      | .more begun => decodeLossyFrom (some begun) bytes
      | .broken => replacement :: decodeLossyFrom none bytes
  | some begun, byte :: bytes =>
      match begun.next byte with
      | .done c => c :: decodeLossyFrom none bytes
      | .more begun => decodeLossyFrom (some begun) bytes
      | .broken =>
          replacement ::
            match first byte with
            | .done c => c :: decodeLossyFrom none bytes
            | .more begun => decodeLossyFrom (some begun) bytes
            | .broken => replacement :: decodeLossyFrom none bytes

/-- The text of some bytes, with every broken character replaced. -/
def decodeLossy (bytes : List UInt8) : Text := decodeLossyFrom none bytes

/-- The text of the bytes that follow what has been read of a character, if they are one. -/
def decodeFrom? : Option Begun → List UInt8 → Option Text
  | none, [] => some []
  | some _, [] => none
  | begun, byte :: bytes =>
      match begun.elim (first byte) (·.next byte) with
      | .done c => (decodeFrom? none bytes).map (c :: ·)
      | .more begun => decodeFrom? (some begun) bytes
      | .broken => none

/-- The text of some bytes, if they are one. -/
def decode? (bytes : List UInt8) : Option Text := decodeFrom? none bytes

end LiteralAudit.Text.Utf8
