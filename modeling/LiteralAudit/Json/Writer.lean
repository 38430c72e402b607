import LiteralAudit.Json

/-!
# Writing JSON

Values are written over several lines, two spaces deeper for each list or object.  Empty lists
and objects stay on one line.  The members of an object are written in the order in which they
are kept, which here may be any order.

A string is written with the shortest escape for quotes, backslashes and control characters.
All other characters stand for themselves.
-/

namespace LiteralAudit.Json

/-- The letter that escapes a character behind a backslash, if it has one. -/
def escapeLetter? : Char → Option Char
  | '"' => some '"'
  | '\\' => some '\\'
  | '\x08' => some 'b'
  | '\x0c' => some 'f'
  | '\n' => some 'n'
  | '\r' => some 'r'
  | '\t' => some 't'
  | _ => none

/-- A hexadecimal digit. -/
def hexDigit (n : Nat) : Char := Nat.digitChar (n % 16)

/-- A character as it is written inside a string. -/
def escapeChar (c : Char) : Text :=
  match escapeLetter? c with
  | some letter => ['\\', letter]
  | none =>
      if c.toNat < 0x20 then ['\\', 'u', '0', '0', hexDigit (c.toNat / 16), hexDigit c.toNat]
      else [c]

/-- A text as a string. -/
def quote (text : Text) : Text := '"' :: text.flatMap escapeChar ++ ['"']

/-- A new line with the indentation of a depth. -/
def newLine (depth : Nat) : Text := '\n' :: List.replicate (2 * depth) ' '

mutual

/-- A value that stands at some depth. -/
def writeAt (depth : Nat) : Json → Text
  | .null => "null"
  | .bool true => "true"
  | .bool false => "false"
  | .num value => value.text
  | .str value => quote value
  | .array [] => "[]"
  | .array (item :: items) =>
      '[' :: newLine (depth + 1) ++ writeAt (depth + 1) item ++ writeItems (depth + 1) items ++
        newLine depth ++ [']']
  | .object [] => ['\x7b', '\x7d']
  | .object ((name, value) :: members) =>
      '\x7b' :: newLine (depth + 1) ++ quote name ++ ": " ++ writeAt (depth + 1) value ++
        writeMembers (depth + 1) members ++ newLine depth ++ ['\x7d']

/-- The items of a list behind the first one. -/
def writeItems (depth : Nat) : List Json → Text
  | [] => []
  | item :: items => ',' :: newLine depth ++ writeAt depth item ++ writeItems depth items

/-- The members of an object behind the first one. -/
def writeMembers (depth : Nat) : List (Text × Json) → Text
  | [] => []
  | (name, value) :: members =>
      ',' :: newLine depth ++ quote name ++ ": " ++ writeAt depth value ++
        writeMembers depth members

end

/-- A value as a document. -/
def write (value : Json) : Text := writeAt 0 value

end LiteralAudit.Json
