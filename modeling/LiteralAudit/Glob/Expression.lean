import LiteralAudit.Text.Basic

/-!
# Expressions on bytes

A regular expression over bytes, in which only sets of bytes are repeated.  `rests` answers what
may follow a match that begins at the first byte: every stretch of bytes that is left behind one
of the matches.  An expression accepts a string of bytes if nothing need be left.
-/

namespace LiteralAudit

/-- A description of strings of bytes. -/
inductive ByteExpression where
  /-- No string. -/
  | never
  /-- The empty string. -/
  | empty
  /-- One byte with a property. -/
  | one (accepts : UInt8 → Bool)
  /-- Any number of bytes with a property. -/
  | many (accepts : UInt8 → Bool)
  /-- A string of the first expression and then one of the second. -/
  | seq (first second : ByteExpression)
  /-- A string of either expression. -/
  | either (left right : ByteExpression)

namespace ByteExpression

/-- What is left behind any number of bytes with a property. -/
def restsOfMany (accepts : UInt8 → Bool) : List UInt8 → List (List UInt8)
  | [] => [[]]
  | byte :: bytes =>
      (byte :: bytes) :: if accepts byte then restsOfMany accepts bytes else []

/-- What is left behind the matches at the beginning, each rest once. -/
def rests : ByteExpression → List UInt8 → List (List UInt8)
  | .never, _ => []
  | .empty, bytes => [bytes]
  | .one _, [] => []
  | .one accepts, byte :: bytes => if accepts byte then [bytes] else []
  | .many accepts, bytes => restsOfMany accepts bytes
  | .seq first second, bytes => ((first.rests bytes).flatMap second.rests).eraseDups
  | .either left right, bytes => (left.rests bytes ++ right.rests bytes).eraseDups

/-- Whether the expression describes the whole string. -/
def accepts (expression : ByteExpression) (bytes : List UInt8) : Bool :=
  (expression.rests bytes).contains []

/-- The expression of the given bytes, one after the other. -/
def bytes : List UInt8 → ByteExpression
  | [] => .empty
  | [byte] => .one (· = byte)
  | byte :: bytes => .seq (.one (· = byte)) (ByteExpression.bytes bytes)

/-- A byte that separates the steps of a path. -/
def slash : ByteExpression := .one (· = 0x2f)

/-- Any number of any bytes. -/
def anything : ByteExpression := .many fun _ => true

end ByteExpression

end LiteralAudit
