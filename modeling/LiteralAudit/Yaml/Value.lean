import LiteralAudit.Decimal.Notation
import LiteralAudit.Text.Quote

/-!
# YAML values

What a YAML document stands for.  Two values are the same if they have the same form and the same
parts; the order of the members of a mapping does not matter, a number that is no number is the
same as itself, and whole and binary numbers are never the same.
-/

namespace LiteralAudit.Yaml

/-- A YAML value. -/
inductive Value where
  /-- The null value. -/
  | null
  /-- A truth value. -/
  | bool (value : Bool)
  /-- A whole number. -/
  | whole (value : Int)
  /-- A binary number with these bits. -/
  | binary (bits : UInt64)
  /-- A text. -/
  | text (value : Text)
  /-- A sequence. -/
  | sequence (items : List Value)
  /-- A mapping. -/
  | mapping (members : List (Value × Value))
  /-- A value with a tag of the document's own. -/
  | tagged (tag : Text) (value : Value)
  deriving Repr

namespace Value

/-- Whether the bits are those of no number. -/
def isNaN (bits : UInt64) : Bool :=
  bits &&& 0x7ff0000000000000 = 0x7ff0000000000000 && bits &&& 0xfffffffffffff ≠ 0

/-- Whether two binary numbers are the same.  The two zeros are. -/
def sameBits (a b : UInt64) : Bool :=
  a = b || (isNaN a && isNaN b) || ((a ||| b) &&& 0x7fffffffffffffff = 0)

mutual

/-- Whether two values are the same. -/
def same : Value → Value → Bool
  | .null, .null => true
  | .bool a, .bool b => a = b
  | .whole a, .whole b => a = b
  | .binary a, .binary b => sameBits a b
  | .text a, .text b => a = b
  | .sequence as, .sequence bs => sameItems as bs
  | .mapping as, .mapping bs => as.length = bs.length && sameMembers as bs
  | .tagged a x, .tagged b y => a = b && same x y
  | _, _ => false

/-- Whether two lists hold the same values in the same order. -/
def sameItems : List Value → List Value → Bool
  | [], [] => true
  | a :: as, b :: bs => same a b && sameItems as bs
  | _, _ => false

/-- Whether each member is among the others. -/
def sameMembers : List (Value × Value) → List (Value × Value) → Bool
  | [], _ => true
  | (key, value) :: members, others =>
      (others.any fun other => same key other.1 && same value other.2) &&
        sameMembers members others

end

/-- A binary number as data. -/
def binaryText (bits : UInt64) : Text :=
  if isNaN bits then ".nan"
  else if bits = 0x7ff0000000000000 then ".inf"
  else if bits = 0xfff0000000000000 then "-.inf"
  else Decimal.asData false bits

/-- How a key is named in a message. -/
def keyMessage : Value → Text
  | .null => "with null key"
  | .bool value => "with key `" ++ (if value then "true" else "false") ++ "`"
  | .whole value => "with key " ++ Text.ofInt value
  | .binary bits => "with key " ++ binaryText bits
  | .text value => "with key " ++ Text.quoted value
  | .sequence _ | .mapping _ | .tagged _ _ => "in YAML map"

end Value

end LiteralAudit.Yaml
