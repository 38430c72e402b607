import LiteralAudit.Text.Basic

/-!
# Reading decimals

A decimal is a sign, digits with at most one point among them, and an exponent of ten.  Only a
digit must be there.  It is read as the nearest binary number, and a tie goes to the one with the
even significand.
-/

namespace LiteralAudit.Decimal

/-- What a decimal is written as. -/
structure Parts where
  /-- Whether a minus sign is in front. -/
  isNegative : Bool
  /-- The digits, as one number. -/
  digits : Nat
  /-- The exponent of ten of the last digit. -/
  exponent : Int
  deriving DecidableEq, Repr

/-- The text without a sign in front, and whether that is a minus. -/
def dropSign : Text → Bool × Text
  | '-' :: text => (true, text)
  | '+' :: text => (false, text)
  | text => (false, text)

/-- The exponent that makes up the whole text. -/
def exponent? : Text → Option Int
  | [] => some 0
  | mark :: text =>
      let (isNegative, digits) := dropSign text
      if (mark = 'e' || mark = 'E') && !digits.isEmpty && digits.all Text.isDigit then
        some (if isNegative then -(Text.value digits : Int) else Text.value digits)
      else none

/-- The parts of a decimal that makes up the whole text. -/
def Parts.read? (text : Text) : Option Parts :=
  let (isNegative, unsigned) := dropSign text
  let (whole, behind) := unsigned.span Text.isDigit
  let (fraction, behind) := match behind with
    | '.' :: rest => rest.span Text.isDigit
    | _ => ([], behind)
  if whole.isEmpty && fraction.isEmpty then none
  else
    (exponent? behind).map fun exponent =>
      ⟨isNegative, Text.value (whole ++ fraction), exponent - fraction.length⟩

/-- The bits of infinity. -/
def infinityBits : UInt64 := 0x7ff0000000000000

/-- The bit of the sign. -/
def signBit : UInt64 := 0x8000000000000000

/-- The bits of the binary number nearest to `digits * 10 ^ exponent`.  The powers of ten far
beyond the range of binary numbers are told by the number of digits. -/
def nearestBits (digits : Nat) (exponent : Int) : UInt64 :=
  let point := ((Text.ofNat digits).length : Int) + exponent
  if digits = 0 || point < -330 then 0
  else if 310 < point then infinityBits
  else (Float.ofScientific digits (exponent < 0) exponent.natAbs).toBits

/-- The bits of the binary number that a decimal is read as. -/
def Parts.toBits (parts : Parts) : UInt64 :=
  let bits := nearestBits parts.digits parts.exponent
  if parts.isNegative then bits ||| signBit else bits

/-- Whether the bits are those of a finite number. -/
def isFinite (bits : UInt64) : Bool := bits &&& infinityBits ≠ infinityBits

/-- The bits of the finite number that a text is read as. -/
def readFinite? (text : Text) : Option UInt64 :=
  match Parts.read? text with
  | none => none
  | some parts => if isFinite parts.toBits then some parts.toBits else none

end LiteralAudit.Decimal
