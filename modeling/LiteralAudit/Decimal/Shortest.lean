/-!
# Shortest decimals

A binary floating-point number stands for all reals that round to it.  The decimal written for
it is the one with the fewest digits among these reals, and of several such the nearest to the
number.  Everything here is exact arithmetic on naturals.

For each count of digits, from one up, only two decimals can be in question: the two neighbours
of the number among the decimals with that many digits.  The first count at which one of them
reads back to the number wins.
-/

namespace LiteralAudit.Decimal

/-- A finite positive binary number: `significand * 2 ^ exponent`. -/
structure Binary where
  /-- The significand. -/
  significand : Nat
  /-- The exponent of two. -/
  exponent : Int
  /-- Whether the number below is half as far away as the number above. -/
  narrowBelow : Bool
  deriving DecidableEq, Repr

/-- The number with the given bits, its sign aside. -/
def Binary.ofBits (bits : UInt64) : Binary :=
  let exponent := ((bits >>> 52) &&& 0x7ff).toNat
  let fraction := (bits &&& 0xfffffffffffff).toNat
  if exponent = 0 then ⟨fraction, -1074, false⟩
  else ⟨Nat.pow 2 52 + fraction, (exponent : Int) - 1075, fraction = 0 && exponent > 1⟩

/-- A decimal: `digits * 10 ^ exponent`. -/
structure Scaled where
  /-- The digits, as one number. -/
  digits : Nat
  /-- The exponent of ten. -/
  exponent : Int
  deriving DecidableEq, Repr

/-- Which of two equally near decimals is taken. -/
inductive Tie where
  /-- The one whose last digit is even. -/
  | even
  /-- The greater one. -/
  | up
  deriving DecidableEq, Repr

/-- The order of `a * 10 ^ i` and `b * 2 ^ j`. -/
def compareScaled (a : Nat) (i : Int) (b : Nat) (j : Int) : Ordering :=
  compare (a * Nat.pow 10 i.toNat * Nat.pow 2 (-j).toNat)
    (b * Nat.pow 2 j.toNat * Nat.pow 10 (-i).toNat)

/-- Whether a decimal lies among the reals that round to a number.  The ends of the interval
belong to it if the significand is even. -/
def Binary.readsBack (x : Binary) (d : Scaled) : Bool :=
  let low := if x.narrowBelow then 4 * x.significand - 1 else 4 * x.significand - 2
  let high := 4 * x.significand + 2
  let closed := x.significand % 2 = 0
  let belowOk :=
    match compareScaled d.digits d.exponent low (x.exponent - 2) with
    | .gt => true
    | .eq => closed
    | .lt => false
  let aboveOk :=
    match compareScaled d.digits d.exponent high (x.exponent - 2) with
    | .lt => true
    | .eq => closed
    | .gt => false
  belowOk && aboveOk

/-- The number of decimal digits of a natural. -/
def digitCount (n : Nat) : Nat := (Nat.toDigits 10 n).length

/-- The least exponent `k` with the number below `10 ^ k`. -/
def Binary.scale (x : Binary) : Int :=
  let whole := x.significand * Nat.pow 2 x.exponent.toNat
  let divisor := Nat.pow 2 (-x.exponent).toNat
  if divisor ≤ whole then digitCount (whole / divisor)
  else
    let guess := digitCount (divisor / whole) - 1
    let places := if divisor ≤ whole * Nat.pow 10 guess then guess else guess + 1
    1 - (places : Int)

/-- The nearer of two neighbouring decimals `low` and `low + 1` in units of `10 ^ exponent`. -/
def Binary.nearer (x : Binary) (tie : Tie) (low : Nat) (exponent : Int) : Nat :=
  match compareScaled (2 * low + 1) exponent (2 * x.significand) x.exponent with
  | .gt => low
  | .lt => low + 1
  | .eq =>
      match tie with
      | .even => if low % 2 = 0 then low else low + 1
      | .up => low + 1

/-- The decimal with the given number of digits that reads back to the number, if one does. -/
def Binary.withDigits? (x : Binary) (tie : Tie) (scale : Int) (count : Nat) : Option Scaled :=
  let exponent := scale - count
  let numerator := x.significand * Nat.pow 2 x.exponent.toNat * Nat.pow 10 (-exponent).toNat
  let denominator := Nat.pow 2 (-x.exponent).toNat * Nat.pow 10 exponent.toNat
  let low := numerator / denominator
  match x.readsBack ⟨low, exponent⟩, x.readsBack ⟨low + 1, exponent⟩ with
  | true, true => some ⟨x.nearer tie low exponent, exponent⟩
  | true, false => some ⟨low, exponent⟩
  | false, true => some ⟨low + 1, exponent⟩
  | false, false => none

/-- The exact decimal value of a number. -/
def Binary.exact (x : Binary) : Scaled :=
  ⟨x.significand * Nat.pow 2 x.exponent.toNat * Nat.pow 5 (-x.exponent).toNat, min x.exponent 0⟩

/-- A decimal without zeros at the end of its digits.  `fuel` bounds the number of zeros. -/
def Scaled.dropZeros : (fuel : Nat) → Scaled → Scaled
  | 0, d => d
  | fuel + 1, d =>
      if d.digits % 10 = 0 && d.digits ≠ 0 then
        dropZeros fuel ⟨d.digits / 10, d.exponent + 1⟩
      else d

/-- The shortest decimal that reads back to a number. -/
def Binary.shortest (x : Binary) (tie : Tie) : Scaled :=
  let scale := x.scale
  let found := (List.range 17).findSome? fun count => x.withDigits? tie scale (count + 1)
  let decimal := found.getD x.exact
  decimal.dropZeros (digitCount decimal.digits)

end LiteralAudit.Decimal
