import LiteralAudit.Decimal.Shortest
import LiteralAudit.Text.Basic

/-!
# Decimal notation

How a shortest decimal is laid out.  Numbers in data are written positionally as long as the
point stays near the digits and with an exponent otherwise.  Numbers in messages are always
written positionally.  Both keep a point and at least one digit behind it.
-/

namespace LiteralAudit.Decimal

/-- A run of zeros. -/
def zeros (count : Nat) : Text := List.replicate count '0'

/-- Digits and exponent without an exponent mark. -/
def positional (digits : Text) (exponent : Int) : Text :=
  let point := (digits.length : Int) + exponent
  if 0 ≤ exponent then digits ++ zeros exponent.toNat ++ ".0"
  else if 0 < point then digits.take point.toNat ++ "." ++ digits.drop point.toNat
  else "0." ++ zeros (-point).toNat ++ digits

/-- An exponent, with a plus sign if that is wanted and it is not negative. -/
def exponentText (withPlus : Bool) (exponent : Int) : Text :=
  (if withPlus && 0 ≤ exponent then ['+'] else []) ++ Text.ofInt exponent

/-- Digits and exponent with an exponent mark. -/
def scientific (withPlus : Bool) (digits : Text) (exponent : Int) : Text :=
  let leading := exponentText withPlus ((digits.length : Int) + exponent - 1)
  match digits with
  | [digit] => digit :: 'e' :: leading
  | digit :: rest => digit :: '.' :: rest ++ 'e' :: leading
  | [] => []

/-- The sign of the number with the given bits. -/
def signText (bits : UInt64) : Text := if bits >>> 63 = 1 then ['-'] else []

/-- A finite number as data: positional if the point is at most sixteen places behind the first
digit or at most five places before it, otherwise with an exponent. -/
def asData (withPlus : Bool) (bits : UInt64) : Text :=
  let number := Binary.ofBits bits
  if number.significand = 0 then signText bits ++ "0.0"
  else
    let decimal := number.shortest .even
    let digits := Text.ofNat decimal.digits
    let point := (digits.length : Int) + decimal.exponent
    let layout := if -5 < point && point ≤ 16 then positional else scientific withPlus
    signText bits ++ layout digits decimal.exponent

/-- A finite number in a message. -/
def inMessage (bits : UInt64) : Text :=
  let number := Binary.ofBits bits
  if number.significand = 0 then signText bits ++ "0.0"
  else
    let decimal := number.shortest .up
    signText bits ++ positional (Text.ofNat decimal.digits) decimal.exponent

end LiteralAudit.Decimal
