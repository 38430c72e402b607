import LiteralAudit.Decimal.Notation

/-!
# JSON values

The values of JSON documents.  The members of an object are kept in the order of their names,
and of several members with one name the last is kept.
-/

namespace LiteralAudit

namespace Json

/-- A number.  Whole numbers that fit 64 bits stay exact; all others are binary floating-point
numbers, kept as their bits. -/
inductive Number where
  /-- A whole number that is not negative. -/
  | natural (n : Nat)
  /-- The negative number `-(n + 1)`. -/
  | negative (n : Nat)
  /-- A finite binary number with these bits. -/
  | binary (bits : UInt64)
  deriving DecidableEq, Repr

/-- The text of a number.  Exponents have a sign. -/
def Number.text : Number → Text
  | .natural n => Text.ofNat n
  | .negative n => '-' :: Text.ofNat (n + 1)
  | .binary bits => Decimal.asData true bits

end Json

/-- A JSON value. -/
inductive Json where
  /-- The null value. -/
  | null
  /-- A truth value. -/
  | bool (value : Bool)
  /-- A number. -/
  | num (value : Json.Number)
  /-- A text. -/
  | str (value : Text)
  /-- A list of values. -/
  | array (items : List Json)
  /-- Named values. -/
  | object (members : List (Text × Json))
  deriving Repr

namespace Json

/-- The order of names: by code points. -/
def nameBefore : Text → Text → Bool
  | [], [] => false
  | [], _ :: _ => true
  | _ :: _, [] => false
  | a :: as, b :: bs => if a < b then true else if b < a then false else nameBefore as bs

/-- The members with one more.  It takes the place of a member of the same name. -/
def insertMember {α : Type} (name : Text) (value : α) : List (Text × α) → List (Text × α)
  | [] => [(name, value)]
  | (other, old) :: members =>
      if other = name then (name, value) :: members
      else if nameBefore name other then (name, value) :: (other, old) :: members
      else (other, old) :: insertMember name value members

/-- The member of an object with the given name. -/
def member? (name : Text) : Json → Option Json
  | .object members => (members.find? fun entry => entry.1 = name).map Prod.snd
  | _ => none

end Json

end LiteralAudit
