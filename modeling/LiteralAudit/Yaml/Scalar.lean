import LiteralAudit.Decimal.Reading
import LiteralAudit.Text.Utf8
import LiteralAudit.Yaml.Event
import LiteralAudit.Yaml.Value

/-!
# What scalars stand for

A plain scalar without a tag stands for null, a truth value or a number if it is spelled like
one, by the rules of YAML 1.2: `yes` and `no` are texts, and so are digits behind a leading zero.
All other scalars are texts, unless a tag of YAML's own asks for something else.
-/

namespace LiteralAudit.Yaml.Scalar

/-- Why a scalar has no value. -/
inductive Problem where
  /-- A whole number needs more than 64 bits. -/
  | tooWide (value : Int)
  /-- The text is not what the tag asks for. -/
  | unexpected (text wanted : Text)
  deriving DecidableEq, Repr

/-- The words for a problem. -/
def Problem.message : Problem → Text
  | .tooWide value =>
      "invalid type: integer `" ++ Text.ofInt value ++
        (if value < 0 then "` as i128" else "` as u128") ++ ", expected any YAML value"
  | .unexpected text wanted =>
      "invalid value: string " ++ Text.quoted text ++ ", expected " ++ wanted

/-! ## Words -/

/-- The spellings of null, apart from the empty text. -/
def isNull (text : Text) : Bool :=
  ["null".toList, "Null".toList, "NULL".toList, "~".toList].contains text

/-- The spellings of the truth values. -/
def truth? (text : Text) : Option Bool :=
  if ["true".toList, "True".toList, "TRUE".toList].contains text then some true
  else if ["false".toList, "False".toList, "FALSE".toList].contains text then some false
  else none

/-! ## Whole numbers -/

/-- Whether the text is a sign at most and digits behind a leading zero. -/
def isZeroPadded (text : Text) : Bool :=
  match (Decimal.dropSign text).2 with
  | '0' :: rest => !rest.isEmpty && rest.all Text.isDigit
  | _ => false

/-- The number that digits of a base denote. -/
def digits? (base : Nat) (isDigit : Char → Bool) (text : Text) : Option Nat :=
  if !text.isEmpty && text.all isDigit then some (Text.valueIn base text) else none

/-- The number that a text without a sign denotes: decimal, or with `0x`, `0o` or `0b` in
another base. -/
def unsigned? : Text → Option Nat
  | '0' :: 'x' :: rest => digits? 16 Text.isHexDigit rest
  | '0' :: 'o' :: rest => digits? 8 Text.isOctalDigit rest
  | '0' :: 'b' :: rest => digits? 2 (fun c => c = '0' || c = '1') rest
  | text => digits? 10 Text.isDigit text

/-- The whole number that a text denotes. -/
def whole? (text : Text) : Option Int :=
  if isZeroPadded text then none
  else
    match text with
    | '-' :: rest => (unsigned? rest).map fun n => -(n : Int)
    | '+' :: rest => (unsigned? rest).map fun n => (n : Int)
    | _ => (unsigned? text).map fun n => (n : Int)

/-- Whether a whole number fits 64 bits. -/
def fits (n : Int) : Bool := -Int.pow 2 63 ≤ n && n < Int.pow 2 64

/-- Whether a whole number fits 128 bits. -/
def fitsTwice (n : Int) : Bool := -Int.pow 2 127 ≤ n && n < Int.pow 2 128

/-- The whole number that a text denotes.  One that fits twice the width is refused, and one that
does not even do so is not taken for a whole number. -/
def wholeValue? (text : Text) : Option (Except Problem Value) :=
  match whole? text with
  | none => none
  | some n =>
      if fits n then some (.ok (.whole n))
      else if fitsTwice n then some (.error (.tooWide n))
      else none

/-! ## Binary numbers -/

/-- The binary number that a text denotes. -/
def binary? (text : Text) : Option UInt64 :=
  let unsigned := (Text.dropStart? "+" text).getD text
  if [".inf".toList, ".Inf".toList, ".INF".toList].contains unsigned then
    some Decimal.infinityBits
  else if ["-.inf".toList, "-.Inf".toList, "-.INF".toList].contains text then
    some (Decimal.infinityBits ||| Decimal.signBit)
  else if [".nan".toList, ".NaN".toList, ".NAN".toList].contains text then
    some 0x7ff8000000000000
  else if text.length ≠ unsigned.length && unsigned.head? = some '-' then none
  else if text.length ≠ unsigned.length && unsigned.head? = some '+' then none
  else Decimal.readFinite? unsigned

/-! ## Scalars -/

/-- The value of a plain scalar without a tag. -/
def plainValue (text : Text) : Except Problem Value :=
  if text.isEmpty || isNull text then .ok .null
  else
    match truth? text with
    | some value => .ok (.bool value)
    | none =>
        match wholeValue? text with
        | some value => value
        | none =>
            if isZeroPadded text then .ok (.text text)
            else
              match binary? text with
              | some bits => .ok (.binary bits)
              | none => .ok (.text text)

/-- The tags of YAML's own that ask for a kind of scalar. -/
inductive Wanted where
  /-- A truth value. -/
  | bool
  /-- A whole number. -/
  | whole
  /-- A binary number. -/
  | binary
  /-- The null value. -/
  | null
  deriving DecidableEq, Repr

/-- What a tag asks for. -/
def Wanted.ofTag? (tag : TagBytes) : Option Wanted :=
  if tag = Text.Utf8.encode "tag:yaml.org,2002:bool" then some .bool
  else if tag = Text.Utf8.encode "tag:yaml.org,2002:int" then some .whole
  else if tag = Text.Utf8.encode "tag:yaml.org,2002:float" then some .binary
  else if tag = Text.Utf8.encode "tag:yaml.org,2002:null" then some .null
  else none

/-- The value of a scalar of which a tag asks something. -/
def wantedValue (wanted : Wanted) (text : Text) : Except Problem Value :=
  match wanted with
  | .bool =>
      match truth? text with
      | some value => .ok (.bool value)
      | none => .error (.unexpected text "a boolean")
  | .whole => (wholeValue? text).getD (.error (.unexpected text "an integer"))
  | .binary =>
      match binary? text with
      | some bits => .ok (.binary bits)
      | none => .error (.unexpected text "a float")
  | .null => if isNull text then .ok .null else .error (.unexpected text "null")

/-- The value of a scalar.  A tag of the document's own, which begins with an exclamation mark,
asks for nothing. -/
def value (tag : Option TagBytes) (text : Text) (isPlain : Bool) : Except Problem Value :=
  match tag with
  | none => if isPlain then plainValue text else .ok (.text text)
  | some tag =>
      match Wanted.ofTag? tag with
      | some wanted => wantedValue wanted text
      | none => if isPlain && tag.head? = some 0x21 then plainValue text else .ok (.text text)

end LiteralAudit.Yaml.Scalar
