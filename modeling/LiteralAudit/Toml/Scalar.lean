import LiteralAudit.Toml.DateTime
import LiteralAudit.Toml.Quoted

/-!
# TOML scalars

What keys and scalars stand for.  The first character of an unquoted scalar decides what it is
taken for, and a scalar that does not turn out to be that is refused.
-/

namespace LiteralAudit.Toml

/-- A scalar. -/
inductive Scalar where
  /-- A text. -/
  | text (value : Text)
  /-- A whole number. -/
  | whole (value : Int)
  /-- A binary number, as it is written but without underscores. -/
  | binary (written : Text)
  /-- A truth value. -/
  | bool (value : Bool)
  /-- A date, a time, or both. -/
  | dateTime
  deriving DecidableEq, Repr

namespace Scalar

/-- A fault in a part of a scalar.  `part` is what follows its beginning, and the fault takes up
`size` bytes from there. -/
def failAt {α : Type} (raw : Raw) (part : Text) (cause : Cause) (size : Nat) : Except Fault α :=
  let offset := raw.stop - Text.byteSize part
  .error ⟨cause, ⟨offset, offset + size⟩⟩

/-- The scalar is no known word, number or date. -/
def unknown {α : Type} (raw : Raw) : Except Fault α :=
  let unopened (quote : Text) : Except Fault α :=
    .error (.atOffset (.unopenedText quote) raw.start)
  if Text.endsWith "'''" raw.text then unopened "'''"
  else if Text.endsWith "\"\"\"" raw.text then unopened "\"\"\""
  else if Text.endsWith "'" raw.text then unopened "'"
  else if Text.endsWith "\"" raw.text then unopened "\""
  else .error ⟨.unquotedText, raw.span⟩

/-- The scalar is a word. -/
def word (raw : Raw) (kind name : Text) (scalar : Scalar) : Except Fault Scalar :=
  if raw.text = name then .ok scalar
  else if raw.text.contains ' ' then unknown raw
  else .error ⟨.misspelled kind name, raw.span⟩

/-! ## Numbers -/

/-- The bases of whole numbers. -/
inductive Base where
  /-- Base ten. -/
  | decimal
  /-- Base sixteen. -/
  | hexadecimal
  /-- Base eight. -/
  | octal
  /-- Base two. -/
  | binary
  deriving DecidableEq, Repr

/-- The number of digits of a base. -/
def Base.size : Base → Nat
  | .decimal => 10
  | .hexadecimal => 16
  | .octal => 8
  | .binary => 2

/-- The digits of a base. -/
def Base.isDigit (base : Base) (c : Char) : Bool :=
  Text.isHexDigit c && Text.digitValue c < base.size

/-- The word for numbers of a base. -/
def Base.kind : Base → Text
  | .decimal => "integer"
  | .hexadecimal => "hexadecimal"
  | .octal => "octal"
  | .binary => "binary"

/-- Each underscore of the digits stands between two digits. -/
def checkUnderscores (raw : Raw) (isDigit : Char → Bool) (before : Option Char) :
    Text → Except Fault Unit
  | [] => .ok ()
  | c :: rest =>
      if c = '_' && !(before.any isDigit && rest.head?.any isDigit) then
        failAt raw (c :: rest) .strayUnderscore 1
      else checkUnderscores raw isDigit (some c) rest

/-- The digits without underscores. -/
def dropUnderscores (text : Text) : Text := text.filter (· ≠ '_')

/-- A whole number of a base, written as `digits` at the end of the scalar. -/
def wholeIn (raw : Raw) (base : Base) (isNegative : Bool) (digits : Text) :
    Except Fault Scalar := do
  checkUnderscores raw base.isDigit none digits
  let n := Text.valueIn base.size (dropUnderscores digits)
  .ok (.whole (if isNegative then -(n : Int) else n))

/-- The digits behind the mark of a base. -/
def marked (raw : Raw) (base : Base) (digits : Text) : Except Fault Scalar := do
  match digits with
  | c :: _ => if c = '+' || c = '-' then failAt raw digits .signInBase 1
  | [] => .ok ()
  let bad := digits.dropWhile fun c => base.isDigit c || c = '_'
  if bad.isEmpty && !digits.isEmpty then wholeIn raw base false digits
  else failAt raw bad (.badDigit base.kind) 0

/-- The digits of a part of a binary number are there, and only a fraction or an exponent begins
with a superfluous zero.  Gives what follows them. -/
def checkDigits (raw : Raw) (part : Text) (zeroAllowed : Bool) (text : Text) :
    Except Fault Text := do
  let (taken, rest) := text.span fun c => Text.isDigit c || c = '_'
  let digits := taken.filter Text.isDigit
  if digits.isEmpty then failAt raw text (.noDigits part) 0
  if 1 < digits.length && text.head? = some '0' && !zeroAllowed then
    failAt raw text .leadingZero 1
  .ok rest

/-- A fraction follows, or nothing. -/
def checkFraction (raw : Raw) (text : Text) : Except Fault Text :=
  match text with
  | '.' :: rest => checkDigits raw "fraction" true rest
  | _ => .ok text

/-- An exponent follows, or nothing. -/
def checkExponent (raw : Raw) (text : Text) : Except Fault Text :=
  match text with
  | c :: rest =>
      if c = 'e' || c = 'E' then
        match rest with
        | '+' :: rest | '-' :: rest => checkDigits raw "exponent" true rest
        | _ => checkDigits raw "exponent" true rest
      else .ok text
  | [] => .ok []

/-- A binary number, written as `text` at the end of the scalar. -/
def binaryNumber (raw : Raw) (text : Text) : Except Fault Scalar := do
  let rest ← checkDigits raw "mantissa" false text
  let rest ← checkFraction raw rest
  let rest ← checkExponent raw rest
  if !rest.isEmpty then failAt raw rest .badFloat (Text.byteSize rest)
  checkUnderscores raw Text.isDigit none text
  .ok (.binary (dropUnderscores raw.text))

/-- A whole decimal number, written as `digits` at the end of the scalar. -/
def decimal (raw : Raw) (isNegative : Bool) (digits : Text) : Except Fault Scalar :=
  if digits.head? = some '0' then failAt raw digits .leadingZero 1
  else wholeIn raw .decimal isNegative digits

/-- A scalar that begins like a number. -/
def numberOrDate (raw : Raw) (isNegative : Bool) (text : Text) : Except Fault Scalar :=
  match text.dropWhile Text.isDigit with
  | [] => decimal raw isNegative text
  | c :: rest =>
      if c = '-' || c = ':' then
        match DateTime.check raw.text with
        | .ok () => .ok .dateTime
        | .error message => .error ⟨.badDateTime message, raw.span⟩
      else if (c :: rest).contains ' ' then unknown raw
      else if (c :: rest).any fun d => d = '.' || d = 'e' || d = 'E' then binaryNumber raw text
      else if c = '_' then
        if rest.all fun d => Text.isDigit d || d = '_' then decimal raw isNegative text
        else unknown raw
      else unknown raw

/-- A scalar that begins with a zero. -/
def zeroNumber (raw : Raw) (signed isNegative : Bool) (text : Text) : Except Fault Scalar :=
  let withMark (mark : Char) (base : Base) (rest : Text) : Except Fault Scalar :=
    if signed then .error ⟨.signedBase, ⟨raw.start, raw.start + 1⟩⟩
    else if mark.isUpper then failAt raw text (.capitalBase ['0', mark.toLower]) 2
    else marked raw base rest
  match text.drop 1 with
  | [] => .ok (.whole 0)
  | mark :: rest =>
      if mark = 'x' || mark = 'X' then withMark mark .hexadecimal rest
      else if mark = 'o' || mark = 'O' then withMark mark .octal rest
      else if mark = 'b' || mark = 'B' then withMark mark .binary rest
      else if mark = 'd' || mark = 'D' then
        if signed then .error ⟨.signedBase, ⟨raw.start, raw.start + 1⟩⟩
        else .error ⟨.extraDecimalMark, ⟨raw.start, raw.start + 2⟩⟩
      else numberOrDate raw isNegative text

/-- A scalar behind a sign. -/
def signedNumber (raw : Raw) (isNegative : Bool) (text : Text) : Except Fault Scalar :=
  match text with
  | [] => unknown raw
  | c :: _ =>
      let special (name : Text) : Except Fault Scalar :=
        if text = name then .ok (.binary raw.text)
        else failAt raw text (.misspelled "float" name) (Text.byteSize text)
      if c = '+' || c = '-' then failAt raw text .extraSign 1
      else if c = '0' then zeroNumber raw true isNegative text
      else if c = '_' || Text.isDigit c then numberOrDate raw isNegative text
      else if c = '.' then binaryNumber raw raw.text
      else if c = 'i' || c = 'I' then special "inf"
      else if c = 'n' || c = 'N' then special "nan"
      else unknown raw

/-- What an unquoted scalar stands for. -/
def bare (raw : Raw) : Except Fault Scalar :=
  match raw.text with
  | [] => unknown raw
  | c :: rest =>
      if c = '+' || c = '-' then signedNumber raw (c = '-') rest
      else if c = '0' then zeroNumber raw false false raw.text
      else if c = '_' || Text.isDigit c then numberOrDate raw false raw.text
      else if c = '.' then binaryNumber raw raw.text
      else if c = 't' || c = 'T' then word raw "boolean" "true" (.bool true)
      else if c = 'f' || c = 'F' then word raw "boolean" "false" (.bool false)
      else if c = 'i' || c = 'I' then word raw "float" "inf" (.binary "inf")
      else if c = 'n' || c = 'N' then word raw "float" "nan" (.binary "nan")
      else unknown raw

/-- What a scalar stands for. -/
def ofRaw (raw : Raw) : Except Fault Scalar :=
  match raw.quoting with
  | .bare => bare raw
  | .literal => (Quoted.literal raw).map .text
  | .basic => (Quoted.basic raw).map .text
  | .longLiteral => (Quoted.longLiteral raw).map .text
  | .longBasic => (Quoted.longBasic raw).map .text

end Scalar

/-! ## Keys -/

/-- A key and the bytes it is written with. -/
structure Key where
  /-- The key. -/
  name : Text
  /-- The bytes. -/
  span : Span
  deriving DecidableEq, Repr

namespace Key

/-- The characters of bare keys. -/
def isBareChar (c : Char) : Bool := Text.isLetter c || Text.isDigit c || c = '-' || c = '_'

/-- The name that a bare key gives. -/
def bareName (raw : Raw) : Except Fault Text :=
  let good := raw.text.takeWhile isBareChar
  if raw.text.isEmpty then .error (.atOffset .emptyKey raw.start)
  else if good.length = raw.text.length then .ok raw.text
  else .error (.atOffset .badBareKey (raw.start + good.length))

/-- The name that a key gives. -/
def nameOf (raw : Raw) : Except Fault Text :=
  match raw.quoting with
  | .bare => bareName raw
  | .literal => Quoted.literal raw
  | .basic => Quoted.basic raw
  | .longLiteral => .error ⟨.longKey true, raw.span⟩
  | .longBasic => .error ⟨.longKey false, raw.span⟩

/-- The key that is written. -/
def ofRaw (raw : Raw) : Except Fault Key := (nameOf raw).map fun name => ⟨name, raw.span⟩

end Key

end LiteralAudit.Toml
