/-!
# Texts

A text is a list of characters.  Everything the library reads, compares and writes is a text,
so every definition on texts is by recursion on a list.  This module holds the few operations
that the rest of the library shares: looking at the beginning and the end, cutting at byte
offsets, and writing numbers.

Offsets into a text count the bytes of its UTF-8 form.  An offset that falls inside a character
or past the end cuts nothing: `splitAt?` is then `none`.
-/

namespace LiteralAudit

/-- A text is the list of its characters. -/
abbrev Text := List Char

instance : Coe String Text := ⟨String.toList⟩

/-- A stretch of a text, from the byte offset `start` up to the byte offset `stop`. -/
structure Span where
  /-- The offset of the first byte. -/
  start : Nat
  /-- The offset behind the last byte. -/
  stop : Nat
  deriving DecidableEq, Repr

namespace Text

/-! ## Beginnings and ends -/

/-- What follows the given beginning, if the text begins with it. -/
def dropStart? : (start text : Text) → Option Text
  | [], text => some text
  | _ :: _, [] => none
  | a :: start, c :: text => if a = c then dropStart? start text else none

/-- Whether the text begins with `start`. -/
def startsWith (start text : Text) : Bool := (dropStart? start text).isSome

/-- What precedes the given ending, if the text ends with it. -/
def dropEnd? (ending text : Text) : Option Text :=
  (dropStart? ending.reverse text.reverse).map List.reverse

/-- Whether the text ends with `ending`. -/
def endsWith (ending text : Text) : Bool := (dropEnd? ending text).isSome

/-- Whether `part` occurs somewhere in the text. -/
def occursIn (part : Text) : Text → Bool
  | [] => part.isEmpty
  | c :: text => startsWith part (c :: text) || occursIn part text

/-- The text without the characters at its end that satisfy `p`. -/
def dropEndWhile (p : Char → Bool) (text : Text) : Text :=
  (text.reverse.dropWhile p).reverse

/-- The text with the first occurrence of `part` replaced.  `part` is not empty. -/
def replaceFirst (part replacement : Text) : Text → Text
  | [] => []
  | c :: text =>
      match dropStart? part (c :: text) with
      | some rest => replacement ++ rest
      | none => c :: replaceFirst part replacement text

/-- The pieces between the occurrences of a character.  There is one more piece than there are
occurrences. -/
def splitOn (separator : Char) : Text → List Text
  | [] => [[]]
  | c :: text =>
      if c = separator then [] :: splitOn separator text
      else
        match splitOn separator text with
        | [] => [[c]]
        | piece :: pieces => (c :: piece) :: pieces

/-- The pieces joined with a separator between them. -/
def join (separator : Text) : List Text → Text
  | [] => []
  | [piece] => piece
  | piece :: pieces => piece ++ separator ++ join separator pieces

/-! ## Byte offsets -/

/-- The number of bytes of the UTF-8 form. -/
def byteSize : Text → Nat
  | [] => 0
  | c :: text => c.utf8Size + byteSize text

/-- The two parts of a text before and after a byte offset. -/
def splitAt? : Text → Nat → Option (Text × Text)
  | text, 0 => some ([], text)
  | [], _ + 1 => none
  | c :: text, offset + 1 =>
      if c.utf8Size ≤ offset + 1 then
        (splitAt? text (offset + 1 - c.utf8Size)).map fun parts => (c :: parts.1, parts.2)
      else none

/-- The characters of a stretch. -/
def slice? (text : Text) (span : Span) : Option Text :=
  match splitAt? text span.stop with
  | none => none
  | some (upTo, _) => (splitAt? upTo span.start).map Prod.snd

/-! ## Digits and numbers -/

/-- The digits `0` to `9`. -/
def isDigit (c : Char) : Bool := '0' ≤ c && c ≤ '9'

/-- The digits `0` to `7`. -/
def isOctalDigit (c : Char) : Bool := '0' ≤ c && c ≤ '7'

/-- The digits and the letters `a` to `f` in either case. -/
def isHexDigit (c : Char) : Bool :=
  isDigit c || ('a' ≤ c && c ≤ 'f') || ('A' ≤ c && c ≤ 'F')

/-- The ASCII letters. -/
def isLetter (c : Char) : Bool := ('a' ≤ c && c ≤ 'z') || ('A' ≤ c && c ≤ 'Z')

/-- What a digit of base sixteen or less stands for.  Other characters stand for zero. -/
def digitValue (c : Char) : Nat :=
  if isDigit c then c.toNat - '0'.toNat
  else if 'a' ≤ c && c ≤ 'f' then c.toNat - 'a'.toNat + 10
  else if 'A' ≤ c && c ≤ 'F' then c.toNat - 'A'.toNat + 10
  else 0

/-- The number that a run of digits denotes in a base. -/
def valueIn (base : Nat) (digits : Text) : Nat :=
  digits.foldl (fun value digit => value * base + digitValue digit) 0

/-- The number that a run of decimal digits denotes. -/
def value (digits : Text) : Nat := valueIn 10 digits

/-- A number in decimal, without leading zeros. -/
def ofNat (n : Nat) : Text := Nat.toDigits 10 n

/-- An integer in decimal, with a minus sign if it is negative. -/
def ofInt : Int → Text
  | .ofNat n => ofNat n
  | .negSucc n => '-' :: ofNat (n + 1)

/-- A number in hexadecimal with small letters, without leading zeros. -/
def ofNatHex (n : Nat) : Text := Nat.toDigits 16 n

/-- The ASCII letters made small; every other character stays. -/
def asciiLower (text : Text) : Text := text.map Char.toLower

end Text

/-- Whether a code point lies in one of the closed ranges. -/
def inRanges (ranges : List (Nat × Nat)) (point : Nat) : Bool :=
  ranges.any fun range => range.1 ≤ point && point ≤ range.2

end LiteralAudit
