import LiteralAudit.Text.Basic

/-!
# Faults in TOML text

Why a text is no TOML document, or not the one that was wanted, and where.  The message shows the
line of the fault and marks the place below it.
-/

namespace LiteralAudit.Toml

/-- What is expected next between braces. -/
inductive Wanted where
  /-- A key. -/
  | key
  /-- The equals sign behind a key. -/
  | equals
  /-- The value behind an equals sign. -/
  | value
  /-- A comma. -/
  | comma
  deriving DecidableEq, Repr

/-- The words for what is expected. -/
def Wanted.message : Wanted → Text
  | .key => "key"
  | .equals => "`=`"
  | .value => "value"
  | .comma => "`,`"

/-- Why a text is no TOML document. -/
inductive Cause where
  /-- A key has no equals sign. -/
  | keyWithoutValue
  /-- A table header is not closed. -/
  | unclosedTable
  /-- The header of a table array is not closed at all. -/
  | unclosedTableArray
  /-- The second closing bracket of the header of a table array is missing. -/
  | halfClosedTableArray
  /-- A bracket closes a header that was not opened. -/
  | unopenedTable
  /-- Something else than a key begins a line. -/
  | invalidKey
  /-- Something stands behind the value or the header of a line. -/
  | lineNotEnded
  /-- A carriage return stands alone. -/
  | loneReturn
  /-- A control character stands in a comment. -/
  | controlInComment
  /-- An equals sign stands where a value belongs. -/
  | extraEquals
  /-- A bracket closes an array that was not opened. -/
  | unopenedArray
  /-- A brace closes a table that was not opened. -/
  | unopenedInlineTable
  /-- An array is not closed. -/
  | unclosedArray
  /-- There is a comma too many in an array. -/
  | extraCommaInArray
  /-- An equals sign stands in an array. -/
  | equalsInArray
  /-- A comma is missing in an array. -/
  | missingCommaInArray
  /-- A brace is not closed. -/
  | unclosedInlineTable
  /-- There is a comma too many between braces. -/
  | extraCommaInTable (wanted : Wanted)
  /-- There is an equals sign too many between braces. -/
  | extraAssignment (wanted : Wanted)
  /-- A key is missing between braces. -/
  | missingKeyInTable (wanted : Wanted)
  /-- An equals sign is missing between braces. -/
  | missingAssignment
  /-- A comma is missing between braces. -/
  | missingCommaInTable
  /-- A bracket closes nothing between braces. -/
  | strayBracketInTable (wanted : Wanted)
  /-- A brace is closed too early. -/
  | earlyTableEnd (wanted : Wanted)
  /-- A bare key is empty. -/
  | emptyKey
  /-- A bare key holds another character than letters, digits, dashes and underscores. -/
  | badBareKey
  /-- A key is quoted over several lines. -/
  | longKey (isLiteral : Bool)
  /-- A key or a table is given twice. -/
  | duplicateKey
  /-- A dotted key or a header goes through a value of a kind that holds no keys. -/
  | notExtensible (kind : Text)
  /-- A text has no quotes. -/
  | unquotedText
  /-- A text has no opening quote. -/
  | unopenedText (quote : Text)
  /-- A word that is almost a truth value or a number. -/
  | misspelled (kind word : Text)
  /-- A text is not closed, or not well formed. -/
  | badText (kind expected : Text)
  /-- A backslash stands before a character that it cannot escape. -/
  | badEscape
  /-- An escape has too few hexadecimal digits. -/
  | shortCode
  /-- The number of an escape is no character. -/
  | badCode
  /-- There is a sign too many. -/
  | extraSign
  /-- A number in another base has a sign. -/
  | signedBase
  /-- The mark of a base is a capital letter. -/
  | capitalBase (mark : Text)
  /-- Decimal numbers have no mark. -/
  | extraDecimalMark
  /-- A sign stands behind the mark of a base. -/
  | signInBase
  /-- A number holds something else than digits of its base. -/
  | badDigit (kind : Text)
  /-- A number begins with a zero. -/
  | leadingZero
  /-- A part of a number has no digits. -/
  | noDigits (part : Text)
  /-- Something stands behind a number. -/
  | badFloat
  /-- An underscore is not between digits. -/
  | strayUnderscore
  /-- A date or time is wrong. -/
  | badDateTime (message : Text)
  /-- The document is not the one that was wanted. -/
  | unwanted (message : Text)
  deriving DecidableEq, Repr

/-- The words for a cause. -/
def Cause.message : Cause → Text
  | .keyWithoutValue => "key with no value, expected `=`"
  | .unclosedTable => "unclosed table, expected `]`"
  | .unclosedTableArray => "unclosed array table, expected `]]`"
  | .halfClosedTableArray => "unclosed array table, expected `]`"
  | .unopenedTable => "missing table open, expected `[`"
  | .invalidKey => "invalid key, expected key"
  | .lineNotEnded => "unexpected key or value, expected newline, `#`"
  | .loneReturn => "carriage return must be followed by newline, expected newline"
  | .controlInComment => "invalid comment character, expected printable characters"
  | .extraEquals => "extra `=`, expected nothing"
  | .unopenedArray => "missing array opening, expected `[`"
  | .unopenedInlineTable => "missing inline table opening, expected `\x7b`"
  | .unclosedArray => "unclosed array, expected `]`"
  | .extraCommaInArray => "extra comma in array, expected value"
  | .equalsInArray => "unexpected `=` in array, expected value, `]`"
  | .missingCommaInArray => "missing comma between array elements, expected `,`"
  | .unclosedInlineTable => "unclosed inline table, expected `\x7d`"
  | .extraCommaInTable wanted => "extra comma in inline table, expected " ++ wanted.message
  | .extraAssignment wanted =>
      "extra assignment between key-value pairs, expected " ++ wanted.message
  | .missingKeyInTable wanted =>
      "missing key for inline table element, expected " ++ wanted.message
  | .missingAssignment => "missing assignment between key-value pairs, expected `=`"
  | .missingCommaInTable => "missing comma between key-value pairs, expected `,`"
  | .strayBracketInTable wanted => "invalid inline table element, expected " ++ wanted.message
  | .earlyTableEnd wanted => "unexpected end of inline table, expected " ++ wanted.message
  | .emptyKey => "unquoted keys cannot be empty, expected letters, numbers, `-`, `_`"
  | .badBareKey => "invalid unquoted key, expected letters, numbers, `-`, `_`"
  | .longKey true =>
      "keys cannot be multi-line literal strings, expected basic string, literal string"
  | .longKey false =>
      "keys cannot be multi-line basic strings, expected basic string, literal string"
  | .duplicateKey => "duplicate key"
  | .notExtensible kind => "cannot extend value of type " ++ kind ++ " with a dotted key"
  | .unquotedText => "string values must be quoted, expected literal string"
  | .unopenedText quote => "missing opening quote, expected `" ++ quote ++ "`"
  | .misspelled kind word => "invalid " ++ kind ++ ", expected `" ++ word ++ "`"
  | .badText kind expected => "invalid " ++ kind ++ " string, expected " ++ expected
  | .badEscape =>
      "missing escaped value, expected `b`, `e`, `f`, `n`, `r`, `\\`, `\"`, `x`, `u`, `U`"
  | .shortCode => "too few unicode value digits, expected unicode hexadecimal value"
  | .badCode => "invalid value, expected unicode hexadecimal value"
  | .extraSign => "redundant numeric sign, expected nothing"
  | .signedBase => "integers with a radix cannot be signed, expected nothing"
  | .capitalBase mark => "radix must be lowercase, expected `" ++ mark ++ "`"
  | .extraDecimalMark => "redundant integer number prefix, expected nothing"
  | .signInBase => "unexpected sign, expected nothing"
  | .badDigit kind => "invalid " ++ kind ++ " number"
  | .leadingZero => "unexpected leading zero, expected nothing"
  | .noDigits part => "invalid " ++ part ++ ", expected digits"
  | .badFloat => "invalid float, expected nothing"
  | .strayUnderscore => "`_` may only go between digits, expected nothing"
  | .badDateTime message => message
  | .unwanted message => message

/-- Why and where a text is no TOML document. -/
structure Fault where
  /-- The cause. -/
  cause : Cause
  /-- The place. -/
  span : Span
  deriving DecidableEq, Repr

namespace Fault

/-- A fault at an offset. -/
def atOffset (cause : Cause) (offset : Nat) : Fault := ⟨cause, ⟨offset, offset⟩⟩

/-- The line of an offset, and the bytes and the characters before the offset on its line.  The
break at the end of a line belongs to it. -/
structure LinePosition where
  /-- The line, counted from zero. -/
  line : Nat
  /-- The number of bytes before the offset on its line. -/
  bytes : Nat
  /-- The number of characters before the offset on its line. -/
  chars : Nat
  deriving DecidableEq, Repr

/-- Reads on to an offset that is `left` bytes away, and gives the text behind it. -/
def positionFrom (position : LinePosition) : (left : Nat) → Text → LinePosition × Text
  | _, [] => (position, [])
  | left, c :: text =>
      if left < c.utf8Size then (position, c :: text)
      else if c = '\n' && !(left = 1 && text.isEmpty) then
        positionFrom ⟨position.line + 1, 0, 0⟩ (left - 1) text
      else
        positionFrom ⟨position.line, position.bytes + c.utf8Size, position.chars + 1⟩
          (left - c.utf8Size) text

/-- The line and the column of an offset.  Columns count characters, except that a character of
several bytes behind the offset makes them count bytes.  The end of the text belongs to the line
of the last character, even if that is a line break. -/
def lineAndColumn (text : Text) (offset : Nat) : Nat × Nat :=
  let (position, behind) := positionFrom ⟨0, 0, 0⟩ offset text
  (position.line, if behind.head?.any fun c => 1 < c.utf8Size then position.bytes
    else position.chars)

/-- The message for a fault in a text. -/
def message (text : Text) (fault : Fault) : Text :=
  let (line, column) := lineAndColumn text fault.span.start
  let number := Text.ofNat (line + 1)
  let content := ((Text.splitOn '\n' text)[line]?).getD []
  let marks := min (fault.span.stop - fault.span.start) (Text.byteSize content - column)
  let margin : Text := List.replicate (number.length + 1) ' ' ++ ['|']
  "TOML parse error at line " ++ number ++ ", column " ++ Text.ofNat (column + 1) ++ "\n" ++
    margin ++ "\n" ++
    number ++ " | " ++ content ++ "\n" ++
    margin ++ List.replicate (column + 1) ' ' ++ List.replicate (max marks 1) '^' ++ "\n" ++
    fault.cause.message ++ "\n"

end Fault

end LiteralAudit.Toml
