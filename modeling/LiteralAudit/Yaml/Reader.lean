import LiteralAudit.Text.Blank
import LiteralAudit.Text.Line
import LiteralAudit.Yaml.Document.Value

/-!
# Reading YAML

A text is read document by document up to the first fault.  Before that, all of its characters
are checked.  What is answered is the number of documents; a text of blank lines and comments has
none.
-/

namespace LiteralAudit

/-- Where and why reading failed.  Lines and columns are counted from one. -/
structure ParseFailure where
  /-- The line, if known. -/
  line : Option Nat
  /-- The column, if known. -/
  column : Option Nat
  /-- The reason. -/
  message : Text
  deriving DecidableEq, Repr

namespace Yaml

/-- The ranges of code points that a text may hold. -/
def allowedRanges : List (Nat × Nat) :=
  [(0x20, 0x7e), (0xa, 0xa), (0xd, 0xd), (0x9, 0x9), (0x85, 0x85), (0xa0, 0xd7ff),
    (0xe000, 0xfffd), (0x10000, 0x10ffff)]

/-- The offset of the first character that is not allowed. -/
def forbidden? (text : Text) : Option Nat :=
  let allowed := text.takeWhile fun c => inRanges allowedRanges c.toNat
  if allowed.length = text.length then none else some (Text.byteSize allowed)

/-- The documents of a text. -/
def documents (text : Text) : List Document :=
  Document.ofEvents (.ofTokens (.ofText text))

/-- The values of the documents of a text. -/
def values (text : Text) : Except Fault (List Value) :=
  match forbidden? text with
  | some offset => .error (.forbiddenCharacter offset)
  | none => (documents text).mapM Document.value

/-- What is told of a fault. -/
def Fault.toFailure (fault : Fault) : ParseFailure where
  line := fault.place?.map fun place => place.line + 1
  column := fault.place?.map fun place => place.column + 1
  message := fault.message

/-- Whether a line is blank or a comment. -/
def isIdleLine (line : Text) : Bool :=
  match Text.trim line with
  | [] => true
  | c :: _ => c = '#'

/-- The number of documents of a text. -/
def countDocuments (text : Text) : Except ParseFailure Nat :=
  match values text with
  | .error fault => .error fault.toFailure
  | .ok values => .ok (if (Text.splitLines text).all isIdleLine then 0 else values.length)

end Yaml

end LiteralAudit
