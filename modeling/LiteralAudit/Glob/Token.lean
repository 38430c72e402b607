import LiteralAudit.Text.Utf8
import LiteralAudit.Glob.Expression

/-!
# Tokens of globs

A glob is written with wildcards: `?` for one byte, `*` for any number of them, classes in
brackets and choices in braces.  A `**` that fills a whole step of the path stands for any number
of steps; which ones, depends on where it is.  Two stars elsewhere are just two stars.

A token list is read as an expression on bytes.  Bytes rather than characters are the unit: a
wildcard may stand for a part of a character, and a class holds the bytes that its ranges are
written with.
-/

namespace LiteralAudit

/-- A class of characters in brackets. -/
structure CharClass where
  /-- Whether the class holds what is not listed. -/
  negated : Bool
  /-- The first and the last character of each range. -/
  ranges : List (Char × Char)
  deriving DecidableEq, Repr

namespace CharClass

/-- Whether a byte is one of those a range is written with: the bytes of its first character but
the last one, then what lies between that one and the first byte of the last character, then the
remaining bytes of the last character. -/
def rangeHas (range : Char × Char) (byte : UInt8) : Bool :=
  let first := String.utf8EncodeChar range.1
  let last := String.utf8EncodeChar range.2
  if range.1 = range.2 then first.contains byte
  else
    first.dropLast.contains byte || last.tail.contains byte ||
      (first.getLast?.any (· ≤ byte) && last.head?.any (byte ≤ ·))

/-- Whether a byte belongs to a class. -/
def has (listed : CharClass) (byte : UInt8) : Bool :=
  listed.negated != listed.ranges.any (rangeHas · byte)

end CharClass

/-- A part of a glob. -/
inductive GlobToken where
  /-- A character that stands for itself. -/
  | char (c : Char)
  /-- One byte. -/
  | any
  /-- Any number of bytes. -/
  | star
  /-- The beginning of a path up to a slash, or nothing. -/
  | leadingSteps
  /-- A slash and what follows it. -/
  | trailingSteps
  /-- A slash, or what lies between two slashes, with them. -/
  | innerSteps
  /-- One byte of a class. -/
  | oneOf (listed : CharClass)
  /-- One of some token lists. -/
  | choice (branches : List (List GlobToken))

/-- What globs are matched against. -/
inductive GlobScope where
  /-- A whole path, in which a wildcard may stand for a slash. -/
  | wholePath
  /-- The steps of a path: `?` and `*` stay within a step. -/
  | steps
  deriving DecidableEq, Repr

/-- The bytes that `?` and `*` stand for. -/
def GlobScope.wild : GlobScope → UInt8 → Bool
  | .wholePath, _ => true
  | .steps, byte => byte ≠ 0x2f

namespace GlobToken

open ByteExpression

mutual

/-- Whether a token stands for nothing, as a choice without branches does. -/
def isVoid : GlobToken → Bool
  | .choice branches => areAllVoid branches
  | _ => false

/-- Whether every token of a list stands for nothing. -/
def isVoidList : List GlobToken → Bool
  | [] => true
  | token :: tokens => isVoid token && isVoidList tokens

/-- Whether every branch stands for nothing. -/
def areAllVoid : List (List GlobToken) → Bool
  | [] => true
  | branch :: branches => isVoidList branch && areAllVoid branches

end

mutual

/-- The expression of a token.  A choice leaves out the branches that stand for nothing, unless
there are no others. -/
def expression (scope : GlobScope) : GlobToken → ByteExpression
  | .char c => bytes (String.utf8EncodeChar c)
  | .any => .one scope.wild
  | .star => .many scope.wild
  | .leadingSteps => .either .empty (.either slash (.seq anything slash))
  | .trailingSteps => .seq slash anything
  | .innerSteps => .either slash (.seq slash (.seq anything slash))
  | .oneOf listed => .one listed.has
  | .choice branches => if areAllVoid branches then .empty else choiceExpression scope branches

/-- The expression of a token list. -/
def listExpression (scope : GlobScope) : List GlobToken → ByteExpression
  | [] => .empty
  | token :: tokens => .seq (expression scope token) (listExpression scope tokens)

/-- The expression of the branches that stand for something. -/
def choiceExpression (scope : GlobScope) : List (List GlobToken) → ByteExpression
  | [] => .never
  | branch :: branches =>
      if isVoidList branch then choiceExpression scope branches
      else .either (listExpression scope branch) (choiceExpression scope branches)

end

/-- The character that a token stands for, if it stands for one. -/
def char? : GlobToken → Option Char
  | .char c => some c
  | _ => none

/-- Whether a token is a star. -/
def isStar : GlobToken → Bool
  | .star => true
  | _ => false

/-- Whether a token stands for leading steps. -/
def isLeadingSteps : GlobToken → Bool
  | .leadingSteps => true
  | _ => false

/-- The characters that the tokens of a list stand for, if each of them stands for one. -/
def chars? (tokens : List GlobToken) : Option Text := tokens.mapM char?

end GlobToken

end LiteralAudit
