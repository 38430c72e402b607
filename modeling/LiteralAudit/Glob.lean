import LiteralAudit.Glob.Reading
import LiteralAudit.Path

/-!
# Globs

A glob is a text with wildcards that describes paths.  It is matched against the bytes of a whole
path, as the path is spelled.

A glob may ask for the base name of a path: behind leading steps it gives the name itself, or it
ends in an extension.  A path that ends in a step to the parent directory has no base name, so
such a glob does not match it.  A glob that gives the whole path, or the end of a path behind a
star, asks for no base name.
-/

namespace LiteralAudit

/-- A text with wildcards that describes paths. -/
structure Glob where
  /-- The parts of the glob. -/
  tokens : List GlobToken

namespace Glob

/-- The glob of a text. -/
def read (text : Text) : Except GlobFault Glob :=
  (GlobReader.start.read false text).map Glob.mk

/-- The glob of a text in which an opening bracket without its partner is a character. -/
def readLenient (text : Text) : Except GlobFault Glob :=
  (GlobReader.start.read true text).map Glob.mk

/-- Whether a glob ends in a dot and further characters other than slashes. -/
def endsInExtension (tokens : List GlobToken) : Bool :=
  match (tokens.reverse.map GlobToken.char?).dropWhile fun c =>
      c.any fun c => c ≠ '.' && c ≠ '/' with
  | some '.' :: _ => true
  | _ => false

/-- Whether a glob asks for the base name of a path. -/
def asksBaseName (scope : GlobScope) (glob : Glob) : Bool :=
  let isLed := glob.tokens.head?.any GlobToken.isLeadingSteps
  let tokens := if isLed then glob.tokens.tail else glob.tokens
  match GlobToken.chars? tokens with
  | some name => isLed && !name.isEmpty && !name.contains '/'
  | none =>
      let ending := if tokens.head?.any GlobToken.isStar then GlobToken.chars? tokens.tail else none
      match scope, ending with
      | .wholePath, some ('.' :: ext) => !ext.contains '.' && !ext.contains '/'
      | .wholePath, some _ => false
      | _, _ => endsInExtension glob.tokens

/-- Whether the last step of a path, as it is spelled, goes to the parent directory. -/
def endsInParent (path : Path) : Bool :=
  (splitSlashes path.bytes).getLast? = some [0x2e, 0x2e]

/-- Whether a glob matches a path. -/
def accepts (scope : GlobScope) (glob : Glob) (path : Path) : Bool :=
  match glob.tokens with
  | [.leadingSteps] => true
  | tokens =>
      (GlobToken.listExpression scope tokens).accepts path.bytes &&
        !(endsInParent path && glob.asksBaseName scope)

end Glob

end LiteralAudit
