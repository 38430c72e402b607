import LiteralAudit.Glob
import LiteralAudit.Text.Blank
import LiteralAudit.Text.Line

/-!
# Ignore files

An ignore file lists globs, one on a line, of paths to leave out or, with an exclamation mark, to
keep.  A glob with a slash is matched against the whole path below the directory of the file;
one without a slash may match behind any slash.  Of the rules that match a path the last one
decides.
-/

namespace LiteralAudit

/-- A rule of an ignore file. -/
structure IgnoreRule where
  /-- The paths that the rule is about. -/
  glob : Glob
  /-- Whether the paths are kept. -/
  keeps : Bool
  /-- Whether the rule is about directories only. -/
  onlyDirectories : Bool

/-- The rules of an ignore file, and the directory that they are relative to. -/
structure IgnoreFile where
  /-- The directory. -/
  anchor : Path
  /-- The rules, in their order. -/
  rules : List IgnoreRule

namespace IgnoreRule

/-- A line without the blanks at its end.  A blank behind a backslash keeps them. -/
def trimLine (line : Text) : Text :=
  if Text.endsWith "\\ " line then line else Text.trimEnd line

/-- What an exclamation mark and a slash at the beginning say: whether paths are kept, whether the
glob is anchored, and the rest. -/
def splitMarks (line : Text) : Bool × Bool × Text :=
  match line with
  | '\\' :: '!' :: _ | '\\' :: '#' :: _ => (false, false, line.tail)
  | '!' :: '/' :: line => (true, true, line)
  | '!' :: line => (true, false, line)
  | '/' :: line => (false, true, line)
  | line => (false, false, line)

/-- A line without the slash at its end, and whether there was one.  A backslash in front of it is
dropped too. -/
def splitSlash (line : Text) : Bool × Text :=
  match Text.dropEnd? ['/'] line with
  | some line => (true, (Text.dropEnd? ['\\'] line).getD line)
  | none => (false, line)

/-- The glob that a line gives.  One without a slash matches behind leading steps, and one for
everything below a directory does not match the directory. -/
def globText (isAnchored : Bool) (line : Text) : Text :=
  let line : Text :=
    if isAnchored || line.contains '/' || line = ("**" : Text) then line else "**/" ++ line
  if Text.endsWith "/**" line then line ++ "/*" else line

/-- The rule of a line.  Comments, empty lines and malformed globs give none. -/
def ofLine? (line : Text) : Option IgnoreRule :=
  let line := trimLine line
  if line.head? = some '#' || line.isEmpty then none
  else
    let (keeps, isAnchored, line) := splitMarks line
    let (onlyDirectories, line) := splitSlash line
    match Glob.readLenient (globText isAnchored line) with
    | .ok glob => some ⟨glob, keeps, onlyDirectories⟩
    | .error _ => none

end IgnoreRule

/-- The pieces of some bytes that are each ended by a line feed, without the carriage return in
front of it. -/
def splitByteLines (bytes : List UInt8) : List (List UInt8) :=
  match bytes with
  | [] => []
  | byte :: bytes =>
      if byte = 0x0a then [] :: splitByteLines bytes
      else
        match bytes, splitByteLines bytes with
        | 0x0a :: _, [] :: lines => (if byte = 0x0d then [] else [byte]) :: lines
        | [], _ => [[byte]]
        | _, line :: lines => (byte :: line) :: lines
        | _, [] => [[byte]]

namespace IgnoreFile

/-- An ignore file without rules. -/
def empty (anchor : Path) : IgnoreFile := ⟨anchor, []⟩

/-- The lines of a file up to the first one that is no text. -/
def lines (bytes : List UInt8) : List Text :=
  ((splitByteLines bytes).map Text.Utf8.decode?).takeWhile Option.isSome |>.filterMap id

/-- The rules of the bytes of a file.  A mark of the byte order at its beginning is dropped. -/
def rulesOf (bytes : List UInt8) : List IgnoreRule :=
  match lines bytes with
  | [] => []
  | line :: lines =>
      (line.dropWhile (· = '\ufeff') :: lines).filterMap IgnoreRule.ofLine?

/-- A path without a dot and a slash at its beginning. -/
def dropHere (path : Path) : Path :=
  match path.bytes with
  | 0x2e :: 0x2f :: rest => ⟨rest⟩
  | _ => path

/-- The ignore file of a directory. -/
def ofBytes (directory : Path) (bytes : List UInt8) : IgnoreFile :=
  ⟨dropHere directory, rulesOf bytes⟩

/-- What follows the given bytes, if a path begins with them. -/
def dropBytes? : (start bytes : List UInt8) → Option (List UInt8)
  | [], bytes => some bytes
  | _ :: _, [] => none
  | a :: start, b :: bytes => if a = b then dropBytes? start bytes else none

/-- Bytes without a slash at their beginning. -/
def dropSlash : List UInt8 → List UInt8
  | [] => []
  | byte :: bytes => if byte = 0x2f then bytes else byte :: bytes

/-- A path as seen from the directory of an ignore file. -/
def relative (anchor path : Path) : Path :=
  let path := dropHere path
  if anchor.same ⟨[0x2e]⟩ || !path.bytes.contains 0x2f then path
  else
    ⟨dropSlash ((dropBytes? anchor.bytes path.bytes).getD path.bytes)⟩

/-- Whether a rule is about a path. -/
def isAbout (path : Path) (isDirectory : Bool) (rule : IgnoreRule) : Bool :=
  (isDirectory || !rule.onlyDirectories) && rule.glob.accepts .steps path

/-- The rule that decides about a path. -/
def rule? (file : IgnoreFile) (path : Path) (isDirectory : Bool) : Option IgnoreRule :=
  file.rules.reverse.find? (isAbout (relative file.anchor path) isDirectory)

end IgnoreFile

end LiteralAudit
