import LiteralAudit.Yaml.Cursor

/-!
# YAML tokens

A token has a kind and the place where it begins.  The indentation of block collections shows as
tokens of its own: a collection is opened where its first entry begins and closed where the
indentation falls behind it.
-/

namespace LiteralAudit.Yaml

/-- What a token is. -/
inductive TokenKind where
  /-- The end of the text. -/
  | textEnd
  /-- A directive that gives the version. -/
  | versionDirective (major minor : Nat)
  /-- A directive that gives a handle a prefix. -/
  | tagDirective (handle : Text) (start : List UInt8)
  /-- Three dashes. -/
  | documentStart
  /-- Three dots. -/
  | documentEnd
  /-- A sequence of dashes begins. -/
  | blockSequenceStart
  /-- A mapping without braces begins. -/
  | blockMappingStart
  /-- A collection ends with its indentation. -/
  | blockEnd
  /-- An opening bracket. -/
  | flowSequenceStart
  /-- A closing bracket. -/
  | flowSequenceEnd
  /-- An opening brace. -/
  | flowMappingStart
  /-- A closing brace. -/
  | flowMappingEnd
  /-- A dash. -/
  | blockEntry
  /-- A comma. -/
  | flowEntry
  /-- A key begins. -/
  | key
  /-- A value begins. -/
  | value
  /-- A reference to an anchor. -/
  | alias (name : Text)
  /-- An anchor. -/
  | anchor (name : Text)
  /-- A tag.  The handle is empty if the suffix is the whole tag. -/
  | tag (handle : Text) (suffix : List UInt8)
  /-- A scalar. -/
  | scalar (text : Text) (isPlain : Bool)
  deriving DecidableEq, Repr

/-- A token. -/
structure Token where
  /-- What it is. -/
  kind : TokenKind
  /-- Where it begins. -/
  place : Place
  deriving DecidableEq, Repr

end LiteralAudit.Yaml
