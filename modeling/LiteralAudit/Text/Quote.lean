import LiteralAudit.Text.PrintTable
import LiteralAudit.Text.Basic

/-!
# Quoted texts

A text in double quotes.  Quotes, backslashes and the common control characters are escaped, and
a character that cannot be told from the page is given by its code point.
-/

namespace LiteralAudit.Text

/-- Whether a character shows on the page by itself. -/
def isShown (c : Char) : Bool :=
  !inRanges extendingRanges c.toNat && (c = ' ' || !inRanges unprintedRanges c.toNat)

/-- A character inside double quotes. -/
def quoteChar (c : Char) : Text :=
  match c with
  | '\x00' => ['\\', '0']
  | '\t' => ['\\', 't']
  | '\r' => ['\\', 'r']
  | '\n' => ['\\', 'n']
  | '"' => ['\\', '"']
  | '\\' => ['\\', '\\']
  | c => if isShown c then [c] else "\\u\x7b" ++ ofNatHex c.toNat ++ "\x7d"

/-- The text in double quotes. -/
def quoted (text : Text) : Text := '"' :: text.flatMap quoteChar ++ ['"']

end LiteralAudit.Text
