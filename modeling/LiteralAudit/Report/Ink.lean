import LiteralAudit.Text.Basic

/-!
# Ink

Colors on a terminal.  Text is painted by an escape sequence before it and one behind it.  If
colors are off it stays as it is.
-/

namespace LiteralAudit

/-- A way of writing on a terminal. -/
inductive Ink where
  /-- Strong letters. -/
  | bold
  /-- Faint letters. -/
  | dim
  /-- Red letters. -/
  | red
  /-- Green letters. -/
  | green
  /-- Yellow letters. -/
  | yellow
  /-- Blue letters. -/
  | blue
  /-- Cyan letters. -/
  | cyan
  deriving DecidableEq, Repr

namespace Ink

/-- The number of an ink. -/
def code : Ink → Text
  | .bold => "1"
  | .dim => "2"
  | .red => "31"
  | .green => "32"
  | .yellow => "33"
  | .blue => "34"
  | .cyan => "36"

/-- The escape sequence with a number. -/
def sequence (code : Text) : Text := '\x1b' :: '[' :: code ++ ['m']

/-- The sequence that switches an ink on. -/
def start (ink : Ink) : Text := sequence ink.code

/-- The sequence that switches every ink off. -/
def stop : Text := sequence "0"

/-- A text in an ink, if colors are on. -/
def paint (colored : Bool) (ink : Ink) (text : Text) : Text :=
  if colored then ink.start ++ text ++ stop else text

end Ink

end LiteralAudit
