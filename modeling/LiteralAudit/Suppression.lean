import LiteralAudit.Text.Blank

/-!
# Suppression

Not every match is a finding.  A match may sit in a comment or an import, inside a quoted
string, or in the key of a mapping, and a rule may be meant for some lines only.  None of the
tests here reads more than one line, and none knows about escaped quotes.
-/

namespace LiteralAudit

/-! ## Whole lines -/

/-- The beginnings of lines that are not looked at. -/
structure LineClassifier where
  /-- A line is skipped if it begins with one of these, white space aside. -/
  skipped : List Text
  deriving DecidableEq, Repr

namespace LineClassifier

/-- In YAML comments are skipped. -/
def yaml : LineClassifier := ⟨["#"]⟩

/-- In scripts and style sheets comments and imports are skipped. -/
def source : LineClassifier := ⟨["/*", "//", "import ", "require"]⟩

/-- Whether a line is skipped. -/
def skips (classifier : LineClassifier) (line : Text) : Bool :=
  classifier.skipped.any fun start => Text.startsWith start (Text.trim line)

end LineClassifier

/-- Words that switch a rule on for the lines that contain one of them. -/
structure KeywordGate where
  /-- The words. -/
  keywords : List Text
  deriving DecidableEq, Repr

namespace KeywordGate

/-- Lines that speak of distances. -/
def spacing : KeywordGate := ⟨["padding", "margin", "gap", "width", "height"]⟩

/-- Lines that speak of border radii. -/
def radius : KeywordGate := ⟨["border-radius", "borderRadius"]⟩

/-- Whether the rule runs on a line. -/
def admits (gate : KeywordGate) (line : Text) : Bool :=
  gate.keywords.any fun keyword => Text.occursIn keyword line

end KeywordGate

/-! ## Single matches -/

/-- Says of a stretch of a line whether a match there is dropped. -/
abbrev Suppressor := Text → Span → Bool

/-- The suppressor that gives the same answer everywhere. -/
def Suppressor.always (answer : Bool) : Suppressor := fun _ _ => answer

/-- Whether a character is a quote. -/
def isQuote (c : Char) : Bool := c = '\'' || c = '"'

/-- How many single and how many double quotes there are. -/
structure QuoteCount where
  /-- The number of single quotes. -/
  single : Nat
  /-- The number of double quotes. -/
  double : Nat
  deriving DecidableEq, Repr

namespace QuoteCount

/-- The quotes before an offset.  All quotes of the line count if the offset is not between two
characters of it. -/
def before (line : Text) (offset : Nat) : QuoteCount :=
  let upTo := match Text.splitAt? line offset with
    | some (upTo, _) => upTo
    | none => line
  ⟨upTo.count '\'', upTo.count '"'⟩

/-- Whether one of the kinds of quotes is left open. -/
def isOpen (quotes : QuoteCount) : Bool := quotes.single % 2 = 1 || quotes.double % 2 = 1

end QuoteCount

/-- A match is inside a string if the number of quotes of one kind before it is odd. -/
def insideQuotes : Suppressor := fun line span => (QuoteCount.before line span.start).isOpen

/-- A match is a key if a colon follows it, white space aside. -/
def beforeColon : Suppressor := fun line span =>
  match Text.splitAt? line span.stop with
  | some (_, after) => Text.startsWith [':'] (Text.trimStart after)
  | none => false

/-- Whether the character before a stretch or the one behind it is a quote. -/
def touchesQuote (line : Text) (span : Span) : Bool :=
  let before := match Text.splitAt? line span.start with
    | some (upTo, _) => upTo.getLast?.any isQuote
    | none => false
  let after := match Text.splitAt? line span.stop with
    | some (_, rest) => rest.head?.any isQuote
    | none => false
  before || after

end LiteralAudit
