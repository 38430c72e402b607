import LiteralAudit.Diagnostic
import LiteralAudit.Pattern
import LiteralAudit.Suppression

/-!
# Rules

A rule says what is looked for on a line, which matches count, and what is said about them.
There are two tables of rules: one for values that YAML 1.1 read differently, one for colors,
distances and radii that are written out where a design token should stand.
-/

namespace LiteralAudit

/-- The rules by name. -/
inductive RuleId where
  /-- Words that once were booleans. -/
  | bareBoolean
  /-- Octal numbers without their mark. -/
  | unprefixedOctal
  /-- Colors in hexadecimal. -/
  | hexColor
  /-- Distances in pixels. -/
  | pixelSpacing
  /-- Border radii in pixels. -/
  | pixelRadius
  deriving DecidableEq, Repr

/-- The name of a rule used in data. -/
def RuleId.name : RuleId → Text
  | .bareBoolean => "bare-boolean"
  | .unprefixedOctal => "unprefixed-octal"
  | .hexColor => "hex-color"
  | .pixelSpacing => "pixel-spacing"
  | .pixelRadius => "pixel-radius"

/-- How a match becomes the literal of a finding. -/
inductive LiteralForm where
  /-- The text of the match. -/
  | verbatim
  /-- The match is a number of pixels, which is written without leading zeros. -/
  | pixels
  deriving DecidableEq, Repr

/-- One rule. -/
structure Rule where
  /-- Its name. -/
  id : RuleId
  /-- The category of its findings. -/
  category : Category
  /-- What it looks for: the matches in a line, from left to right. -/
  search : Text → List Match
  /-- The group of a match that is the literal.  Zero is the whole match. -/
  group : Nat
  /-- Whether matches inside strings are dropped. -/
  skipIfQuoted : Bool
  /-- Whether keys are dropped. -/
  skipIfKey : Bool
  /-- The lines it runs on. -/
  gate : Option KeywordGate
  /-- Whether matches that touch a quote are dropped. -/
  bare : Bool
  /-- Whether sanctioned values are dropped. -/
  checkAllowed : Bool
  /-- How the literal is written. -/
  literal : LiteralForm
  /-- What is said about a match.  A pair of braces stands for the literal. -/
  message : Text

namespace Rule

/-- The mark in a message where the literal goes. -/
def slot : Text := ['\x7b', '\x7d']

/-- What is said about a literal. -/
def render (rule : Rule) (literal : Text) : Text := Text.replaceFirst slot literal rule.message

end Rule

namespace Pattern

/-- One of the six words that were booleans, in any case, as a whole word. -/
def booleanWord : Pattern :=
  inOrder
    [.wordEdge,
     firstOf [anyCase "yes", anyCase "no", anyCase "on", anyCase "off", anyCase "true"]
       (anyCase "false"),
     .wordEdge]

/-- A zero and octal digits behind it, as a whole word. -/
def octalNumber : Pattern :=
  inOrder [.wordEdge, exactly "0", atLeastOne Text.isOctalDigit, .wordEdge]

/-- A number sign and six hexadecimal digits, or else three. -/
def hexColor : Pattern :=
  inOrder [exactly "#", .either (times Text.isHexDigit 6) (times Text.isHexDigit 3)]

/-- A decimal number, which is the group, and the unit. -/
def pixelCount : Pattern := inOrder [.group (atLeastOne Text.isDigit), exactly "px"]

/-- The name of the property, a colon, and a number of pixels, perhaps behind a quote. -/
def radiusInPixels : Pattern :=
  inOrder
    [.either (exactly "border-radius") (exactly "borderRadius"),
     .run Text.isBlank, exactly ":", .run Text.isBlank, .maybe (.one isQuote), pixelCount]

end Pattern

namespace Rule

/-- Words that once were booleans. -/
def bareBoolean : Rule where
  id := .bareBoolean
  category := .legacyPattern
  search := Pattern.booleanWord.search
  group := 0
  skipIfQuoted := true
  skipIfKey := true
  gate := none
  bare := true
  checkAllowed := false
  literal := .verbatim
  message := "Bare boolean-like value '\x7b\x7d': in YAML 1.2 only `true`/`false` are booleans. " ++
    "If you intend a boolean, use `true` or `false`. If a string, quote it."

/-- Octal numbers without their mark. -/
def unprefixedOctal : Rule where
  id := .unprefixedOctal
  category := .legacyPattern
  search := Pattern.octalNumber.search
  group := 0
  skipIfQuoted := true
  skipIfKey := true
  gate := none
  bare := false
  checkAllowed := false
  literal := .verbatim
  message := "Octal literal '\x7b\x7d': YAML 1.2 requires the `0o` prefix (e.g. `0o755`). " ++
    "YAML 1.1 style `0755` is parsed as decimal in 1.2."

/-- Colors in hexadecimal. -/
def hexColor : Rule where
  id := .hexColor
  category := .hardcodedColor
  search := Pattern.hexColor.search
  group := 0
  skipIfQuoted := false
  skipIfKey := false
  gate := none
  bare := false
  checkAllowed := true
  literal := .verbatim
  message := "Hardcoded color '\x7b\x7d': use a design token instead"

/-- Distances in pixels. -/
def pixelSpacing : Rule where
  id := .pixelSpacing
  category := .nonStandardSpacing
  search := Pattern.pixelCount.search
  group := 1
  skipIfQuoted := false
  skipIfKey := false
  gate := some .spacing
  bare := false
  checkAllowed := true
  literal := .pixels
  message := "Non-standard spacing '\x7b\x7d': use a spacing token"

/-- Border radii in pixels. -/
def pixelRadius : Rule where
  id := .pixelRadius
  category := .nonStandardRadius
  search := Pattern.radiusInPixels.search
  group := 1
  skipIfQuoted := false
  skipIfKey := false
  gate := some .radius
  bare := false
  checkAllowed := true
  literal := .pixels
  message := "Non-standard border radius '\x7b\x7d': use a border radius token"

/-- The rules for values whose meaning changed from YAML 1.1 to YAML 1.2. -/
def legacyYaml : List Rule := [bareBoolean, unprefixedOctal]

/-- The rules for values that should be design tokens. -/
def designTokens : List Rule := [hexColor, pixelSpacing, pixelRadius]

end Rule

end LiteralAudit
