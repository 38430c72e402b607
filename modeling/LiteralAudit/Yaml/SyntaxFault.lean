import LiteralAudit.Yaml.Cursor

/-!
# Faults of syntax

Why a text is no YAML.  A fault has a cause and a place, and most faults also name what was being
read and where that began.
-/

namespace LiteralAudit.Yaml

/-- What was being read. -/
inductive Activity where
  /-- Looking for the next token. -/
  | nextToken
  /-- A key without a question mark. -/
  | simpleKey
  /-- A directive. -/
  | directive
  /-- A version directive. -/
  | versionDirective
  /-- A tag directive. -/
  | tagDirective
  /-- The beginning of the handle of a tag directive. -/
  | directiveHandle
  /-- The end of the handle of a tag directive. -/
  | directiveHandleEnd
  /-- The prefix of a tag directive. -/
  | directivePrefix
  /-- A tag. -/
  | tag
  /-- The suffix of a tag. -/
  | tagSuffix
  /-- An anchor. -/
  | anchor
  /-- An alias. -/
  | alias
  /-- A literal or folded scalar. -/
  | blockScalar
  /-- A quoted scalar. -/
  | quotedScalar
  /-- An escape in a quoted scalar. -/
  | escape
  /-- A plain scalar. -/
  | plainScalar
  /-- A node. -/
  | node
  /-- A node outside brackets and braces. -/
  | blockNode
  /-- A node in brackets or braces. -/
  | flowNode
  /-- A sequence of dashes. -/
  | blockSequence
  /-- A mapping without braces. -/
  | blockMapping
  /-- A sequence in brackets. -/
  | flowSequence
  /-- A mapping in braces. -/
  | flowMapping
  deriving DecidableEq, Repr

/-- The words for an activity. -/
def Activity.message : Activity → Text
  | .nextToken => "while scanning for the next token"
  | .simpleKey => "while scanning a simple key"
  | .directive => "while scanning a directive"
  | .versionDirective => "while scanning a %YAML directive"
  | .tagDirective => "while scanning a %TAG directive"
  | .directiveHandle => "while scanning a tag directive"
  | .directiveHandleEnd => "while parsing a tag directive"
  | .directivePrefix => "while parsing a %TAG directive"
  | .tag => "while scanning a tag"
  | .tagSuffix => "while parsing a tag"
  | .anchor => "while scanning an anchor"
  | .alias => "while scanning an alias"
  | .blockScalar => "while scanning a block scalar"
  | .quotedScalar => "while scanning a quoted scalar"
  | .escape => "while parsing a quoted scalar"
  | .plainScalar => "while scanning a plain scalar"
  | .node => "while parsing a node"
  | .blockNode => "while parsing a block node"
  | .flowNode => "while parsing a flow node"
  | .blockSequence => "while parsing a block collection"
  | .blockMapping => "while parsing a block mapping"
  | .flowSequence => "while parsing a flow sequence"
  | .flowMapping => "while parsing a flow mapping"

/-- What is wrong. -/
inductive Problem where
  /-- No token begins with this character. -/
  | strayCharacter
  /-- A key is not followed by a colon. -/
  | expectedColon
  /-- A dash stands where no entry can begin. -/
  | entryNotAllowed
  /-- A question mark stands where no key can begin. -/
  | keyNotAllowed
  /-- A colon stands where no value can begin. -/
  | valueNotAllowed
  /-- A directive has no name. -/
  | expectedDirectiveName
  /-- The name of a directive is followed by something else than a gap. -/
  | badDirectiveName
  /-- There is no such directive. -/
  | unknownDirective
  /-- Something else than a comment stands at the end of the line. -/
  | expectedLineEnd
  /-- A version has no dot. -/
  | expectedVersionDot
  /-- A version has no number. -/
  | expectedVersion
  /-- A version number has more than nine digits. -/
  | longVersion
  /-- A gap is missing. -/
  | expectedGap
  /-- A gap or a break is missing. -/
  | expectedGapOrBreak
  /-- A name is missing, or is followed by the wrong character. -/
  | expectedName
  /-- The closing angle bracket of a tag is missing. -/
  | expectedTagEnd
  /-- An exclamation mark is missing. -/
  | expectedMark
  /-- The suffix or the prefix of a tag is missing. -/
  | expectedTagText
  /-- A percent sign is not followed by two hexadecimal digits. -/
  | badOctet
  /-- The first byte of an escaped character is wrong. -/
  | badFirstOctet
  /-- A later byte of an escaped character is wrong. -/
  | badLaterOctet
  /-- The indentation of a scalar is given as zero. -/
  | zeroIndent
  /-- A tab stands where the indentation belongs. -/
  | tabInIndent
  /-- A document marker stands inside a quoted scalar. -/
  | markerInScalar
  /-- The text ends inside a quoted scalar. -/
  | endInScalar
  /-- A backslash stands before a character that it cannot escape. -/
  | unknownEscape
  /-- A hexadecimal digit is missing. -/
  | expectedHexDigit
  /-- The number of an escape is no character. -/
  | badCharacterCode
  /-- A colon stands directly before punctuation. -/
  | strayColon
  /-- A tab breaks the indentation of a plain scalar. -/
  | tabBreaksIndent
  /-- A document begins with three dashes here. -/
  | expectedDocumentStart
  /-- A version is given twice. -/
  | duplicateVersion
  /-- The version is not supported. -/
  | incompatibleVersion
  /-- A tag handle is declared twice. -/
  | duplicateHandle
  /-- A tag handle is not declared. -/
  | undefinedHandle
  /-- A node belongs here. -/
  | expectedNode
  /-- A dash belongs here. -/
  | expectedDash
  /-- A key belongs here. -/
  | expectedKey
  /-- A comma or a bracket belongs here. -/
  | expectedBracket
  /-- A comma or a brace belongs here. -/
  | expectedBrace
  deriving DecidableEq, Repr

/-- The words for a problem. -/
def Problem.message : Problem → Text
  | .strayCharacter => "found character that cannot start any token"
  | .expectedColon => "could not find expected ':'"
  | .entryNotAllowed => "block sequence entries are not allowed in this context"
  | .keyNotAllowed => "mapping keys are not allowed in this context"
  | .valueNotAllowed => "mapping values are not allowed in this context"
  | .expectedDirectiveName => "could not find expected directive name"
  | .badDirectiveName => "found unexpected non-alphabetical character"
  | .unknownDirective => "found unknown directive name"
  | .expectedLineEnd => "did not find expected comment or line break"
  | .expectedVersionDot => "did not find expected digit or '.' character"
  | .expectedVersion => "did not find expected version number"
  | .longVersion => "found extremely long version number"
  | .expectedGap => "did not find expected whitespace"
  | .expectedGapOrBreak => "did not find expected whitespace or line break"
  | .expectedName => "did not find expected alphabetic or numeric character"
  | .expectedTagEnd => "did not find the expected '>'"
  | .expectedMark => "did not find expected '!'"
  | .expectedTagText => "did not find expected tag URI"
  | .badOctet => "did not find URI escaped octet"
  | .badFirstOctet => "found an incorrect leading UTF-8 octet"
  | .badLaterOctet => "found an incorrect trailing UTF-8 octet"
  | .zeroIndent => "found an indentation indicator equal to 0"
  | .tabInIndent => "found a tab character where an indentation space is expected"
  | .markerInScalar => "found unexpected document indicator"
  | .endInScalar => "found unexpected end of stream"
  | .unknownEscape => "found unknown escape character"
  | .expectedHexDigit => "did not find expected hexadecimal number"
  | .badCharacterCode => "found invalid Unicode character escape code"
  | .strayColon => "found unexpected ':'"
  | .tabBreaksIndent => "found a tab character that violates indentation"
  | .expectedDocumentStart => "did not find expected <document start>"
  | .duplicateVersion => "found duplicate %YAML directive"
  | .incompatibleVersion => "found incompatible YAML document"
  | .duplicateHandle => "found duplicate %TAG directive"
  | .undefinedHandle => "found undefined tag handle"
  | .expectedNode => "did not find expected node content"
  | .expectedDash => "did not find expected '-' indicator"
  | .expectedKey => "did not find expected key"
  | .expectedBracket => "did not find expected ',' or ']'"
  | .expectedBrace => "did not find expected ',' or '\x7d'"

/-- A fault of syntax. -/
structure SyntaxFault where
  /-- What is wrong. -/
  problem : Problem
  /-- Where it is wrong. -/
  place : Place
  /-- What was being read. -/
  activity : Option Activity
  /-- Where that began. -/
  activityStart : Place
  deriving DecidableEq, Repr

namespace SyntaxFault

/-- A fault with nothing to say about what was being read. -/
def alone (problem : Problem) (place : Place) : SyntaxFault := ⟨problem, place, none, .start⟩

/-- A fault within an activity. -/
def within (activity : Activity) (began : Place) (problem : Problem) (place : Place) :
    SyntaxFault :=
  ⟨problem, place, some activity, began⟩

/-- The words for a fault.  The beginning of the activity is left out where it is the place of
the fault. -/
def message (fault : SyntaxFault) : Text :=
  fault.problem.message ++ fault.place.message ++
    match fault.activity with
    | none => []
    | some activity =>
        ", " ++ activity.message ++
          if fault.activityStart.sameSpot fault.place then [] else fault.activityStart.message

end SyntaxFault

end LiteralAudit.Yaml
