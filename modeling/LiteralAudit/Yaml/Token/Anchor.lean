import LiteralAudit.Yaml.SyntaxFault
import LiteralAudit.Yaml.Token

/-!
# Anchors and aliases

An ampersand or an asterisk and a name.  The name ends at a gap, a break or one of a few
indicators.
-/

namespace LiteralAudit.Yaml.Anchor

/-- Whether a name may end before the text. -/
def endsName (text : Text) : Bool :=
  endsWord text || text.head?.any fun c => "?:,]\x7d%@`".toList.contains c

/-- Reads the name behind the indicator at the cursor. -/
def scan (activity : Activity) (cursor : Cursor) : Except SyntaxFault (Text × Cursor) :=
  let (name, stop) := cursor.skip.takeWhile isNameChar
  if !name.isEmpty && endsName stop.rest then .ok (name, stop)
  else .error (.within activity cursor.place .expectedName stop.place)

end LiteralAudit.Yaml.Anchor
