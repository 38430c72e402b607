import LiteralAudit.Json.Reader
import LiteralAudit.Text.Lower

/-!
# Design tokens

A token document is a JSON object that lists the values a design allows: colors for each mode of
a theme, distances, and border radii.  Below the keys that are looked for, any nesting of lists
and objects is flattened, and only the leaves matter.

Modes are told apart by their names in lower case.  If two modes share a name, the one whose
spelling comes later is kept.
-/

namespace LiteralAudit

/-- A mode of a theme. -/
inductive Theme where
  /-- Dark on light. -/
  | light
  /-- Light on dark. -/
  | dark
  deriving DecidableEq, Repr

namespace Theme

/-- The name of a mode. -/
def name : Theme → Text
  | .light => "light"
  | .dark => "dark"

/-- The mode with a name in any case. -/
def ofName? (text : Text) : Option Theme :=
  let lowered := Text.lower text
  if lowered = light.name then some .light
  else if lowered = dark.name then some .dark
  else none

/-- What is said about a name that no mode has. -/
def unknownMessage (text : Text) : Text :=
  "Unknown mode: " ++ text ++ " (expected light or dark)"

end Theme

mutual

/-- The strings at the leaves of a value. -/
def stringLeaves : Json → List Text
  | .str text => [text]
  | .array items => stringLeavesOfItems items
  | .object members => stringLeavesOfMembers members
  | _ => []

/-- The strings at the leaves of the items of a list. -/
def stringLeavesOfItems : List Json → List Text
  | [] => []
  | item :: items => stringLeaves item ++ stringLeavesOfItems items

/-- The strings at the leaves of the members of an object. -/
def stringLeavesOfMembers : List (Text × Json) → List Text
  | [] => []
  | (_, value) :: members => stringLeaves value ++ stringLeavesOfMembers members

end

mutual

/-- The strings and numbers at the leaves of a value, as texts. -/
def scalarLeaves : Json → List Text
  | .str text => [text]
  | .num value => [value.text]
  | .array items => scalarLeavesOfItems items
  | .object members => scalarLeavesOfMembers members
  | _ => []

/-- The strings and numbers at the leaves of the items of a list. -/
def scalarLeavesOfItems : List Json → List Text
  | [] => []
  | item :: items => scalarLeaves item ++ scalarLeavesOfItems items

/-- The strings and numbers at the leaves of the members of an object. -/
def scalarLeavesOfMembers : List (Text × Json) → List Text
  | [] => []
  | (_, value) :: members => scalarLeaves value ++ scalarLeavesOfMembers members

end

/-- The leaves of a token document. -/
structure DesignTokens where
  /-- The colors of each mode, in the order of the names of the modes. -/
  modes : List (Text × List Text)
  /-- The distances. -/
  spacing : List Text
  /-- The border radii. -/
  radii : List Text
  deriving DecidableEq, Repr

/-- Why a text is no token document. -/
inductive TokenError where
  /-- It is not JSON. -/
  | notJson (error : Json.Error)
  /-- It is JSON but no object. -/
  | notObject
  deriving DecidableEq, Repr

/-- The message for an error in a token document. -/
def TokenError.message (text : Text) : TokenError → Text
  | .notJson error => error.message text
  | .notObject => "token document root must be an object"

namespace DesignTokens

/-- The leaves of a member, if there is one. -/
def leavesUnder (leaves : Json → List Text) (value : Option Json) : List Text :=
  (value.map leaves).getD []

/-- The colors of each mode, given the member that holds the modes. -/
def modesOf : Option Json → List (Text × List Text)
  | some (.object members) =>
      members.foldl
        (fun modes (name, body) =>
          Json.insertMember (Text.lower name) (leavesUnder stringLeaves (body.member? "colors"))
            modes)
        []
  | _ => []

/-- The leaves of a document. -/
def ofJson? (document : Json) : Except TokenError DesignTokens :=
  match document with
  | .object _ =>
      .ok
        { modes := modesOf (document.member? "modes")
          spacing := leavesUnder scalarLeaves (document.member? "spacing")
          radii :=
            leavesUnder scalarLeaves (document.member? "effects" >>= Json.member? "radii") ++
              leavesUnder scalarLeaves (document.member? "radii") ++
              leavesUnder scalarLeaves (document.member? "borderRadius") }
  | _ => .error .notObject

/-- Reads a token document. -/
def read (text : Text) : Except TokenError DesignTokens :=
  match Json.read text with
  | .error error => .error (.notJson error)
  | .ok document => ofJson? document

/-- Whether a mode is looked at when tokens are read for a theme mode, or for all of them. -/
def isVisible (theme : Option Theme) (mode : Text) : Bool :=
  match theme with
  | none => true
  | some theme => mode = theme.name

/-- The colors of the modes that are looked at. -/
def colors (tokens : DesignTokens) (theme : Option Theme) : List Text :=
  (tokens.modes.filter fun entry => isVisible theme entry.1).flatMap Prod.snd

end DesignTokens

end LiteralAudit
