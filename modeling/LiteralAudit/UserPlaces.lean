import LiteralAudit.Path

/-!
# The places of the user

The user's own files are in the home directory, and those with settings in a directory `.config`
there, unless a variable of the environment names another directory for settings.

What the variable says is taken in two ways.  The settings of this program take an absolute path
only, and none are looked for without a home directory.  Those of the version control take any path
but the empty one.
-/

namespace LiteralAudit

/-- Where the user's own files are. -/
structure UserPlaces where
  /-- The home directory. -/
  home : Option Path
  /-- What the variable for the directory of settings says, if it is set. -/
  configHome : Option Path

/-- A home directory stands for places of which the variable says nothing. -/
instance : Coe (Option Path) UserPlaces := ⟨fun home => ⟨home, none⟩⟩

namespace UserPlaces

/-- Nothing is known of the user. -/
def unknown : UserPlaces := ⟨none, none⟩

/-- The usual directory for settings. -/
def usualConfigHome (home : Path) : Path := home.under (.ofText ".config")

/-- The directory of this program's settings. -/
def settings? (places : UserPlaces) : Option Path :=
  places.home.map fun home =>
    ((places.configHome.filter Path.isAbsolute).getD (usualConfigHome home)).under
      (.ofText "literal-guard")

/-- The directory of settings for the version control. -/
def versionControl? (places : UserPlaces) : Option Path :=
  places.configHome.filter (fun path => !path.bytes.isEmpty) <|> places.home.map usualConfigHome

end UserPlaces

end LiteralAudit
