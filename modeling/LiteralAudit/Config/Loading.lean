import LiteralAudit.Config.Reading

/-!
# Loading configurations

A configuration is loaded from a file that is named, or else from the first file that exists of
two: one in the working directory and one in the directory of the user's settings.  If neither
exists, the defaults apply.
-/

namespace LiteralAudit

/-- What is known of the files while a configuration is looked for. -/
structure ConfigPlace where
  /-- The text of a file. -/
  read : Path → Except IoFault Text
  /-- Whether there is something at a path. -/
  holds : Path → Bool
  /-- The working directory. -/
  working : Option Path
  /-- The directory of the user's settings. -/
  settings : Option Path

/-- A configuration and the file that it was loaded from, if any. -/
structure LoadedConfig where
  /-- The configuration. -/
  config : Config
  /-- The file. -/
  source : Option Path
  deriving DecidableEq, Repr

namespace ConfigPlace

/-- The name of the file in the working directory. -/
def localName : Text := ".literal-guard.toml"

/-- The name of the file in the directory of settings. -/
def userName : Text := "config.toml"

/-- Loads the configuration of a file. -/
def loadFile (place : ConfigPlace) (path : Path) : Except Failure LoadedConfig :=
  match place.read path with
  | .error fault => .error (.unreadable path fault)
  | .ok text =>
      match Config.read text with
      | .error fault => .error (.configuration (path.display ++ ": " ++ fault.message text))
      | .ok config => config.check.map fun _ => ⟨config, some path⟩

/-- The files that are looked for, in their order. -/
def candidates (place : ConfigPlace) : List Path :=
  (place.working.map (·.under (Path.ofText localName))).toList ++
    (place.settings.map (·.under (Path.ofText userName))).toList

/-- Loads the configuration of the first file that exists. -/
def load (place : ConfigPlace) : Except Failure LoadedConfig :=
  match place.candidates.find? place.holds with
  | some path => place.loadFile path
  | none => .ok ⟨.default, none⟩

end ConfigPlace

end LiteralAudit
