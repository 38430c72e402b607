import LiteralAudit.Proofs.Config.Reading
import LiteralAudit.Run
import Mathlib.Logic.Relator

/-!
# The settings in effect

An audit takes its settings from the command line, from one configuration file and from the
defaults, in this order for each setting (`Effective`).  The file is `World.configFile?`.  No other
file is looked at, so a fault in the chosen file is one whatever another file says.

There is always one configuration file at most, one document in it (`World.Configured.unique`), and
one configuration in effect (`effective_unique`).
-/

namespace LiteralAudit

open Toml ConfigFile ConfigReading

/-! ## The configuration file -/

namespace World

/-- The configuration file in the working directory. -/
def localConfig (world : World) : Path :=
  world.files.workingPath.under (.ofText ".literal-guard.toml")

/-- The configuration file in the directory of the user's settings. -/
def userConfig? (world : World) : Option Path :=
  world.user.settings?.map (·.under (.ofText "config.toml"))

/-- The configuration file of a run: none if none is wanted, else the given one, else the first
one that exists. -/
def configFile? (world : World) (line : CommandLine) (path : Option Path) : Option Path :=
  if line.noConfig then none
  else
    match path with
    | some path => some path
    | none =>
        if world.files.holds world.localConfig then some world.localConfig
        else world.userConfig?.filter world.files.holds

/-- A configuration is loaded from the file of the run, if there is one. -/
theorem loadConfig_eq (world : World) (line : CommandLine) (path : Option Path) :
    world.loadConfig line path =
      match world.configFile? line path with
      | none => .ok ⟨.default, none⟩
      | some file => world.configPlace.loadFile file := by
  have hcandidates : world.configPlace.candidates =
      world.localConfig :: world.userConfig?.toList := rfl
  have hholds : world.configPlace.holds = world.files.holds := rfl
  cases path with
  | some path =>
      rw [loadConfig, configFile?]
      split <;> rfl
  | none =>
      rw [loadConfig, configFile?]
      split
      · rfl
      · rw [ConfigPlace.load, hcandidates, hholds, List.find?_cons]
        cases world.files.holds world.localConfig with
        | true => rfl
        | false =>
            cases world.userConfig? with
            | none => rfl
            | some file => cases hfile : world.files.holds file <;> simp [hfile, Option.filter]

/-- The document that the configuration of a run is read from.  Without a file it is empty. -/
inductive Configured (world : World) (line : CommandLine) (path : Option Path) : Entries → Prop
  /-- There is no file. -/
  | nothing : world.configFile? line path = none → Configured world line path []
  /-- There is a file with a text that is a document. -/
  | document {file : Path} {text : Text} {document : Entries} :
      world.configFile? line path = some file → world.files.readText file = .ok text →
      Toml.read text = .ok document → Configured world line path document

/-- A run has one document at most. -/
theorem Configured.unique {world : World} {line : CommandLine} {path : Option Path}
    {document other : Entries} (h : Configured world line path document)
    (hother : Configured world line path other) : document = other := by
  cases h with
  | nothing hnone =>
      cases hother with
      | nothing => rfl
      | document hfile => cases hnone.symm.trans hfile
  | document hfile htext hread =>
      cases hother with
      | nothing hnone => cases hnone.symm.trans hfile
      | document hfile' htext' hread' =>
          cases hfile.symm.trans hfile'
          cases htext.symm.trans htext'
          cases hread.symm.trans hread'
          rfl

theorem Configured.orderly {world : World} {line : CommandLine} {path : Option Path}
    {document : Entries} (h : Configured world line path document) : document.Orderly := by
  cases h with
  | nothing => exact Entries.orderly_nil
  | document _ _ hread => exact orderly_read hread

end World

/-! ## Precedence -/

/-- A setting is what the command line says if it says something, else what the file says, else
its default. -/
def Overrides {β : Type} (given : Option β) (found : Option Node) (Is : Node → β → Prop)
    (default setting : β) : Prop :=
  match given with
  | some value => setting = value
  | none => Sets found Is default setting

/-- The settings that are in effect. -/
structure Effective (form : Form) (document : Entries) (request : AuditRequest) (config : Config) :
    Prop where
  /-- The names of directories that are not entered. -/
  excludeDirs : Sets (setting? form document ("scanner", scannerSettings) "exclude_dirs")
    Node.IsTexts Config.default.scanner.excludeDirs config.scanner.excludeDirs
  /-- The globs of what is left out: those of the file and then those of the command line. -/
  exclude : ∃ globs, Sets (setting? form document ("scanner", scannerSettings) "exclude")
    Node.IsTexts Config.default.scanner.exclude globs ∧
      config.scanner.exclude = globs ++ request.exclude
  /-- Whether ignore files are respected. -/
  gitignore : Sets (setting? form document ("scanner", scannerSettings) "gitignore")
    Node.IsFlag Config.default.scanner.gitignore config.scanner.gitignore
  /-- The extensions of the audited files. -/
  extensions : Overrides request.ext
    (setting? form document ("audit", auditSettings) "extensions")
    Node.IsTexts Config.default.audit.extensions config.audit.extensions
  /-- The token document. -/
  tokens : Overrides (request.tokens.map some)
    (setting? form document ("audit", auditSettings) "tokens")
    (Present Node.IsPath) Config.default.audit.tokens config.audit.tokens
  /-- The mode. -/
  mode : Overrides (request.mode.map some)
    (setting? form document ("audit", auditSettings) "mode")
    (Present Node.IsMode) Config.default.audit.mode config.audit.mode
  /-- How many entries are listed. -/
  maxListed : Overrides request.maxListed
    (setting? form document ("audit", auditSettings) "max_listed")
    Node.IsCount Config.default.audit.maxListed config.audit.maxListed
  /-- The extensions of the checked files. -/
  yamlExtensions : Sets (setting? form document ("yaml", yamlSettings) "extensions")
    Node.IsTexts Config.default.yaml.extensions config.yaml.extensions

section

variable {β : Type} {given : Option β} {found : Option Node} {Is : Node → β → Prop}
  {default setting other : β}

theorem overrides_getD (h : Sets found Is default setting) :
    Overrides given found Is default (given.getD setting) := by
  cases given with
  | none => exact h
  | some value => exact rfl

theorem overrides_orElse {given : Option β} {Is : Node → Option β → Prop}
    {default setting : Option β} (h : Sets found Is default setting) :
    Overrides (given.map some) found Is default (given <|> setting) := by
  cases given with
  | none => exact h
  | some value => exact rfl

/-- What a reader gives is determined by the value that it reads. -/
theorem rightUnique_of_read {read : Node → Except Fault β}
    (hread : ∀ node value, read node = .ok value ↔ Is node value) : Relator.RightUnique Is :=
  fun node value other hvalue hother =>
    Except.ok.inj (((hread node value).mpr hvalue).symm.trans ((hread node other).mpr hother))

theorem rightUnique_isTexts : Relator.RightUnique Node.IsTexts :=
  rightUnique_of_read fun _ _ => readTexts_eq_ok

theorem rightUnique_isFlag : Relator.RightUnique Node.IsFlag :=
  rightUnique_of_read fun _ _ => readBool_eq_ok

theorem rightUnique_isPath : Relator.RightUnique Node.IsPath :=
  rightUnique_of_read fun _ _ => readPath_eq_ok

theorem rightUnique_isMode : Relator.RightUnique Node.IsMode :=
  rightUnique_of_read fun _ _ => readMode_eq_ok

theorem rightUnique_isCount : Relator.RightUnique Node.IsCount :=
  rightUnique_of_read fun _ _ => readNatural_eq_ok

theorem rightUnique_present (his : Relator.RightUnique Is) :
    Relator.RightUnique (Present Is) := by
  rintro node _ _ ⟨value, rfl, hvalue⟩ ⟨other, rfl, hother⟩
  rw [his hvalue hother]

theorem sets_unique (his : Relator.RightUnique Is) (h : Sets found Is default setting)
    (hother : Sets found Is default other) : setting = other := by
  cases found with
  | none => exact Eq.trans h (Eq.symm hother)
  | some node => exact his h hother

/-- A setting is determined by what the command line and the file say. -/
theorem overrides_unique (his : Relator.RightUnique Is)
    (h : Overrides given found Is default setting)
    (hother : Overrides given found Is default other) : setting = other := by
  cases given with
  | none => exact sets_unique his h hother
  | some value => exact Eq.trans h (Eq.symm hother)

end

section

variable {form : Form} {document : Entries} {config other : Config}

/-- The command line overrides what a file gives. -/
theorem effective_override (request : AuditRequest) (h : Gives form document config) :
    Effective form document request (request.override config) where
  excludeDirs := h.excludeDirs
  exclude := ⟨config.scanner.exclude, h.exclude, rfl⟩
  gitignore := h.gitignore
  extensions := overrides_getD h.extensions
  tokens := overrides_orElse h.tokens
  mode := overrides_orElse h.mode
  maxListed := overrides_getD h.maxListed
  yamlExtensions := h.yamlExtensions

theorem config_ext (hdirs : config.scanner.excludeDirs = other.scanner.excludeDirs)
    (hexclude : config.scanner.exclude = other.scanner.exclude)
    (hgitignore : config.scanner.gitignore = other.scanner.gitignore)
    (hextensions : config.audit.extensions = other.audit.extensions)
    (htokens : config.audit.tokens = other.audit.tokens)
    (hmode : config.audit.mode = other.audit.mode)
    (hlisted : config.audit.maxListed = other.audit.maxListed)
    (hyaml : config.yaml.extensions = other.yaml.extensions) : config = other := by
  obtain ⟨⟨_, _, _⟩, ⟨_, _, _, _⟩, ⟨_⟩⟩ := config
  obtain ⟨⟨_, _, _⟩, ⟨_, _, _, _⟩, ⟨_⟩⟩ := other
  simp_all

/-- A document gives one configuration at most. -/
theorem gives_unique (h : Gives form document config) (hother : Gives form document other) :
    config = other :=
  config_ext (sets_unique rightUnique_isTexts h.excludeDirs hother.excludeDirs)
    (sets_unique rightUnique_isTexts h.exclude hother.exclude)
    (sets_unique rightUnique_isFlag h.gitignore hother.gitignore)
    (sets_unique rightUnique_isTexts h.extensions hother.extensions)
    (sets_unique (rightUnique_present rightUnique_isPath) h.tokens hother.tokens)
    (sets_unique (rightUnique_present rightUnique_isMode) h.mode hother.mode)
    (sets_unique rightUnique_isCount h.maxListed hother.maxListed)
    (sets_unique rightUnique_isTexts h.yamlExtensions hother.yamlExtensions)

/-- No two configurations are in effect. -/
theorem effective_unique {request : AuditRequest} (h : Effective form document request config)
    (hother : Effective form document request other) : config = other := by
  have hexclude : config.scanner.exclude = other.scanner.exclude := by
    obtain ⟨globs, hglobs, hconfig⟩ := h.exclude
    obtain ⟨globs', hglobs', hconfig'⟩ := hother.exclude
    rw [hconfig, hconfig', sets_unique rightUnique_isTexts hglobs hglobs']
  exact config_ext (sets_unique rightUnique_isTexts h.excludeDirs hother.excludeDirs) hexclude
    (sets_unique rightUnique_isFlag h.gitignore hother.gitignore)
    (overrides_unique rightUnique_isTexts h.extensions hother.extensions)
    (overrides_unique (rightUnique_present rightUnique_isPath) h.tokens hother.tokens)
    (overrides_unique (rightUnique_present rightUnique_isMode) h.mode hother.mode)
    (overrides_unique rightUnique_isCount h.maxListed hother.maxListed)
    (sets_unique rightUnique_isTexts h.yamlExtensions hother.yamlExtensions)

end

end LiteralAudit
