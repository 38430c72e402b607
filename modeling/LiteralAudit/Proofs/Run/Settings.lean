import LiteralAudit.Proofs.Config.Sensible
import LiteralAudit.Proofs.Glob.Nested
import LiteralAudit.Proofs.Run.Effective
import LiteralAudit.Proofs.Run.Exit
import LiteralAudit.Proofs.Text.Utf8

/-!
# Settling the settings of an audit

There are six things that keep the settings of an audit from being settled (`Unsettled`), and then
the run stops before it scans anything (`Stops`).  Otherwise it goes on with the settings that are
in effect (`run_settles`).

Five of them are faults of a file or of a single setting.  The sixth is that globs which are all
well formed are refused together.  This is only found out when the scanner is made, behind the token
document.  So what is said before such a run stops depends on the token document, and on nothing
else in the world.
-/

namespace LiteralAudit

open Toml ConfigFile ConfigReading

/-! ## What keeps settings from being settled -/

/-- What keeps the settings of a run from being settled.  The form says what a section may be, and
the limit which globs are refused. -/
inductive Unsettled (form : Form) (limit : GlobLimit) (world : World) (line : CommandLine)
    (request : AuditRequest) : Prop
  /-- The file cannot be read. -/
  | unreadable {file : Path} {fault : IoFault} :
      world.configFile? line request.config = some file →
      world.files.readText file = .error fault → Unsettled form limit world line request
  /-- The text of the file is no document. -/
  | malformed {file : Path} {text : Text} {fault : Fault} :
      world.configFile? line request.config = some file →
      world.files.readText file = .ok text → Toml.read text = .error fault →
      Unsettled form limit world line request
  /-- The document has an unknown key or a value of a wrong kind. -/
  | misfits {document : Entries} : world.Configured line request.config document →
      Misfits form document → Unsettled form limit world line request
  /-- What the document gives is not sensible, whatever the command line says. -/
  | senselessFile {document : Entries} {config : Config} :
      world.Configured line request.config document → Gives form document config →
      ¬config.Sensible → Unsettled form limit world line request
  /-- What is in effect is not sensible. -/
  | senseless {document : Entries} {config : Config} :
      world.Configured line request.config document → Effective form document request config →
      ¬config.Sensible → Unsettled form limit world line request
  /-- The globs in effect are refused together. -/
  | refused {document : Entries} {config : Config} :
      world.Configured line request.config document → Effective form document request config →
      config.Refused limit → Unsettled form limit world line request

namespace World

/-- Two worlds have the same configuration file, with the same text, and the same globs are refused
in both. -/
structure SameSettings (world other : World) (line : CommandLine) (path : Option Path) : Prop where
  /-- The file is the same. -/
  file : other.configFile? line path = world.configFile? line path
  /-- So is what is read from it. -/
  read : ∀ file, world.configFile? line path = some file →
    other.files.readText file = world.files.readText file
  /-- So is what is said of globs. -/
  globLimit : other.globLimit = world.globLimit

theorem SameSettings.refl (world : World) (line : CommandLine) (path : Option Path) :
    world.SameSettings world line path :=
  ⟨rfl, fun _ _ => rfl, rfl⟩

/-- Two worlds have the same token document, if the settings in effect are sensible and name one. -/
def SameTokens (world other : World) (line : CommandLine) (request : AuditRequest) : Prop :=
  ∀ document config, world.Configured line request.config document →
    Effective .tableOrArray document request config → config.Sensible →
      ∀ path, config.audit.tokens = some path →
        other.files.readText path = world.files.readText path

end World

/-- An audit fails, and its run ends with two, prints no report and changes no file. -/
structure StopsWith (world : World) (line : CommandLine) (request : AuditRequest)
    (failure : Failure) : Prop where
  /-- The command fails. -/
  fails : ({ line with command := .audit request }.steps world).2 = .error failure
  /-- So the run does. -/
  run : { line with command := .audit request }.run world =
    ⟨2, [], ({ line with command := .audit request }.steps world).1 ++ [failure.notice],
      world.files⟩

/-- A run stops for its settings.  The command fails in the same way whatever else there is in the
world, so nothing was scanned yet.  What is said before depends on the token document at most. -/
def Stops (world : World) (line : CommandLine) (request : AuditRequest) : Prop :=
  ∃ failure : Failure, failure.kind ∈ Failure.settingKinds ∧
    ∀ other : World, world.SameSettings other line request.config →
      StopsWith other line request failure ∧
        (world.SameTokens other line request →
          ({ line with command := .audit request }.steps other).1 =
            ({ line with command := .audit request }.steps world).1)

/-- A run goes on with its settings. -/
structure Settles (form : Form) (world : World) (line : CommandLine) (request : AuditRequest)
    (config : Config) : Prop where
  /-- They are the ones in effect. -/
  effective : ∃ document, world.Configured line request.config document ∧
    ∀ other, Effective form document request other ↔ other = config
  /-- They are sensible. -/
  sensible : config.Sensible
  /-- Their globs are not refused. -/
  matched : ¬config.Refused world.globLimit
  /-- The run goes on with them. -/
  continues : ∃ notices, { line with command := .audit request }.steps world =
    Steps.after notices
      (AuditRun.runWith world { line with command := .audit request } request config)
  /-- What keeps the command from its end is something else. -/
  fails : ∀ failure : Failure,
    ({ line with command := .audit request }.steps world).2 = .error failure →
      failure.kind ∉ Failure.settingKinds

/-! ## Loading -/

section

variable {world : World} {line : CommandLine} {path : Option Path} {loaded : LoadedConfig}

theorem loadFile_eq (place : ConfigPlace) (file : Path) :
    place.loadFile file =
      match place.read file with
      | .error fault => .error (.unreadable file fault)
      | .ok text =>
          match Toml.read text >>= Config.ofEntries with
          | .error fault => .error (.configuration (file.display ++ ": " ++ fault.message text))
          | .ok config => config.check.map fun _ => ⟨config, some file⟩ := rfl

/-- A configuration is loaded from the document of a run, and it is sensible. -/
theorem loadConfig_eq_ok (hloaded : world.loadConfig line path = .ok loaded) :
    ∃ document, world.Configured line path document ∧
      Config.ofEntries document = .ok loaded.config ∧ loaded.config.Sensible := by
  rw [World.loadConfig_eq] at hloaded
  split at hloaded
  · next hnone =>
      cases hloaded
      exact ⟨[], .nothing hnone, rfl, Config.sensible_default⟩
  · next file hfile =>
      rw [loadFile_eq] at hloaded
      split at hloaded
      · cases hloaded
      · next text htext =>
          split at hloaded
          · cases hloaded
          · next config hconfig =>
              obtain ⟨document, hread, hconfig⟩ := bind_eq_ok.mp hconfig
              obtain ⟨⟨⟩, hcheck, rfl⟩ := map_eq_ok.mp hloaded
              exact ⟨document, .document hfile htext hread, hconfig, Config.check_eq_ok.mp hcheck⟩

theorem unsettled_of_ofEntries {request : AuditRequest} {document : Entries} {fault : Fault}
    (hconfigured : world.Configured line request.config document)
    (hfault : Config.ofEntries document = .error fault) :
    Unsettled .tableOrArray world.globLimit world line request := by
  refine .misfits hconfigured ?_
  by_contra hfits
  obtain ⟨config, hconfig⟩ := ofEntries_succeeds.mpr hfits
  cases hconfig.symm.trans hfault

/-- A configuration that is refused leaves the settings of the file senseless. -/
theorem unsettled_of_check {request : AuditRequest} {document : Entries} {config : Config}
    {failure : Failure} (hconfigured : world.Configured line request.config document)
    (hconfig : Config.ofEntries document = .ok config) (hcheck : config.check = .error failure) :
    Unsettled .tableOrArray world.globLimit world line request :=
  .senselessFile hconfigured (gives_ofEntries hconfigured.orderly hconfig)
    (Config.not_sensible_of_check hcheck)

/-- A configuration that cannot be loaded leaves the settings unsettled, and the failure is of a
kind that concerns them. -/
theorem unsettled_of_loadConfig {request : AuditRequest} {failure : Failure}
    (hfailure : world.loadConfig line request.config = .error failure) :
    failure.kind ∈ Failure.settingKinds ∧
      Unsettled .tableOrArray world.globLimit world line request := by
  rw [World.loadConfig_eq] at hfailure
  split at hfailure
  · cases hfailure
  · next file hfile =>
      rw [loadFile_eq] at hfailure
      split at hfailure
      · next fault hfault =>
          cases hfailure
          exact ⟨.tail _ (.head _), .unreadable hfile hfault⟩
      · next text htext =>
          cases hread : Toml.read text with
          | error fault =>
              rw [hread] at hfailure
              cases hfailure
              exact ⟨.head _, .malformed hfile htext hread⟩
          | ok document =>
              have hconfigured := World.Configured.document hfile htext hread
              rw [hread] at hfailure
              split at hfailure
              · next fault hfault =>
                  cases hfailure
                  exact ⟨.head _, unsettled_of_ofEntries hconfigured hfault⟩
              · next config hconfig =>
                  cases hcheck : config.check with
                  | ok =>
                      rw [hcheck] at hfailure
                      cases hfailure
                  | error other =>
                      rw [hcheck] at hfailure
                      cases hfailure
                      exact ⟨Config.kind_of_check hcheck,
                        unsettled_of_check hconfigured hconfig hcheck⟩

/-- What is loaded depends on the configuration file alone. -/
theorem loadConfig_congr {other : World} (hsame : world.SameSettings other line path) :
    other.loadConfig line path = world.loadConfig line path := by
  rw [World.loadConfig_eq, World.loadConfig_eq, hsame.file]
  split
  · rfl
  · next file hfile =>
      have hread : other.configPlace.read file = world.configPlace.read file :=
        hsame.read file hfile
      rw [loadFile_eq, loadFile_eq, hread]

end

/-! ## Running -/

section

variable {world : World} {line : CommandLine} {failure : Failure}

/-- A root that cannot be scanned is no failure of the settings. -/
theorem kind_of_paths {scanner : Scanner} {root : Path}
    (h : AuditRun.paths world scanner root = .error failure) :
    failure.kind ∉ Failure.settingKinds := by
  unfold AuditRun.paths at h
  split at h
  · cases h
  · cases h
  · cases h
    exact show "Input".toList ∉ Failure.settingKinds by decide

theorem kind_of_report {format : ReportFormat} {config : AuditConfig} {allowed : AllowedValues}
    {summary : Summary}
    (h : AuditRun.report world line format config allowed summary = .error failure) :
    failure.kind ∉ Failure.settingKinds := by
  cases format with
  | text => cases h
  | json =>
      rw [AuditRun.report] at h
      unfold World.orUnwritable at h
      split at h
      · cases h
      · cases h
        exact show "Serialization".toList ∉ Failure.settingKinds by decide

/-- A scanner is made from sensible settings whose globs are not refused. -/
theorem exists_scanner {config : Config} (hsensible : config.Sensible)
    (hmatched : ¬config.Refused world.globLimit) :
    ∃ scanner, world.scanner config.scanner config.audit.extensions = .ok scanner := by
  obtain ⟨globs, hglobs⟩ := FileFilter.readGlobs_succeeds.mpr hsensible.exclude
  have hall := FileFilter.readGlobs_eq_ok.mp hglobs
  have hnone : world.globLimit globs = none := by
    cases hlimit : world.globLimit globs with
    | none => rfl
    | some reason => exact absurd ⟨globs, reason, hall, hlimit⟩ hmatched
  exact ⟨_, map_eq_ok.mpr ⟨_, FileFilter.ofLists_eq_ok.mpr ⟨globs, hall, hnone, rfl⟩, rfl⟩⟩

/-- No scanner is made if the globs are refused together. -/
theorem scanner_of_refused {config : Config} {globs : List Glob} {reason : Text}
    (hglobs : FileFilter.AreGlobs config.scanner.exclude globs)
    (hlimit : world.globLimit globs = some reason) :
    world.scanner config.scanner config.audit.extensions = .error (.refusedGlobs reason) := by
  rw [World.scanner, FileFilter.ofLists_of_refused hglobs hlimit]
  rfl

/-- Sensible settings whose globs are not refused are no reason to fail. -/
theorem kind_of_runWith {request : AuditRequest} {config : Config} (hsensible : config.Sensible)
    (hmatched : ¬config.Refused world.globLimit)
    (h : (AuditRun.runWith world line request config).2 = .error failure) :
    failure.kind ∉ Failure.settingKinds := by
  rw [AuditRun.runWith] at h
  rcases Steps.snd_onSuccess_eq_error.mp h with hcheck | ⟨-, -, h⟩
  · cases (Config.check_eq_ok.mpr hsensible).symm.trans hcheck
  rw [Steps.snd_after] at h
  -- the scanner reads the globs a second time
  rcases Steps.snd_onSuccess_eq_error.mp h with hfailure | ⟨scanner, -, h⟩
  · obtain ⟨scanner, hscanner⟩ := exists_scanner hsensible hmatched
    cases hscanner.symm.trans hfailure
  rw [Steps.snd_after] at h
  rcases Steps.snd_onSuccess_eq_error.mp h with hpaths | ⟨paths, -, h⟩
  · exact kind_of_paths hpaths
  rw [Steps.snd_after] at h
  rcases Steps.snd_onSuccess_eq_error.mp h with hreport | ⟨report, -, h⟩
  · exact kind_of_report hreport
  · cases h

end

section

variable {world : World} {line : CommandLine} {request : AuditRequest}

theorem run_of_steps {notices : List Notice} {failure : Failure}
    (h : line.steps world = (notices, .error failure)) :
    line.run world = ⟨2, [], notices ++ [failure.notice], world.files⟩ := by
  rw [CommandLine.run, h]
  rfl

/-- A run is settled if its file is loaded, and its settings are sensible then and not refused. -/
theorem not_unsettled {limit : GlobLimit} {document : Entries} {config : Config}
    (hconfigured : world.Configured line request.config document)
    (hconfig : Config.ofEntries document = .ok config) (hfile : config.Sensible)
    (hsensible : (request.override config).Sensible)
    (hmatched : ¬(request.override config).Refused limit) :
    ¬Unsettled .tableOrArray limit world line request := by
  have hgives := gives_ofEntries hconfigured.orderly hconfig
  -- there is one chosen file, one document in it, and one configuration that it gives
  intro h
  cases h with
  | unreadable hchosen hfault =>
      cases hconfigured with
      | nothing hnone => cases hnone.symm.trans hchosen
      | document hchosen' htext =>
          cases hchosen'.symm.trans hchosen
          cases htext.symm.trans hfault
  | malformed hchosen htext hfault =>
      cases hconfigured with
      | nothing hnone => cases hnone.symm.trans hchosen
      | document hchosen' htext' hread =>
          cases hchosen'.symm.trans hchosen
          cases htext'.symm.trans htext
          cases hread.symm.trans hfault
  | misfits hother hmisfits =>
      obtain rfl := hconfigured.unique hother
      exact ofEntries_succeeds.mp ⟨config, hconfig⟩ hmisfits
  | senselessFile hother hgives' hnot =>
      obtain rfl := hconfigured.unique hother
      obtain rfl := gives_unique hgives hgives'
      exact hnot hfile
  | senseless hother heffective hnot =>
      obtain rfl := hconfigured.unique hother
      obtain rfl := effective_unique (effective_override request hgives) heffective
      exact hnot hsensible
  | refused hother heffective hrefused =>
      obtain rfl := hconfigured.unique hother
      obtain rfl := effective_unique (effective_override request hgives) heffective
      exact hmatched hrefused

/-- A command that fails ends with exit code 2, and says nothing but its notices. -/
theorem stopsWith_of_steps {notices : List Notice} {failure : Failure}
    (h : { line with command := .audit request }.steps world = (notices, .error failure)) :
    StopsWith world line request failure := by
  refine ⟨by rw [h], ?_⟩
  rw [run_of_steps h, h]

/-- Without a configuration nothing is said before the run stops. -/
theorem stops_of_loadConfig {failure : Failure}
    (hfailure : world.loadConfig line request.config = .error failure) :
    Stops world line request := by
  have hsteps : ∀ other, world.SameSettings other line request.config →
      { line with command := .audit request }.steps other = ([], .error failure) := by
    intro other hsame
    change Steps.onSuccess (other.loadConfig line request.config) _ = _
    rw [loadConfig_congr hsame, hfailure]
    rfl
  refine ⟨failure, (unsettled_of_loadConfig hfailure).1, fun other hsame => ?_⟩
  refine ⟨stopsWith_of_steps (hsteps other hsame), fun _ => ?_⟩
  rw [hsteps other hsame, hsteps world (.refl world line request.config)]

theorem steps_of_loadConfig {loaded : LoadedConfig}
    (hloaded : world.loadConfig line request.config = .ok loaded) :
    { line with command := .audit request }.steps world =
      Steps.after (World.configNotices line loaded)
        (AuditRun.runWith world { line with command := .audit request } request
          (request.override loaded.config)) := by
  change Steps.onSuccess (world.loadConfig line request.config) _ = _
  rw [hloaded]
  rfl

/-- What the command line makes of a file may still be refused. -/
theorem stops_of_check {loaded : LoadedConfig} {failure : Failure}
    (hloaded : world.loadConfig line request.config = .ok loaded)
    (hcheck : (request.override loaded.config).check = .error failure) :
    Stops world line request := by
  have hsteps : ∀ other, world.SameSettings other line request.config →
      { line with command := .audit request }.steps other =
        (World.configNotices line loaded ++ [], .error failure) := by
    intro other hsame
    rw [steps_of_loadConfig ((loadConfig_congr hsame).trans hloaded), AuditRun.runWith, hcheck]
    rfl
  refine ⟨failure, Config.kind_of_check hcheck, fun other hsame => ?_⟩
  refine ⟨stopsWith_of_steps (hsteps other hsame), fun _ => ?_⟩
  rw [hsteps other hsame, hsteps world (.refl world line request.config)]

/-- What is said of a token document depends on its text alone. -/
theorem allowedValues_congr {other : World} {config : AuditConfig}
    (hsame : ∀ path, config.tokens = some path →
      other.files.readText path = world.files.readText path) :
    AuditRun.allowedValues other line config = AuditRun.allowedValues world line config := by
  rw [AuditRun.allowedValues, AuditRun.allowedValues]
  cases htokens : config.tokens with
  | none => rfl
  | some path =>
      dsimp only
      rw [AuditRun.readTokens, AuditRun.readTokens, hsame path htokens]

/-- If its globs are refused, an audit stops behind the token document. -/
theorem runWith_of_refused {config : Config} {globs : List Glob} {reason : Text}
    (hsensible : config.Sensible) (hglobs : FileFilter.AreGlobs config.scanner.exclude globs)
    (hlimit : world.globLimit globs = some reason) :
    AuditRun.runWith world line request config =
      ((AuditRun.allowedValues world line config.audit).2 ++ [],
        .error (.refusedGlobs reason)) := by
  rw [AuditRun.runWith, Config.check_eq_ok.mpr hsensible, scanner_of_refused hglobs hlimit]
  rfl

/-- Refused globs stop a run, behind what there is to say about its token document. -/
theorem stops_of_refused {loaded : LoadedConfig} {document : Entries}
    (hloaded : world.loadConfig line request.config = .ok loaded)
    (hconfigured : world.Configured line request.config document)
    (heffective : Effective .tableOrArray document request (request.override loaded.config))
    (hsensible : (request.override loaded.config).Sensible)
    (hrefused : (request.override loaded.config).Refused world.globLimit) :
    Stops world line request := by
  obtain ⟨globs, reason, hglobs, hlimit⟩ := hrefused
  have hsteps : ∀ other, world.SameSettings other line request.config →
      { line with command := .audit request }.steps other =
        (World.configNotices line loaded ++
          ((AuditRun.allowedValues other { line with command := .audit request }
            (request.override loaded.config).audit).2 ++ []), .error (.refusedGlobs reason)) := by
    intro other hsame
    rw [steps_of_loadConfig ((loadConfig_congr hsame).trans hloaded),
      runWith_of_refused hsensible hglobs (hsame.globLimit ▸ hlimit)]
    rfl
  refine ⟨.refusedGlobs reason, .tail _ (.tail _ (.head _)), fun other hsame => ?_⟩
  refine ⟨stopsWith_of_steps (hsteps other hsame), fun htokens => ?_⟩
  rw [hsteps other hsame, hsteps world (.refl world line request.config),
    allowedValues_congr (htokens document _ hconfigured heffective hsensible)]

/-- The run goes on with the settings in effect if they pass and their globs are not refused. -/
theorem settles_of_sensible {loaded : LoadedConfig} {document : Entries}
    (hloaded : world.loadConfig line request.config = .ok loaded)
    (hconfigured : world.Configured line request.config document)
    (heffective : Effective .tableOrArray document request (request.override loaded.config))
    (hsensible : (request.override loaded.config).Sensible)
    (hmatched : ¬(request.override loaded.config).Refused world.globLimit) :
    Settles .tableOrArray world line request (request.override loaded.config) := by
  have hsteps := steps_of_loadConfig hloaded
  refine ⟨⟨document, hconfigured, fun other => ?_⟩, hsensible, hmatched, ⟨_, hsteps⟩,
    fun failure h => ?_⟩
  · constructor
    · exact fun hother => effective_unique hother heffective
    · rintro rfl
      exact heffective
  · rw [hsteps] at h
    exact kind_of_runWith hsensible hmatched h

/-- A run that goes on does not stop. -/
theorem Settles.not_stops {form : Form} {config : Config}
    (h : Settles form world line request config) : ¬Stops world line request := by
  rintro ⟨failure, hkind, hall⟩
  obtain ⟨hstops, -⟩ := hall world (.refl world line request.config)
  exact h.fails failure hstops.fails hkind

/-- Each run does one of the two. -/
theorem stops_or_settles (world : World) (line : CommandLine) (request : AuditRequest) :
    Unsettled .tableOrArray world.globLimit world line request ∧ Stops world line request ∨
      ¬Unsettled .tableOrArray world.globLimit world line request ∧
        ∃ config, Settles .tableOrArray world line request config := by
  cases hloaded : world.loadConfig line request.config with
  | error failure => exact .inl ⟨(unsettled_of_loadConfig hloaded).2, stops_of_loadConfig hloaded⟩
  | ok loaded =>
      obtain ⟨document, hconfigured, hconfig, hfile⟩ := loadConfig_eq_ok hloaded
      have heffective := effective_override request (gives_ofEntries hconfigured.orderly hconfig)
      cases hcheck : (request.override loaded.config).check with
      | error failure =>
          have hnot := Config.not_sensible_of_check hcheck
          exact .inl ⟨.senseless hconfigured heffective hnot, stops_of_check hloaded hcheck⟩
      | ok =>
          have hsensible := Config.check_eq_ok.mp hcheck
          by_cases hrefused : (request.override loaded.config).Refused world.globLimit
          · exact .inl ⟨.refused hconfigured heffective hrefused,
              stops_of_refused hloaded hconfigured heffective hsensible hrefused⟩
          · exact .inr ⟨not_unsettled hconfigured hconfig hfile hsensible hrefused, _,
              settles_of_sensible hloaded hconfigured heffective hsensible hrefused⟩

end

/-- A text without quotes, backslashes and control characters stands for itself. -/
theorem Toml.Quoted.unescape_plain {text : Text}
    (hplain : ∀ c ∈ text, c ≠ '\\' ∧ (isControl c || c = '"') = false) (offset : Nat) :
    unescape offset text = .ok text := by
  induction text generalizing offset with
  | nil => rw [unescape]
  | cons c rest ih =>
      obtain ⟨hslash, hallowed⟩ := hplain c List.mem_cons_self
      rw [unescape, if_neg hslash, hallowed, ih fun d hmem => hplain d (.tail _ hmem)]
      rfl

/-- A configuration file with an array for a section. -/
def listedText : Text := "audit = [[\"css\"]]\n"

/-- The document of this file. -/
def listedDocument : Entries :=
  [("audit", ⟨0, 5⟩, .array [.array [.scalar (.text "css") ⟨10, 15⟩] ⟨9, 16⟩] ⟨8, 17⟩)]

/-- The value of its pair, as it is written. -/
def listedValue : RawValue := .array [.array [.scalar ⟨.basic, "\"css\"", 10⟩] ⟨9, 16⟩] ⟨8, 17⟩

theorem read_listedText : Toml.read listedText = .ok listedDocument := by
  have htokens : Token.ofText listedText =
      [⟨.word .bare, "audit", 0⟩, ⟨.space, " ", 5⟩, ⟨.equals, "=", 6⟩, ⟨.space, " ", 7⟩,
        ⟨.openBracket, "[", 8⟩, ⟨.openBracket, "[", 9⟩, ⟨.word .basic, "\"css\"", 10⟩,
        ⟨.closeBracket, "]", 15⟩, ⟨.closeBracket, "]", 16⟩, ⟨.newline, "\n", 17⟩,
        ⟨.textEnd, [], 18⟩] := by decide +kernel
  have hstatements : Statement.ofText listedText =
      .ok [.pair [⟨.bare, "audit", 0⟩] listedValue] := by
    rw [Statement.ofText, htokens]
    rfl
  have hplain : ∀ c ∈ ("css" : Text), c ≠ '\\' ∧ (Quoted.isControl c || c = '"') = false := by
    simp [Quoted.isControl]
  have hscalar : Scalar.ofRaw ⟨.basic, "\"css\"", 10⟩ = .ok (.text "css") :=
    congrArg (Except.map Scalar.text) (Quoted.unescape_plain hplain 11)
  have hnode : Node.ofRaw listedValue =
      .ok (.array [.array [.scalar (.text "css") ⟨10, 15⟩] ⟨9, 16⟩] ⟨8, 17⟩) := by
    simp only [listedValue, Node.ofRaw, Node.ofItems, hscalar]
    rfl
  have hdraft : Draft.add ⟨[], []⟩ (.pair [⟨.bare, "audit", 0⟩] listedValue) =
      .ok ⟨listedDocument, []⟩ := by
    simp only [Draft.add, hnode]
    rfl
  exact bind_eq_ok.mpr ⟨_, hstatements, bind_eq_ok.mpr
    ⟨⟨listedDocument, []⟩, bind_eq_ok.mpr ⟨_, hdraft, rfl⟩, rfl⟩⟩

/-- What the file gives. -/
def listedConfig : Config :=
  { Config.default with audit := { AuditConfig.default with extensions := ["css"] } }

/-- A world with this file alone. -/
def listedWorld : World :=
  ⟨⟨.directory [(Text.Utf8.encode ".literal-guard.toml", .file (Text.Utf8.encode listedText))], []⟩,
    .bare, false, false⟩

/-- A request that says nothing but what to audit. -/
def bareRequest : AuditRequest := ⟨.ofText "src", none, none, none, none, [], .text, none, none⟩

/-- A command line with this request. -/
def bareLine : CommandLine := ⟨0, false, .auto, false, .audit bareRequest⟩

theorem configured_listedWorld : listedWorld.Configured bareLine none listedDocument := by
  have hfile : listedWorld.configFile? bareLine none = some listedWorld.localConfig := by cbv
  have hbytes : listedWorld.files.read listedWorld.localConfig =
      .ok (Text.Utf8.encode listedText) := by cbv
  have htext : listedWorld.files.readText listedWorld.localConfig = .ok listedText := by
    rw [FileSystem.readText, hbytes]
    simp only [Text.Utf8.decode?_eq_some.mpr rfl]
  exact .document hfile htext read_listedText

theorem settled_listedWorld :
    ¬Unsettled .tableOrArray .unlimited listedWorld bareLine bareRequest := by
  have hconfig : Config.ofEntries listedDocument = .ok listedConfig := rfl
  have hsensible : listedConfig.Sensible := by
    rw [← Config.check_eq_ok]
    rfl
  have hoverride : bareRequest.override listedConfig = listedConfig := rfl
  refine not_unsettled configured_listedWorld hconfig hsensible ?_ Config.not_refused_unlimited
  rw [hoverride]
  exact hsensible

theorem misfits_listedWorld : Unsettled .table .unlimited listedWorld bareLine bareRequest :=
  .misfits configured_listedWorld
    (.noSection (List.mem_singleton_self _) (.tail _ (.head _)) rfl)

/-! ## Globs that are refused -/

/-- A world where globs with many choices inside each other are refused. -/
def boundedWorld : World :=
  ⟨⟨.emptyDirectory, []⟩, ⟨.unknown, .ofDepth 250 "error parsing pattern 0"⟩, false, false⟩

/-- A request with such a glob. -/
def nestedRequest : AuditRequest := { bareRequest with exclude := [nestedText 300] }

/-- A command line with this request and no configuration. -/
def nestedLine : CommandLine := ⟨0, false, .auto, true, .audit nestedRequest⟩

theorem areGlobs_nestedRequest : FileFilter.AreGlobs
    (nestedRequest.override .default).scanner.exclude [nestedGlob 300] :=
  .cons (Glob.read_nested 300) .nil

/-- Each setting of the request passes. -/
theorem sensible_nestedRequest : (nestedRequest.override .default).Sensible where
  extensions := Config.sensible_default.extensions
  yamlExtensions := Config.sensible_default.yamlExtensions
  maxListed := Config.sensible_default.maxListed
  exclude := by
    rw [← FileFilter.readGlobs_succeeds]
    exact ⟨_, FileFilter.readGlobs_eq_ok.mpr areGlobs_nestedRequest⟩

theorem refused_nestedRequest :
    (nestedRequest.override .default).Refused boundedWorld.globLimit := by
  have hlimit : GlobLimit.ofDepth 250 "error parsing pattern 0" [nestedGlob 300] =
      some "error parsing pattern 0" := GlobLimit.ofDepth_nestedGlob (by decide) _
  exact ⟨_, _, areGlobs_nestedRequest, hlimit⟩

end LiteralAudit
