import LiteralAudit.Proofs.Json.Nesting
import LiteralAudit.Proofs.Run.Effective
import LiteralAudit.Proofs.Run.Exit
import LiteralAudit.Proofs.Text.Utf8

/-!
# Token documents that cannot be used

A token document may fail to be read, to be a text, to be JSON, or to be an object (`IsUnusable`),
and any other is taken (`isUnusable_iff`).  One that cannot be used is as good as none: no value of
it is allowed, and a run reports what a run does that has the same settings but no token document
(`isIgnored_of_isUnusable`).  The notices differ, as one of them says what is wrong.

A run goes by its settings (`AuditRun.settings`), and of the token document it sees the allowed
values only (`AuditRun.snd_runWith_congr`).  So it is enough that these are the built-in ones.
-/

namespace LiteralAudit

/-! ## Unusable documents -/

/-- A token document cannot be used. -/
inductive IsUnusable (files : FileSystem) (path : Path) : Prop
  /-- It cannot be read, or there is none. -/
  | unread {fault : IoFault} : files.read path = .error fault → IsUnusable files path
  /-- Its bytes are those of no text. -/
  | noText {bytes : List UInt8} : files.read path = .ok bytes →
      (∀ text, bytes ≠ Text.Utf8.encode text) → IsUnusable files path
  /-- Its text is no JSON. -/
  | noJson {text : Text} {error : Json.Error} : files.read path = .ok (Text.Utf8.encode text) →
      Json.read text = .error error → IsUnusable files path
  /-- It has lists and objects inside each other up to the limit. -/
  | tooDeep {text : Text} : files.read path = .ok (Text.Utf8.encode text) →
      Json.depthLimit ≤ Json.nesting text → IsUnusable files path
  /-- It is JSON, but no object. -/
  | noObject {text : Text} {document : Json} : files.read path = .ok (Text.Utf8.encode text) →
      Json.read text = .ok document → (∀ members, document ≠ .object members) →
      IsUnusable files path

variable {files : FileSystem} {path : Path} {text : Text}

/-- A file is read as a text exactly if its bytes are those of the text. -/
theorem FileSystem.readText_eq_ok :
    files.readText path = .ok text ↔ files.read path = .ok (Text.Utf8.encode text) := by
  rw [readText]
  cases files.read path with
  | error fault => exact ⟨nofun, nofun⟩
  | ok bytes =>
      rw [Except.ok.injEq, ← Text.Utf8.decode?_eq_some]
      dsimp only
      cases Text.Utf8.decode? bytes with
      | none => exact ⟨nofun, nofun⟩
      | some found => rw [Except.ok.injEq, Option.some.injEq]

/-- Any object is a token document, and nothing else is. -/
theorem DesignTokens.read_succeeds_iff :
    (∃ tokens, read text = .ok tokens) ↔ ∃ members, Json.read text = .ok (.object members) := by
  rw [read]
  cases Json.read text with
  | error error => simp
  | ok document => cases document <;> simp [ofJson?]

/-- A token document is taken if it is a text, and the text an object. -/
theorem AuditRun.readTokens_succeeds_iff {mode : Option Theme} :
    (∃ allowed, readTokens files path mode = .ok allowed) ↔
      ∃ text members, files.read path = .ok (Text.Utf8.encode text) ∧
        Json.read text = .ok (.object members) := by
  simp only [← FileSystem.readText_eq_ok]
  rw [readTokens]
  cases files.readText path with
  | error fault => simp
  | ok text =>
      simp only [Except.ok.injEq, exists_and_left, exists_eq_left']
      rw [← DesignTokens.read_succeeds_iff]
      cases DesignTokens.read text with
      | error error => simp
      | ok tokens => simp

/-- The unusable documents are the others. -/
theorem isUnusable_iff : IsUnusable files path ↔
    ¬∃ text members, files.read path = .ok (Text.Utf8.encode text) ∧
      Json.read text = .ok (.object members) := by
  constructor
  · rintro h ⟨text, members, hread, hjson⟩
    have hsame : ∀ {other}, files.read path = .ok (Text.Utf8.encode other) → other = text := by
      intro other hother
      rw [← FileSystem.readText_eq_ok] at hread hother
      exact Except.ok.inj (hother.symm.trans hread)
    cases h with
    | unread hfault => cases hfault.symm.trans hread
    | noText hbytes hnot => exact hnot text (Except.ok.inj (hbytes.symm.trans hread))
    | noJson hother herror =>
        rw [hsame hother, hjson] at herror
        cases herror
    | tooDeep hother hdeep =>
        rw [hsame hother] at hdeep
        exact absurd (Json.nesting_lt_of_read hjson) (Nat.not_lt.mpr hdeep)
    | noObject hother hdocument hnot =>
        rw [hsame hother, hjson] at hdocument
        exact hnot members (Except.ok.inj hdocument).symm
  · intro h
    cases hread : files.read path with
    | error fault => exact .unread hread
    | ok bytes =>
        cases hdecode : Text.Utf8.decode? bytes with
        | none =>
            refine .noText hread fun text hbytes => ?_
            cases hdecode.symm.trans (Text.Utf8.decode?_eq_some.mpr hbytes)
        | some text =>
            rw [Text.Utf8.decode?_eq_some.mp hdecode] at hread
            cases hjson : Json.read text with
            | error error => exact .noJson hread hjson
            | ok document =>
                refine .noObject hread hjson fun members hobject => ?_
                subst hobject
                exact h ⟨text, members, hread, hjson⟩

/-- With an unusable document only the built-in values are allowed. -/
theorem AuditRun.allowedValues_of_isUnusable {world : World} (line : CommandLine)
    {config : AuditConfig} (hpath : config.tokens = some path) (h : IsUnusable world.files path) :
    (allowedValues world line config).1 = .builtIn := by
  rw [allowedValues, hpath]
  dsimp only
  cases htokens : readTokens world.files path config.mode with
  | error failure => rfl
  | ok allowed => exact absurd (readTokens_succeeds_iff.mp ⟨allowed, htokens⟩) (isUnusable_iff.mp h)

/-! ## Reports -/

/-- Two runs report the same.  They may give different notices. -/
structure RunResult.SameReport (result other : RunResult) : Prop where
  /-- They end with the same exit code. -/
  exitCode : result.exitCode = other.exitCode
  /-- They print the same report. -/
  output : result.output = other.output
  /-- They leave the same files behind, that of the report included. -/
  files : result.files = other.files

/-- What a run reports depends on what comes of its command. -/
theorem CommandLine.sameReport_of_steps {line other : CommandLine} {world : World}
    (hsteps : (line.steps world).2 = (other.steps world).2) (hquiet : line.quiet = other.quiet)
    (houtput : line.outputPath = other.outputPath) :
    (line.run world).SameReport (other.run world) := by
  have hdeliver : ∀ report, world.deliver line other.outputPath report =
      world.deliver other other.outputPath report := by
    intro report
    rw [World.deliver.eq_def, World.deliver.eq_def, hquiet]
  rw [run, run]
  dsimp only
  rw [hsteps, houtput]
  cases (other.steps world).2 with
  | error failure => exact ⟨rfl, rfl, rfl⟩
  | ok finished =>
      simp only [bind, Except.bind, hdeliver]
      cases world.deliver other other.outputPath finished.report with
      | error failure => exact ⟨rfl, rfl, rfl⟩
      | ok delivered => exact ⟨rfl, rfl, rfl⟩

/-! ## Runs without a token document -/

/-- The configuration without a token document. -/
def Config.withoutTokens (config : Config) : Config :=
  { config with audit := { config.audit with tokens := none } }

namespace AuditRun

/-- The settings of an audit. -/
def settings (world : World) (line : CommandLine) (request : AuditRequest) :
    Except Failure Config :=
  (world.loadConfig line request.config).map fun loaded => request.override loaded.config

/-- An audit has no token document, and is otherwise asked for what another one is asked for.  Where
its settings come from makes no difference. -/
structure IsBare (world : World) (line : CommandLine) (request : AuditRequest)
    (bareLine : CommandLine) (bare : AuditRequest) : Prop where
  /-- Its report is kept quiet if the other one is. -/
  quiet : bareLine.quiet = line.quiet
  /-- It is colored like the other one. -/
  color : bareLine.color = line.color
  /-- It audits the same file or directory. -/
  path : bare.path = request.path
  /-- Its report has the same format. -/
  format : bare.format = request.format
  /-- Its report goes to the same place. -/
  output : bare.output = request.output
  /-- Its settings are the same without the token document. -/
  settings : settings world bareLine bare = (settings world line request).map Config.withoutTokens

variable {world : World} {line bareLine : CommandLine} {request bare : AuditRequest}

theorem snd_run (world : World) (line : CommandLine) (request : AuditRequest) :
    (run world line request).2 =
      settings world line request >>= fun config => (runWith world line request config).2 := by
  rw [run, settings]
  cases world.loadConfig line request.config with
  | error failure => rfl
  | ok loaded => rfl

/-- Of a token document an audit sees the allowed values only. -/
theorem snd_runWith_congr {config : Config} (hcolor : bareLine.color = line.color)
    (hpath : bare.path = request.path) (hformat : bare.format = request.format)
    (hallowed : (allowedValues world line config.audit).1 = .builtIn) :
    (runWith world line request config).2 =
      (runWith world bareLine bare config.withoutTokens).2 := by
  have hnone : (allowedValues world bareLine config.withoutTokens.audit).1 = .builtIn := rfl
  have hreport : ∀ summary,
      report world bareLine bare.format config.withoutTokens.audit .builtIn summary =
        report world line request.format config.audit .builtIn summary := by
    intro summary
    rw [report.eq_def, report.eq_def, hformat, hcolor]
    rfl
  simp only [runWith, Steps.snd_onSuccess, Steps.snd_after, hallowed, hnone, hreport, hpath]
  rfl

theorem settings_command (command : Command) :
    settings world { line with command := command } request = settings world line request := rfl

theorem snd_steps (world : World) (line : CommandLine) (request : AuditRequest) :
    ({ line with command := .audit request }.steps world).2 =
      settings world line request >>= fun config =>
        (runWith world { line with command := .audit request } request config).2 := by
  rw [← settings_command (.audit request)]
  exact snd_run world { line with command := .audit request } request

/-- An audit without a token document reports what one with an unusable document does. -/
theorem sameReport_of_isBare {path : Path} (hunusable : IsUnusable world.files path)
    (htokens : ∀ config, settings world line request = .ok config →
      config.audit.tokens = some path)
    (hbare : IsBare world line request bareLine bare) :
    ({ line with command := .audit request }.run world).SameReport
      ({ bareLine with command := .audit bare }.run world) := by
  have houtput : CommandLine.outputPath { line with command := .audit request } =
      CommandLine.outputPath { bareLine with command := .audit bare } := hbare.output.symm
  refine CommandLine.sameReport_of_steps ?_ hbare.quiet.symm houtput
  rw [snd_steps, snd_steps, hbare.settings]
  cases hsettings : settings world line request with
  | error failure => simp only [Except.map, bind, Except.bind]
  | ok config =>
      have hallowed := allowedValues_of_isUnusable { line with command := .audit request }
        (htokens config hsettings) hunusable
      simp only [Except.map, bind, Except.bind]
      exact snd_runWith_congr hbare.color hbare.path hbare.format hallowed

/-- If the configuration names no token document, an audit is bare without the option for one. -/
theorem isBare_of_option {path : Path}
    (hnone : ∀ config, settings world line { request with tokens := none } = .ok config →
      config.audit.tokens = none) :
    IsBare world line { request with tokens := some path } line
      { request with tokens := none } := by
  refine ⟨rfl, rfl, rfl, rfl, rfl, ?_⟩
  rw [settings] at hnone
  rw [settings, settings]
  cases hloaded : world.loadConfig line request.config with
  | error failure => rfl
  | ok loaded =>
      rw [hloaded] at hnone
      have htokens : loaded.config.audit.tokens = none :=
        hnone (AuditRequest.override { request with tokens := none } loaded.config) rfl
      simp only [Except.map, AuditRequest.override, Config.withoutTokens, htokens]
      rfl

end AuditRun

/-- A token document makes no difference to what is reported. -/
structure IsIgnored (world : World) (path : Path) : Prop where
  /-- It adds nothing to the allowed values. -/
  allowed {line : CommandLine} {config : AuditConfig} : config.tokens = some path →
    (AuditRun.allowedValues world line config).1 = .builtIn
  /-- An audit with this document reports what any audit does that has none and is asked for the
  same. -/
  report {line bareLine : CommandLine} {request bare : AuditRequest} :
    (∀ config, AuditRun.settings world line request = .ok config →
      config.audit.tokens = some path) →
    AuditRun.IsBare world line request bareLine bare →
    ({ line with command := .audit request }.run world).SameReport
      ({ bareLine with command := .audit bare }.run world)
  /-- So the option for it may be left out, if the configuration names no token document. -/
  option {line : CommandLine} {request : AuditRequest} :
    (∀ config, AuditRun.settings world line { request with tokens := none } = .ok config →
      config.audit.tokens = none) →
    ({ line with command := .audit { request with tokens := some path } }.run world).SameReport
      ({ line with command := .audit { request with tokens := none } }.run world)

/-- A token document that cannot be used makes no difference to what is reported. -/
theorem isIgnored_of_isUnusable {world : World} {path : Path}
    (h : IsUnusable world.files path) : IsIgnored world path where
  allowed := fun htokens => AuditRun.allowedValues_of_isUnusable _ htokens h
  report := fun htokens hbare => AuditRun.sameReport_of_isBare h htokens hbare
  option := fun hnone => by
    refine AuditRun.sameReport_of_isBare h ?_ (AuditRun.isBare_of_option hnone)
    intro config hconfig
    obtain ⟨loaded, -, rfl⟩ := map_eq_ok.mp hconfig
    rfl

/-- A world with a style sheet and a token document that ends too early. -/
def cutShortWorld : World where
  files := ⟨.directory [(Text.Utf8.encode "a.css", .file (Text.Utf8.encode "color: #123456;")),
    (Text.Utf8.encode "tokens.json", .file (Text.Utf8.encode "[\"#123456\""))], []⟩
  surroundings := .bare
  colorsReport := false
  colorsNotices := false

/-- A request to audit the style sheet. -/
def styleSheetRequest : AuditRequest :=
  ⟨.ofText "a.css", none, none, none, none, [], .text, none, none⟩

/-- A command line with this request. -/
def styleSheetLine : CommandLine := ⟨0, false, .auto, false, .audit styleSheetRequest⟩

theorem isIgnored_of_isUnusable_cutShort :
    IsUnusable cutShortWorld.files (.ofText "tokens.json") ∧
      (AuditRun.allowedValues cutShortWorld styleSheetLine
        { AuditConfig.default with tokens := some (.ofText "tokens.json") }).1.allows
          .hardcodedColor "#123456" = false ∧
      ({ styleSheetLine with
          command := .audit { styleSheetRequest with tokens := some (.ofText "tokens.json") } }.run
        cutShortWorld).SameReport (styleSheetLine.run cutShortWorld) := by
  have hread : cutShortWorld.files.read (.ofText "tokens.json") =
      .ok (Text.Utf8.encode "[\"#123456\"") := by cbv
  have hnone : (Json.read "[\"#123456\"").toOption.isNone = true := by decide +kernel
  obtain ⟨fault, hjson⟩ : ∃ fault, Json.read "[\"#123456\"" = .error fault := by
    cases hresult : Json.read "[\"#123456\"" with
    | error fault => exact ⟨fault, rfl⟩
    | ok document =>
        rw [hresult] at hnone
        cases hnone
  have hunusable := IsUnusable.noJson hread hjson
  have hignored := isIgnored_of_isUnusable hunusable
  have hmissing : cutShortWorld.files.holds cutShortWorld.localConfig = false := by cbv
  have hloaded : cutShortWorld.loadConfig styleSheetLine none = .ok ⟨.default, none⟩ := by
    rw [World.loadConfig_eq, World.configFile?, hmissing]
    rfl
  have hsettings : AuditRun.settings cutShortWorld styleSheetLine
      { styleSheetRequest with tokens := none } = .ok .default :=
    congrArg (Except.map _) hloaded
  have htokens : ∀ config, AuditRun.settings cutShortWorld styleSheetLine
      { styleSheetRequest with tokens := none } = .ok config → config.audit.tokens = none := by
    intro config hconfig
    cases hsettings.symm.trans hconfig
    rfl
  refine ⟨hunusable, ?_, hignored.option htokens⟩
  rw [hignored.allowed rfl]
  decide

end LiteralAudit
