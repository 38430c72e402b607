import LiteralAudit.Proofs.Report.Yaml
import LiteralAudit.Proofs.Run.Exit

/-!
# The YAML check

The outcomes of a check are told three times: by the report for people, by the report for programs,
and by the exit code.  All of them agree with one tally (`reports_agree`), for every parser, every
way to read files, and every list of paths, which may name a file more than once.
-/

namespace LiteralAudit.YamlRun

/-- A check comes to its end exactly if each of its steps succeeds. -/
theorem snd_run_eq_ok {world : World} {line : CommandLine} {request : YamlRequest}
    {finished : Finished} :
    (run world line request).2 = .ok finished ↔
      ∃ loaded, world.loadConfig line request.config = .ok loaded ∧
        ∃ scanner, world.scanner loaded.config.scanner loaded.config.yaml.extensions = .ok scanner ∧
          ∃ text, report world line request.format
              (outcomes world.files (paths world scanner request.paths)) = .ok text ∧
            finished = ⟨exitCodeFor (!(outcomes world.files
              (paths world scanner request.paths)).any Outcome.isBlocking), text⟩ := by
  rw [run, Steps.snd_onSuccess_eq_ok]
  simp only [Steps.snd_after, runWith, Steps.snd_onSuccess_eq_ok, Except.ok.injEq,
    eq_comm (b := finished)]

/-- The exit code counts as the tally does. -/
theorem exitCodeFor_any_isBlocking {outcomes : List Outcome}
    (hyaml : ∀ outcome ∈ outcomes, YamlResult outcome.path outcome.result) :
    exitCodeFor (!outcomes.any Outcome.isBlocking) =
      if 0 < (YamlTally.ofOutcomes outcomes).failed then 1 else 0 := by
  have hany : outcomes.any Outcome.isBlocking = true ↔
      0 < (YamlTally.ofOutcomes outcomes).failed := by
    rw [YamlTally.failed_eq hyaml, List.length_filter_pos_iff, List.any_eq_true]
  by_cases hfailed : 0 < (YamlTally.ofOutcomes outcomes).failed
  · rw [if_pos hfailed, hany.mpr hfailed]
    rfl
  · rw [if_neg hfailed, Bool.eq_false_iff.mpr (mt hany.mp hfailed)]
    rfl

/-! ## Agreement -/

/-- Whatever is said about some YAML files is what the tally of their outcomes says. -/
structure ReportsAgree (paths : List Path) (outcomes : List Outcome) : Prop where
  /-- Each file is of exactly one kind. -/
  kinds : ∀ outcome ∈ outcomes,
    [outcome.isUnreadable, outcome.isUnparsed, outcome.isValid].count true = 1
  /-- Each file is counted once. -/
  total : (YamlTally.ofOutcomes outcomes).valid + (YamlTally.ofOutcomes outcomes).failed =
    paths.length
  /-- The report for people has a section for each file and ends with the tally. -/
  plain : ∀ style, PlainReport.yaml style outcomes =
    outcomes.flatMap (PlainReport.yamlFile style) ++
      PlainReport.summaryLine style paths.length (YamlTally.ofOutcomes outcomes)
  /-- A section lists what was found in a valid file, and nothing else has a bullet. -/
  sections : ∀ style, ∀ outcome ∈ outcomes,
    PlainReport.ListsWarnings outcome (PlainReport.yamlFile style outcome)
  /-- So the report for people has as many bullets as the tally has findings, apart from those
  that it quotes. -/
  bullets : ∀ style, (PlainReport.yaml style outcomes).count bullet =
    (YamlTally.ofOutcomes outcomes).warnings +
      (outcomes.flatMap PlainReport.quoted).count bullet
  /-- The report for programs has the tally, and it lists as many findings about older values. -/
  data : (∀ path ∈ paths, path.IsText) → ∃ value, DataReport.yaml outcomes = .ok value.write ∧
    value.member? "summary" =
      some (DataReport.tallyEntry paths.length (YamlTally.ofOutcomes outcomes)) ∧
    (DataReport.listed value).countP (DataReport.isOf .legacyPattern) =
      (YamlTally.ofOutcomes outcomes).warnings

/-- The exit code of a check says whether files failed, however much was found in the others. -/
structure ExitAgrees (world : World) (line : CommandLine) (request : YamlRequest) : Prop where
  /-- A run that comes to its end ends with one if files failed and with zero if not. -/
  completes : ∀ finished, line.Completes world finished →
    ∃ loaded, world.loadConfig line request.config = .ok loaded ∧
      ∃ scanner, world.scanner loaded.config.scanner loaded.config.yaml.extensions = .ok scanner ∧
        (line.run world).exitCode =
          if 0 < (YamlTally.ofOutcomes (outcomes world.files
            (paths world scanner request.paths))).failed then 1 else 0
  /-- Any other run ends with two. -/
  fails : (∀ finished, ¬line.Completes world finished) → (line.run world).exitCode = failureCode

/-- Both reports of a check tell the same tally. -/
theorem reportsAgree_auditPaths (parser : YamlParser) (reader : FileReader) (paths : List Path) :
    ReportsAgree paths (Outcome.auditPaths (YamlAuditor.toFileAuditor parser) reader paths) := by
  obtain ⟨outcomes, houtcomes⟩ :
      ∃ outcomes, outcomes = Outcome.auditPaths (YamlAuditor.toFileAuditor parser) reader paths :=
    ⟨_, rfl⟩
  have hyaml : ∀ outcome ∈ outcomes, YamlResult outcome.path outcome.result := by
    intro outcome hmem
    exact yamlResult_auditPaths (houtcomes ▸ hmem)
  have hlength : outcomes.length = paths.length := by
    rw [houtcomes]
    exact List.length_map ..
  have hpath : ∀ outcome ∈ outcomes, outcome.path ∈ paths := by
    intro outcome hmem
    rw [houtcomes] at hmem
    obtain ⟨path, hpath, rfl⟩ := List.mem_map.mp hmem
    exact hpath
  rw [← houtcomes]
  constructor
  case kinds => exact fun outcome hmem => (hyaml outcome hmem).one_kind
  case total => exact hlength ▸ YamlTally.valid_add_failed hyaml
  case plain => exact fun style => hlength ▸ PlainReport.yaml_eq_tally hyaml style
  case sections =>
    exact fun style outcome hmem => PlainReport.listsWarnings_yamlFile style (hyaml outcome hmem)
  case bullets => exact PlainReport.count_bullet_yaml hyaml
  case data =>
    intro htexts
    exact ⟨DataReport.yamlEntry outcomes,
      DataReport.yaml_of_texts hyaml fun outcome hmem => htexts _ (hpath outcome hmem),
      hlength ▸ DataReport.summary_yamlEntry hyaml, DataReport.countP_listed hyaml⟩

theorem exitAgrees_yaml (world : World) (line : CommandLine) (request : YamlRequest) :
    ExitAgrees world { line with command := .yaml request } request := by
  rcases CommandLine.exitCode_run { line with command := .yaml request } world with
    ⟨finished, hcompletes, hcode⟩ | ⟨hnone, hcode⟩
  · refine ⟨?_, fun hnone => absurd hcompletes (hnone finished)⟩
    rintro - -
    obtain ⟨loaded, hloaded, scanner, hscanner, text, -, rfl⟩ := snd_run_eq_ok.mp hcompletes.1
    refine ⟨loaded, hloaded, scanner, hscanner, ?_⟩
    rw [hcode]
    exact exitCodeFor_any_isBlocking fun outcome hmem => yamlResult_auditPaths hmem
  · exact ⟨fun finished hcompletes => absurd hcompletes (hnone finished), fun _ => hcode⟩

/-- The reports on YAML files and the exit code of the check say the same of the files, whatever
parses them and whatever they hold. -/
theorem reports_agree (parser : YamlParser) (reader : FileReader) (paths : List Path) :
    ReportsAgree paths (Outcome.auditPaths (YamlAuditor.toFileAuditor parser) reader paths) ∧
      ∀ (world : World) (line : CommandLine) (request : YamlRequest),
        ExitAgrees world { line with command := .yaml request } request :=
  ⟨reportsAgree_auditPaths parser reader paths, exitAgrees_yaml⟩

end LiteralAudit.YamlRun
