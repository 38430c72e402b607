import LiteralAudit.Audit.Yaml
import LiteralAudit.Proofs.Audit.File
import LiteralAudit.Proofs.Audit.Lines
import LiteralAudit.Proofs.Detector.LegacyYaml

/-!
# What comes of YAML files

A YAML file that is checked cannot be read, or it cannot be parsed, or it is valid.  In the first
case nothing is found.  In the second there is one finding, which says why, and the number of
documents is not known.  In the third it is known, and all findings are about values whose meaning
changed (`yamlResult_auditPaths`).  The three exclude each other (`YamlResult.one_kind`), and a
run fails because of the first two (`YamlResult.isBlocking_eq`).

A *tally* counts the files of each kind and the findings in the valid ones.
-/

namespace LiteralAudit

/-! ## Findings about older values -/

theorem Text.mem_replaceFirst {part replacement text : Text} {c : Char}
    (hmem : c ∈ replaceFirst part replacement text) : c ∈ replacement ∨ c ∈ text := by
  induction text with
  | nil => exact absurd hmem List.not_mem_nil
  | cons d text ih =>
      rw [replaceFirst] at hmem
      split at hmem
      next rest hrest =>
        rcases List.mem_append.mp hmem with hmem | hmem
        · exact Or.inl hmem
        · rw [dropStart?_eq_some.mp hrest]
          exact Or.inr (List.mem_append_right _ hmem)
      next =>
        rcases List.mem_cons.mp hmem with rfl | hmem
        · exact Or.inr (.head _)
        · rcases ih hmem with hmem | hmem
          · exact Or.inl hmem
          · exact Or.inr (.tail _ hmem)

/-- The mark in front of a finding in the report on YAML files. -/
def bullet : Char := '•'

/-- A finding is about a value in a file whose meaning changed, and its words have no bullet. -/
structure Diagnostic.IsLegacy (path : Path) (found : Diagnostic) : Prop where
  /-- It is of the category of older values. -/
  category : found.category = .legacyPattern
  /-- It is in the file. -/
  path : found.path = path
  /-- There is no bullet in what is said about it. -/
  plain : bullet ∉ found.message

namespace Detector

theorem isLegacy_finding {rule : Rule} (hrule : rule ∈ Rule.legacyYaml) (path : Path)
    (number : Nat) {part : Text.Part} (hword : part.IsMaximalRun Text.isWord) :
    (finding rule path number part).IsLegacy path := by
  have hmessage : ∀ rule ∈ Rule.legacyYaml, rule.category = .legacyPattern ∧
      rule.literal = .verbatim ∧ bullet ∉ rule.message := by decide +kernel
  obtain ⟨hcategory, hliteral, hplain⟩ := hmessage rule hrule
  refine ⟨hcategory, rfl, ?_⟩
  intro hmem
  rcases Text.mem_replaceFirst hmem with hmem | hmem
  · rw [literalOn, hliteral] at hmem
    exact absurd (hword.all bullet hmem) (by decide +kernel)
  · exact hplain hmem

/-- Whatever the detector of legacy values finds is a legacy value. -/
theorem isLegacy_of_mem_detect {path : Path} {line : Text} {number : Nat} {found : Diagnostic}
    (hmem : found ∈ legacyYaml.detect path line number) : found.IsLegacy path := by
  obtain ⟨rule, hrule, hfound⟩ := List.mem_flatMap.mp hmem
  have hwords : ∃ parts : List Text.Part, (∀ part ∈ parts, part.IsMaximalRun Text.isWord) ∧
      legacyYaml.detectRule rule path line number = parts.map (finding rule path number) := by
    rcases List.mem_pair.mp hrule with rfl | rfl
    · obtain ⟨parts, hparts, hfindings⟩ := legacyYaml.detectRule_of_words path line number
        .bareBoolean rfl rfl Pattern.takes_booleanWord
      exact ⟨parts, fun part hpart => ((hparts.mem part).mp hpart).2.1.1, hfindings⟩
    · obtain ⟨parts, hparts, hfindings⟩ := legacyYaml.detectRule_of_words path line number
        .unprefixedOctal rfl rfl Pattern.takes_octalNumber
      exact ⟨parts, fun part hpart => ((hparts.mem part).mp hpart).2.1.1, hfindings⟩
  obtain ⟨parts, hparts, hfindings⟩ := hwords
  rw [hfindings] at hfound
  obtain ⟨part, hpart, rfl⟩ := List.mem_map.mp hfound
  exact isLegacy_finding hrule path number (hparts part hpart)

end Detector

/-! ## The three kinds -/

/-- The audit of a file that was parsed. -/
def FileAudit.parsed (found : List Diagnostic) (documents : Nat) : FileAudit :=
  { empty.pushAll found with documents := some documents }

/-- What can come of a YAML file. -/
inductive YamlResult (path : Path) : Except FileFailure FileAudit → Prop where
  /-- It could not be read. -/
  | unreadable (failure : FileFailure) : YamlResult path (.error failure)
  /-- It could not be parsed. -/
  | unparsed (found : Diagnostic) (hcategory : found.category = .parseError)
      (hpath : found.path = path) : YamlResult path (.ok (FileAudit.empty.push found))
  /-- It was parsed. -/
  | valid (found : List Diagnostic) (documents : Nat)
      (hlegacy : ∀ finding ∈ found, finding.IsLegacy path) :
      YamlResult path (.ok (.parsed found documents))

theorem yamlResult_audit (parser : YamlParser) (path : Path) (text : Text) :
    YamlResult path (.ok (YamlAuditor.audit parser path text)) := by
  rw [YamlAuditor.audit]
  cases parser text with
  | error failure => exact .unparsed _ rfl rfl
  | ok documents =>
      refine .valid _ documents ?_
      intro finding hmem
      obtain ⟨i, line, -, -, hfinding⟩ := mem_detectLines.mp hmem
      exact Detector.isLegacy_of_mem_detect hfinding

theorem yamlResult_auditPath (parser : YamlParser) (reader : FileReader) (path : Path) :
    YamlResult path (Outcome.auditPath (YamlAuditor.toFileAuditor parser) reader path) := by
  rw [Outcome.auditPath]
  cases reader path with
  | error fault =>
      dsimp only
      split
      next => exact .unreadable _
      next => exact .unreadable _
  | ok bytes => exact yamlResult_audit parser path _

/-- Every outcome of a check has one of the three forms. -/
theorem yamlResult_auditPaths {parser : YamlParser} {reader : FileReader} {paths : List Path}
    {outcome : Outcome}
    (hmem : outcome ∈ Outcome.auditPaths (YamlAuditor.toFileAuditor parser) reader paths) :
    YamlResult outcome.path outcome.result := by
  obtain ⟨path, -, rfl⟩ := List.mem_map.mp hmem
  exact yamlResult_auditPath parser reader path

namespace Outcome

/-- The file could not be audited. -/
def isUnreadable (outcome : Outcome) : Bool :=
  match outcome.result with
  | .error _ => true
  | .ok _ => false

/-- The file could not be parsed: that is the only finding, and documents are not counted. -/
def isUnparsed (outcome : Outcome) : Bool :=
  match outcome.result with
  | .error _ => false
  | .ok audit =>
      audit.documents.isNone && audit.total = 1 &&
        audit.toList.all (·.category = .parseError)

/-- The file was parsed: its documents are counted, and all findings are about older values. -/
def isValid (outcome : Outcome) : Bool :=
  match outcome.result with
  | .error _ => false
  | .ok audit => audit.documents.isSome && audit.toList.all (·.category = .legacyPattern)

/-- The findings in a file that was parsed. -/
def warnings (outcome : Outcome) : List Diagnostic :=
  if outcome.isValid then outcome.findings else []

end Outcome

namespace YamlResult

variable {path : Path}

/-! ### What is found in each kind -/

section Parsed

variable {found : List Diagnostic} (hlegacy : ∀ finding ∈ found, finding.IsLegacy path)

include hlegacy

theorem toList_parsed (documents : Nat) : (FileAudit.parsed found documents).toList = found :=
  FileAudit.toList_pushAll_empty fun finding hmem => (hlegacy finding hmem).category

theorem get_parsed (documents : Nat) (category : Category) :
    (FileAudit.parsed found documents).get category =
      if category = .legacyPattern then found else [] :=
  FileAudit.get_pushAll_empty (fun finding hmem => (hlegacy finding hmem).category) category

theorem isValid_parsed (documents : Nat) :
    Outcome.isValid ⟨path, .ok (.parsed found documents)⟩ = true := by
  show (true && (FileAudit.parsed found documents).toList.all (·.category = .legacyPattern)) = true
  rw [toList_parsed hlegacy, Bool.true_and, List.all_eq_true]
  exact fun finding hmem => decide_eq_true (hlegacy finding hmem).category

theorem warnings_parsed (documents : Nat) :
    Outcome.warnings ⟨path, .ok (.parsed found documents)⟩ = found := by
  rw [Outcome.warnings, if_pos (isValid_parsed hlegacy documents)]
  exact toList_parsed hlegacy documents

end Parsed

/-- Each file is of exactly one kind. -/
theorem one_kind {outcome : Outcome} (h : YamlResult outcome.path outcome.result) :
    [outcome.isUnreadable, outcome.isUnparsed, outcome.isValid].count true = 1 := by
  obtain ⟨path, result⟩ := outcome
  cases h with
  | unreadable failure => rfl
  | unparsed found hcategory =>
      have hunparsed : Outcome.isUnparsed ⟨path, .ok (FileAudit.empty.push found)⟩ = true := by
        show (true && [found].all (·.category = .parseError)) = true
        simp [hcategory]
      rw [hunparsed]
      rfl
  | valid found documents hlegacy =>
      rw [isValid_parsed hlegacy]
      rfl

/-- A run fails because of the files that are not valid. -/
theorem isBlocking_eq {outcome : Outcome} (h : YamlResult outcome.path outcome.result) :
    outcome.isBlocking = !outcome.isValid := by
  obtain ⟨path, result⟩ := outcome
  cases h with
  | unreadable failure => rfl
  | unparsed found hcategory =>
      show (!((FileAudit.empty.push found).get .parseError).isEmpty) = true
      rw [FileAudit.ordered_empty.get_push, if_pos hcategory]
      rfl
  | valid found documents hlegacy =>
      rw [isValid_parsed hlegacy]
      show (!((FileAudit.parsed found documents).get .parseError).isEmpty) = false
      rw [get_parsed hlegacy]
      rfl

/-- The findings about older values are those in the valid files. -/
theorem get_legacyPattern {outcome : Outcome} (h : YamlResult outcome.path outcome.result) :
    outcome.get .legacyPattern = outcome.warnings := by
  obtain ⟨path, result⟩ := outcome
  cases h with
  | unreadable failure => rfl
  | unparsed found hcategory =>
      show (FileAudit.empty.push found).get .legacyPattern = []
      rw [FileAudit.ordered_empty.get_push, hcategory]
      rfl
  | valid found documents hlegacy =>
      rw [warnings_parsed hlegacy]
      exact get_parsed hlegacy documents .legacyPattern

/-- The same are found by their category among all findings. -/
theorem filter_findings {outcome : Outcome} (h : YamlResult outcome.path outcome.result) :
    outcome.findings.filter (·.category = .legacyPattern) = outcome.warnings := by
  obtain ⟨path, result⟩ := outcome
  cases h with
  | unreadable failure => rfl
  | unparsed found hcategory =>
      show [found].filter (·.category = .legacyPattern) = []
      simp [hcategory]
  | valid found documents hlegacy =>
      rw [warnings_parsed hlegacy]
      show (FileAudit.parsed found documents).toList.filter _ = found
      rw [toList_parsed hlegacy]
      exact List.filter_eq_self.mpr fun finding hmem =>
        decide_eq_true (hlegacy finding hmem).category

/-- The findings in a valid file are about older values in it. -/
theorem isLegacy_of_mem_warnings {outcome : Outcome} (h : YamlResult outcome.path outcome.result)
    {finding : Diagnostic} (hmem : finding ∈ outcome.warnings) : finding.IsLegacy outcome.path := by
  obtain ⟨path, result⟩ := outcome
  cases h with
  | unreadable failure => exact absurd hmem List.not_mem_nil
  | unparsed found hcategory => exact absurd hmem List.not_mem_nil
  | valid found documents hlegacy =>
      rw [warnings_parsed hlegacy] at hmem
      exact hlegacy finding hmem

/-- All findings are in the file. -/
theorem path_of_mem_findings {outcome : Outcome} (h : YamlResult outcome.path outcome.result)
    {finding : Diagnostic} (hmem : finding ∈ outcome.findings) : finding.path = outcome.path := by
  obtain ⟨path, result⟩ := outcome
  cases h with
  | unreadable failure => exact absurd hmem List.not_mem_nil
  | unparsed found hcategory hpath =>
      rw [List.mem_singleton.mp hmem]
      exact hpath
  | valid found documents hlegacy =>
      have hfound : finding ∈ found := toList_parsed hlegacy documents ▸ hmem
      exact (hlegacy finding hfound).path

end YamlResult

/-! ## Tallies -/

/-- A count of the files of each kind and of the findings in the valid ones. -/
structure YamlTally where
  /-- The number of files that could not be read or not be parsed. -/
  failed : Nat
  /-- The number of valid files. -/
  valid : Nat
  /-- The number of findings in valid files. -/
  warnings : Nat
  deriving DecidableEq, Repr

/-- The tally of some outcomes. -/
def YamlTally.ofOutcomes (outcomes : List Outcome) : YamlTally where
  failed := outcomes.countP fun outcome => outcome.isUnreadable || outcome.isUnparsed
  valid := outcomes.countP Outcome.isValid
  warnings := (outcomes.flatMap Outcome.warnings).length

section Tally

variable {outcomes : List Outcome}
variable (hyaml : ∀ outcome ∈ outcomes, YamlResult outcome.path outcome.result)

include hyaml

theorem YamlTally.failed_eq :
    (YamlTally.ofOutcomes outcomes).failed = (outcomes.filter Outcome.isBlocking).length := by
  rw [← List.countP_eq_length_filter]
  refine List.countP_congr fun outcome hmem => ?_
  have hone := (hyaml outcome hmem).one_kind
  rw [(hyaml outcome hmem).isBlocking_eq]
  cases hunreadable : outcome.isUnreadable <;> cases hunparsed : outcome.isUnparsed <;>
    cases hvalid : outcome.isValid <;> simp [hunreadable, hunparsed, hvalid] at hone ⊢

/-- Each file that is checked counts as valid or as failed. -/
theorem YamlTally.valid_add_failed :
    (YamlTally.ofOutcomes outcomes).valid + (YamlTally.ofOutcomes outcomes).failed =
      outcomes.length := by
  rw [failed_eq hyaml, ← List.countP_eq_length_filter,
    List.length_eq_countP_add_countP Outcome.isValid]
  refine congrArg _ (List.countP_congr fun outcome hmem => ?_)
  rw [(hyaml outcome hmem).isBlocking_eq]
  simp

/-- The warnings are the legacy values of all files. -/
theorem YamlTally.warnings_eq :
    (YamlTally.ofOutcomes outcomes).warnings =
      (outcomes.map fun outcome => (outcome.get .legacyPattern).length).foldr (· + ·) 0 := by
  have hget : (outcomes.map fun outcome => (outcome.get .legacyPattern).length) =
      outcomes.map fun outcome => outcome.warnings.length :=
    List.map_congr_left fun outcome hmem => by rw [(hyaml outcome hmem).get_legacyPattern]
  rw [hget]
  exact List.length_flatMap ..

end Tally

end LiteralAudit
