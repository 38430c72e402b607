import LiteralAudit.Proofs.Audit.Yaml
import LiteralAudit.Proofs.Report.Written
import LiteralAudit.Proofs.Text.Digits

/-!
# The reports on YAML files

The two reports count files and findings in ways of their own: by the category of the findings, by
whether there are any, by what makes a run fail.  Both state the tally of the outcomes
(`PlainReport.yaml_eq_tally`, `DataReport.summary_yamlEntry`).

The report for people marks each finding in a valid file with a bullet (`count_bullet_yaml`).  It
has other bullets only where it quotes the name of a file or the reason why it failed, which may
hold any character.  The report for programs lists each finding in a valid file with its category
(`countP_listed`).
-/

namespace LiteralAudit

/-! ## The report for people -/

namespace PlainReport

/-- The line of a finding in a valid file. -/
def warningLine (found : Diagnostic) : Text :=
  line ("  • Line " ++ Text.ofNat found.line ++ ": " ++ found.message)

/-- The last line of a report. -/
def summaryLine (style : PlainStyle) (total : Nat) (tally : YamlTally) : Text :=
  line ("Summary: " ++ Text.ofNat total ++ " files checked, " ++ Text.ofNat tally.valid ++
    " valid, " ++ style.paint .red (Text.ofNat tally.failed) ++ " failed, " ++
    style.paint .yellow (Text.ofNat tally.warnings) ++ " legacy pattern warnings")

/-- What a report quotes of a file: its name, and why it could not be read or parsed. -/
def quoted (outcome : Outcome) : Text :=
  outcome.path.display ++
    match outcome.result with
    | .error failure => failure.message
    | .ok audit => (audit.get .parseError).flatMap Diagnostic.message

/-- What stands above the section of a file. -/
def fileHead (path : Path) : Text :=
  line rule ++ line ("YAML 1.2 Check: " ++ path.display) ++ line rule

/-- The line that says that a file can be parsed. -/
def syntaxLine (style : PlainStyle) (documents : Nat) : Text :=
  let plural : Text := if documents = 1 then [] else "s"
  paragraph (style.paint .green
    ("✓ YAML syntax valid (" ++ Text.ofNat documents ++ " document" ++ plural ++ " found)"))

/-- The line above the findings in a valid file. -/
def warningsHead (style : PlainStyle) (count : Nat) : Text :=
  line (style.paint .yellow ("⚠ YAML 1.1 Legacy Patterns (" ++ Text.ofNat count ++ " found):"))

theorem warnings_cons (style : PlainStyle) (first : Diagnostic) (found : List Diagnostic) :
    warnings style (first :: found) =
      warningsHead style (first :: found).length ++
        ((first :: found).flatMap warningLine ++ "\n") := by
  rw [← List.append_assoc]
  rfl

/-! ### Bullets -/

theorem count_bullet {text : Text} (h : text.all (· ≠ bullet) = true) : text.count bullet = 0 := by
  refine List.count_eq_zero_of_not_mem fun hmem => ?_
  have hne := List.all_eq_true.mp h bullet hmem
  simp at hne

theorem count_bullet_ofNat (n : Nat) : (Text.ofNat n).count bullet = 0 := by
  refine List.count_eq_zero_of_not_mem fun hmem => ?_
  exact absurd ((Text.isNumeral_ofNat n).all bullet hmem) (by decide)

theorem count_bullet_paint (style : PlainStyle) (ink : Ink) (text : Text) :
    (style.paint ink text).count bullet = text.count bullet := by
  rw [PlainStyle.paint, Ink.paint]
  split
  next =>
    have hstart : ink.start.count bullet = 0 := by
      cases ink <;> decide
    have hstop : Ink.stop.count bullet = 0 := by decide
    rw [List.count_append, List.count_append, hstart, hstop, Nat.zero_add, Nat.add_zero]
  next => rfl

theorem count_bullet_location (found : Diagnostic) : (location found).count bullet = 0 := by
  have hcolumn : ((found.column.map Text.ofNat).getD "?").count bullet = 0 := by
    cases found.column with
    | none => decide
    | some column => exact count_bullet_ofNat column
  rw [location]
  split
  next => rfl
  next =>
    simp (disch := decide) only [List.count_append, count_bullet_ofNat, hcolumn, count_bullet]

theorem count_bullet_fileHead (path : Path) :
    (fileHead path).count bullet = path.display.count bullet := by
  simp (disch := decide) only [fileHead, line, List.count_append, count_bullet, Nat.zero_add,
    Nat.add_zero]

theorem count_bullet_syntaxLine (style : PlainStyle) (documents : Nat) :
    (syntaxLine style documents).count bullet = 0 := by
  have hplural : ((if documents = 1 then [] else "s" : Text)).count bullet = 0 := by
    split <;> decide
  simp (disch := decide) only [syntaxLine, paragraph, List.count_append, count_bullet_paint,
    count_bullet_ofNat, hplural, count_bullet]

theorem count_bullet_warningsHead (style : PlainStyle) (count : Nat) :
    (warningsHead style count).count bullet = 0 := by
  simp (disch := decide) only [warningsHead, line, List.count_append, count_bullet_paint,
    count_bullet_ofNat, count_bullet]

theorem count_bullet_warningLine {path : Path} {found : Diagnostic} (h : found.IsLegacy path) :
    (warningLine found).count bullet = 1 := by
  have hmark : ("  • Line " : Text).count bullet = 1 := by decide
  simp (disch := decide) only [warningLine, line, List.count_append, hmark, count_bullet_ofNat,
    List.count_eq_zero_of_not_mem h.plain, count_bullet, Nat.add_zero]

theorem count_bullet_summaryLine (style : PlainStyle) (total : Nat) (tally : YamlTally) :
    (summaryLine style total tally).count bullet = 0 := by
  simp (disch := decide) only [summaryLine, line, List.count_append, count_bullet_ofNat,
    count_bullet_paint, count_bullet]

/-! ### Sections -/

/-- A section lists the findings of a valid file, and it has no bullets besides but those that it
quotes. -/
def ListsWarnings (outcome : Outcome) (text : Text) : Prop :=
  ∃ before after, text = before ++ (outcome.warnings.flatMap warningLine ++ after) ∧
    before.count bullet + after.count bullet = (quoted outcome).count bullet

/-- What is said of a file lists each of its warnings once. -/
theorem listsWarnings_yamlFile (style : PlainStyle) {outcome : Outcome}
    (h : YamlResult outcome.path outcome.result) :
    ListsWarnings outcome (yamlFile style outcome) := by
  obtain ⟨path, result⟩ := outcome
  cases h with
  | unreadable failure =>
      refine ⟨fileHead path ++
        paragraph (style.paint .red "✗ Could not check file" ++ ": " ++ failure.message), [],
        (List.append_nil _).symm, ?_⟩
      simp (disch := decide) only [quoted, paragraph, List.count_append, count_bullet_fileHead,
        count_bullet_paint, count_bullet, List.count_nil, Nat.zero_add, Nat.add_zero]
  | unparsed found hcategory =>
      have hget : (FileAudit.empty.push found).get .parseError = [found] := by
        rw [FileAudit.ordered_empty.get_push, if_pos hcategory]
        rfl
      refine ⟨fileHead path ++ unparsed style (FileAudit.empty.push found), [], ?_, ?_⟩
      · rw [yamlFile]
        dsimp only
        rw [FileAudit.hasParseError, hget]
        exact (List.append_nil _).symm
      · simp (disch := decide) only [quoted, hget, unparsed, paragraph, line,
          List.flatMap_singleton, List.count_append, count_bullet_fileHead, count_bullet_paint,
          count_bullet_location, count_bullet, List.count_nil, Nat.zero_add, Nat.add_zero]
  | valid found documents hlegacy =>
      have hsection : yamlFile style ⟨path, .ok (.parsed found documents)⟩ =
          fileHead path ++ (syntaxLine style documents ++ warnings style found) := by
        rw [yamlFile]
        dsimp only
        rw [FileAudit.hasParseError, YamlResult.get_parsed hlegacy, parsed,
          YamlResult.get_parsed hlegacy]
        rfl
      have hquoted : quoted ⟨path, .ok (.parsed found documents)⟩ = path.display := by
        rw [quoted]
        dsimp only
        rw [YamlResult.get_parsed hlegacy]
        exact List.append_nil _
      rw [ListsWarnings, YamlResult.warnings_parsed hlegacy, hsection, hquoted]
      cases found with
      | nil =>
          refine ⟨fileHead path ++ (syntaxLine style documents ++ warnings style []), [],
            (List.append_nil _).symm, ?_⟩
          simp (disch := decide) only [warnings, List.isEmpty_nil, if_true, paragraph,
            List.count_append, count_bullet_fileHead, count_bullet_syntaxLine, count_bullet_paint,
            count_bullet, List.count_nil, Nat.add_zero]
      | cons first found =>
          refine ⟨fileHead path ++ (syntaxLine style documents ++
            warningsHead style (first :: found).length), "\n", ?_, ?_⟩
          · rw [warnings_cons]
            simp only [List.append_assoc]
          · simp (disch := decide) only [List.count_append, count_bullet_fileHead,
              count_bullet_syntaxLine, count_bullet_warningsHead, count_bullet, Nat.add_zero]

theorem count_bullet_warnings {path : Path} {found : List Diagnostic}
    (hlegacy : ∀ finding ∈ found, finding.IsLegacy path) :
    (found.flatMap warningLine).count bullet = found.length := by
  induction found with
  | nil => rfl
  | cons first found ih =>
      rw [List.flatMap_cons, List.count_append, count_bullet_warningLine (hlegacy first (.head _)),
        ih fun finding hmem => hlegacy finding (.tail _ hmem), List.length_cons, Nat.add_comm]

/-- The bullets of a file are its warnings and those that are quoted from it. -/
theorem count_bullet_yamlFile (style : PlainStyle) {outcome : Outcome}
    (h : YamlResult outcome.path outcome.result) :
    (yamlFile style outcome).count bullet =
      outcome.warnings.length + (quoted outcome).count bullet := by
  obtain ⟨before, after, htext, hcount⟩ := listsWarnings_yamlFile style h
  have hwarnings := count_bullet_warnings fun _ hmem => h.isLegacy_of_mem_warnings hmem
  rw [htext, List.count_append, List.count_append, hwarnings, ← hcount]
  omega

section Report

variable {outcomes : List Outcome}
variable (hyaml : ∀ outcome ∈ outcomes, YamlResult outcome.path outcome.result)

include hyaml

/-- A report is what is said of the files and a line with the tally. -/
theorem yaml_eq_tally (style : PlainStyle) :
    yaml style outcomes =
      outcomes.flatMap (yamlFile style) ++
        summaryLine style outcomes.length (YamlTally.ofOutcomes outcomes) := by
  have hvalid := YamlTally.valid_add_failed hyaml
  rw [yaml, failedCount, warningCount, ← YamlTally.failed_eq hyaml, ← YamlTally.warnings_eq hyaml,
    ← hvalid, Nat.add_sub_cancel]
  rfl

/-- The bullets of a report are the warnings of the tally, those in quoted texts aside. -/
theorem count_bullet_yaml (style : PlainStyle) :
    (yaml style outcomes).count bullet =
      (YamlTally.ofOutcomes outcomes).warnings + (outcomes.flatMap quoted).count bullet := by
  have hsections : ∀ outcomes : List Outcome,
      (∀ outcome ∈ outcomes, YamlResult outcome.path outcome.result) →
      (outcomes.flatMap (yamlFile style)).count bullet =
        (outcomes.flatMap Outcome.warnings).length + (outcomes.flatMap quoted).count bullet := by
    intro outcomes hyaml
    induction outcomes with
    | nil => rfl
    | cons outcome outcomes ih =>
        have hfirst := count_bullet_yamlFile style (hyaml outcome (.head _))
        have hrest := ih fun outcome hmem => hyaml outcome (.tail _ hmem)
        simp only [List.flatMap_cons, List.count_append, List.length_append, hfirst, hrest]
        omega
  rw [yaml_eq_tally hyaml, List.count_append, count_bullet_summaryLine, Nat.add_zero]
  exact hsections outcomes hyaml

end Report

end PlainReport

/-! ## The report for programs -/

/-- The items of a list, and nothing for any other value. -/
def Json.items : Json → List Json
  | .array items => items
  | _ => []

namespace DataReport

/-- The values under the name of a list in an object. -/
def itemsUnder (name : Text) (value : Json) : List Json :=
  ((value.member? name).map Json.items).getD []

/-- The findings that a report on YAML files lists, file by file. -/
def listed (report : Json) : List Json :=
  (itemsUnder "files" report).flatMap (itemsUnder "diagnostics")

/-- Whether a finding as a value is of a category. -/
def isOf (category : Category) (found : Json) : Bool :=
  match found.member? "category" with
  | some (.str name) => name = category.name
  | _ => false

/-- The counts of a report on YAML files. -/
def tallyEntry (total : Nat) (tally : YamlTally) : Json :=
  .object
    [("total_files", natural total), ("valid", natural tally.valid),
      ("failed", natural tally.failed), ("warnings", natural tally.warnings)]

theorem isOf_entry (category : Category) (found : Diagnostic) :
    isOf category (entry found) = decide (found.category = category) := by
  have hmember : (entry found).member? "category" = some (.str found.category.name) := by
    rw [entry]
    cases found.column <;> rfl
  rw [isOf, hmember]
  exact decide_eq_decide.mpr ⟨Category.name_injective, congrArg _⟩

theorem itemsUnder_fileEntry (outcome : Outcome) :
    itemsUnder "diagnostics" (fileEntry outcome) = outcome.findings.map entry := by
  rw [itemsUnder, member?_fileEntry]
  rfl

/-- The data lists all findings, file by file. -/
theorem listed_yamlEntry (outcomes : List Outcome) :
    listed (yamlEntry outcomes) = (outcomes.flatMap Outcome.findings).map entry := by
  have hfiles : itemsUnder "files" (yamlEntry outcomes) = outcomes.map fileEntry := rfl
  rw [listed, hfiles, List.flatMap_map, List.map_flatMap]
  exact List.flatMap_congr fun outcome _ => itemsUnder_fileEntry outcome

section Report

variable {outcomes : List Outcome}
variable (hyaml : ∀ outcome ∈ outcomes, YamlResult outcome.path outcome.result)

include hyaml

theorem summary_yamlEntry :
    (yamlEntry outcomes).member? "summary" =
      some (tallyEntry outcomes.length (YamlTally.ofOutcomes outcomes)) := by
  have hvalid := YamlTally.valid_add_failed hyaml
  rw [yamlEntry, ← YamlTally.failed_eq hyaml, ← YamlTally.warnings_eq hyaml, ← hvalid,
    Nat.add_sub_cancel]
  rfl

/-- The legacy values that the data lists are the warnings of the tally. -/
theorem countP_listed :
    (listed (yamlEntry outcomes)).countP (isOf .legacyPattern) =
      (YamlTally.ofOutcomes outcomes).warnings := by
  have hentry :
      isOf .legacyPattern ∘ entry = fun found => decide (found.category = .legacyPattern) :=
    funext (isOf_entry _)
  rw [listed_yamlEntry, List.countP_map, hentry, List.countP_eq_length_filter, List.filter_flatMap]
  exact congrArg _ (List.flatMap_congr fun outcome hmem => (hyaml outcome hmem).filter_findings)

theorem yaml_of_texts (htexts : ∀ outcome ∈ outcomes, outcome.path.IsText) :
    yaml outcomes = .ok (yamlEntry outcomes).write := by
  rw [yaml_eq]
  refine unlessForeign_of_text ?_ _
  intro found hmem
  obtain ⟨outcome, houtcome, hfound⟩ := List.mem_flatMap.mp hmem
  rw [(hyaml outcome houtcome).path_of_mem_findings hfound]
  exact htexts outcome houtcome

end Report

end DataReport

end LiteralAudit
