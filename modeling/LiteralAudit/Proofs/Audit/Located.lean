import LiteralAudit.Audit.Yaml
import LiteralAudit.Proofs.Audit.File
import LiteralAudit.Proofs.Audit.Lines
import LiteralAudit.Proofs.Detector.Located

/-!
# Findings in a text

Every finding of an audit points at a line of the text that was looked at, and quotes it.  The one
finding about a text that cannot be parsed points at the line that the parser names, if the text
has that line (`findings_located`).
-/

namespace LiteralAudit

/-- A detector whose findings are on the line that it looks at. -/
def Detector.Locates (detector : Detector) : Prop :=
  ∀ path line number, ∀ found ∈ detector.detect path line number, found.IsOn path line number

/-! ## Findings of an audit -/

/-- The line of a text with a number, counted from one. -/
def Text.lineAt (text : Text) (number : Nat) : Text := (splitLines text).getD (number - 1) []

/-- A text has a line with a number, counted from one. -/
def Text.HasLine (text : Text) (number : Nat) : Prop :=
  1 ≤ number ∧ number ≤ (splitLines text).length

/-- A finding points at a line of a text that is not skipped. -/
structure Diagnostic.LocatedIn (classifier : LineClassifier) (path : Path) (text : Text)
    (found : Diagnostic) : Prop where
  /-- The text has the line. -/
  hasLine : text.HasLine found.line
  /-- The line is not skipped. -/
  seen : classifier.skips (text.lineAt found.line) = false
  /-- The finding is on it. -/
  isOn : found.IsOn path (text.lineAt found.line) found.line

namespace FileAudit

/-- The findings of an audit point at lines of a text, and within a category at earlier lines
first. -/
structure PointsInto (classifier : LineClassifier) (path : Path) (text : Text)
    (audit : FileAudit) : Prop where
  /-- Every finding points at a line. -/
  located : ∀ found ∈ audit.toList, found.LocatedIn classifier path text
  /-- The numbers of the lines do not decrease. -/
  ascending : ∀ category, (audit.get category).Pairwise fun a b => a.line ≤ b.line

/-- An audit has one finding, which says why a text cannot be parsed.  It points at the line that
is named if the text has that line. -/
structure TellsFailure (path : Path) (text : Text) (failure : ParseFailure)
    (found : Diagnostic) (audit : FileAudit) : Prop where
  /-- There is no other finding. -/
  single : audit.toList = [found]
  /-- It is about parsing. -/
  category : found.category = .parseError
  /-- It is in the file. -/
  inFile : found.path = path
  /-- It has the number of the line that is named. -/
  numbered : ∀ number, failure.line = some number → found.line = number
  /-- It quotes that line. -/
  quotes : ∀ number, failure.line = some number → text.HasLine number →
    found.sourceLine = Text.trim (text.lineAt number)
  /-- It quotes nothing if the text has no such line. -/
  outside : ∀ number, failure.line = some number → ¬text.HasLine number → found.sourceLine = []
  /-- It has the number zero and quotes nothing if no line is named. -/
  unknown : failure.line = none → found.line = 0 ∧ found.sourceLine = []

theorem mem_toList_pushAll {found : Diagnostic} {pushed : List Diagnostic} :
    found ∈ (empty.pushAll pushed).toList ↔ found ∈ pushed := by
  rw [(ordered_empty.pushAll pushed).toList_eq, List.mem_flatMap]
  simp only [ordered_empty.get_pushAll, get_empty, List.nil_append, List.mem_filter,
    decide_eq_true_eq]
  constructor
  · rintro ⟨-, -, hmem, -⟩
    exact hmem
  · exact fun hmem => ⟨found.category, Category.mem_all _, hmem, rfl⟩

/-- An audit of lines points into its text if its detector finds things where they are. -/
theorem pointsInto_auditLines {detector : Detector} (hlocates : detector.Locates)
    (classifier : LineClassifier) (path : Path) (text : Text) :
    (auditLines classifier detector path text).PointsInto classifier path text where
  located := by
    intro found hfound
    obtain ⟨i, line, hline, hseen, hmem⟩ := mem_detectLines.mp (mem_toList_pushAll.mp hfound)
    have hison := hlocates path line (1 + i) found hmem
    obtain ⟨hi, -⟩ := List.getElem?_eq_some_iff.mp hline
    have hat : text.lineAt (1 + i) = line := by
      rw [Text.lineAt, Nat.add_sub_cancel_left, List.getD_eq_getElem?_getD, hline]
      rfl
    have hnumbered := hison.numbered
    refine ⟨⟨?_, ?_⟩, ?_, ?_⟩
    · omega
    · omega
    · rw [hnumbered, hat, hseen]
    · rw [hnumbered, hat]
      exact hison
  ascending := by
    intro category
    show ((empty.pushAll _).get category).Pairwise _
    rw [ordered_empty.get_pushAll, get_empty, List.nil_append]
    exact ascending_detectLines.filter _

theorem toList_push_empty (found : Diagnostic) : (empty.push found).toList = [found] := by
  have hcategory : ∀ other ∈ [found], other.category = found.category :=
    fun _ hmem => congrArg _ (List.eq_of_mem_singleton hmem)
  exact toList_pushAll_empty hcategory

end FileAudit

namespace YamlAuditor

theorem lineNumbered_of_hasLine {text : Text} {number : Nat} (h : text.HasLine number) :
    lineNumbered text number = text.lineAt number := by
  obtain ⟨n, rfl⟩ := Nat.exists_eq_add_of_le' h.1
  rw [lineNumbered, Text.lineAt, Nat.add_sub_cancel, List.getD_eq_getElem?_getD]

theorem lineNumbered_of_not_hasLine {text : Text} {number : Nat} (h : ¬text.HasLine number) :
    lineNumbered text number = [] := by
  cases number with
  | zero => rfl
  | succ n =>
      have hbehind : (Text.splitLines text).length ≤ n := by
        rw [Text.HasLine] at h
        omega
      rw [lineNumbered, List.getElem?_eq_none hbehind]
      rfl

/-- The audit of a text that does not parse tells the failure. -/
theorem tellsFailure_auditFailure (path : Path) (text : Text) (failure : ParseFailure) :
    ∃ found, (auditFailure path text failure).TellsFailure path text failure found := by
  refine ⟨_, FileAudit.toList_push_empty _, rfl, rfl, ?_, ?_, ?_, ?_⟩
  · rintro number hline
    show failure.line.getD 0 = number
    rw [hline]
    rfl
  · rintro number hline hhas
    show Text.trim (lineNumbered text (failure.line.getD 0)) = _
    rw [hline, Option.getD_some, lineNumbered_of_hasLine hhas]
  · rintro number hline hhas
    show Text.trim (lineNumbered text (failure.line.getD 0)) = _
    rw [hline, Option.getD_some, lineNumbered_of_not_hasLine hhas]
    rfl
  · intro hline
    show failure.line.getD 0 = 0 ∧ Text.trim (lineNumbered text (failure.line.getD 0)) = []
    rw [hline]
    exact ⟨rfl, rfl⟩

end YamlAuditor

/-- Findings of both auditors point at lines of the text that are not skipped, and a text that
cannot be parsed has one finding, at the line that the parser names. -/
theorem findings_located (path : Path) (text : Text) :
    (∀ allowed, ((StyleAuditor.ofAllowed allowed).audit path text).PointsInto .source path text) ∧
      ∀ parser : YamlParser,
        (∀ documents, parser text = .ok documents →
          (YamlAuditor.audit parser path text).PointsInto .yaml path text) ∧
        ∀ failure, parser text = .error failure →
          ∃ found, (YamlAuditor.audit parser path text).TellsFailure path text failure found := by
  refine ⟨?_, ?_⟩
  · intro allowed
    exact FileAudit.pointsInto_auditLines
      (fun _ _ _ _ hmem => Detector.isOn_of_mem_designTokens hmem) .source path text
  · intro parser
    refine ⟨?_, ?_⟩
    · intro documents hparser
      have hlines := FileAudit.pointsInto_auditLines
        (fun _ _ _ _ hmem => Detector.isOn_of_mem_legacyYaml hmem) .yaml path text
      rw [YamlAuditor.audit, hparser]
      -- The number of documents is no part of the findings.
      exact ⟨hlines.located, hlines.ascending⟩
    · intro failure hparser
      rw [YamlAuditor.audit, hparser]
      exact YamlAuditor.tellsFailure_auditFailure path text failure

/-- Three lines, each with another break behind it. -/
def mixedLines : Text := "# on\r\na: yes\r b: 0755 \n"

theorem findings_located_mixedLines :
    (fun _ => .ok 1 : YamlParser) mixedLines = .ok 1 ∧
      (YamlAuditor.audit (fun _ => .ok 1) (.ofText "a.yaml") mixedLines).PointsInto .yaml
        (.ofText "a.yaml") mixedLines ∧
      (YamlAuditor.audit (fun _ => .ok 1) (.ofText "a.yaml") mixedLines).toList.map
        (fun found => (found.line, found.sourceLine)) =
          [(2, ("a: yes" : Text)), (3, ("b: 0755" : Text))] ∧
      (fun _ => .error ⟨some 4, none, "unexpected end"⟩ : YamlParser) mixedLines =
        .error ⟨some 4, none, "unexpected end"⟩ ∧
      ∃ found, (YamlAuditor.audit (fun _ => .error ⟨some 4, none, "unexpected end"⟩)
        (.ofText "a.yaml") mixedLines).TellsFailure (.ofText "a.yaml") mixedLines
          ⟨some 4, none, "unexpected end"⟩ found := by
  obtain ⟨-, hyaml⟩ := findings_located (.ofText "a.yaml") mixedLines
  exact ⟨rfl, (hyaml _).1 1 rfl, by decide +kernel, rfl, (hyaml _).2 _ rfl⟩

end LiteralAudit
