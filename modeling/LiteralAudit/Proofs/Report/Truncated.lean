import LiteralAudit.Proofs.Audit.Totals
import LiteralAudit.Proofs.Json.Canonical
import LiteralAudit.Proofs.Report.Yaml

/-!
# The two reports on an audit

The report for people is the report for programs cut short.  Its sections are the categories that
the other report counts, and a section shows the first findings that the other report lists for the
category, in the same order, and how many there are besides (`audit_truncates`).

This is said without the summary that both are made of: `Truncates` relates the sections to the
value that the report for programs is the text of.
-/

namespace LiteralAudit

open Json (asText asNatural)

/-! ## The findings of a category -/

namespace Summary

section Findings

variable {outcomes : List Outcome} (hfilled : AuditsFilled outcomes)

include hfilled

/-- What is listed under a category is of this category and comes from one of the files. -/
theorem mem_diagnostics_ofOutcomes {category : Category} {found : Diagnostic}
    (hmem : found ∈ (ofOutcomes outcomes).diagnostics category) :
    found.category = category ∧ ∃ outcome ∈ outcomes, found ∈ outcome.findings := by
  obtain ⟨audit, haudit, hfound⟩ :=
    List.mem_flatMap.mp ((diagnostics_perm _ category).mem_iff.mp hmem)
  refine ⟨(hfilled.of_mem_values haudit).category_of_mem_get hfound, ?_⟩
  rcases mem_values_foldl haudit with hnone | ⟨outcome, houtcome, hresult⟩
  · exact absurd hnone List.not_mem_nil
  · refine ⟨outcome, houtcome, ?_⟩
    rw [Outcome.findings, hresult]
    exact (audit.get_sublist_toList category).subset hfound

/-- Of the findings category by category, those of one category are those listed for it. -/
theorem filter_diagnostics (category : Category) :
    (Category.all.flatMap (ofOutcomes outcomes).diagnostics).filter (·.category = category) =
      (ofOutcomes outcomes).diagnostics category := by
  have hother : ∀ other, ((ofOutcomes outcomes).diagnostics other).filter (·.category = category) =
      if other = category then (ofOutcomes outcomes).diagnostics category else [] := by
    intro other
    split
    next hsame =>
      subst hsame
      exact List.filter_eq_self.mpr fun found hmem =>
        decide_eq_true (mem_diagnostics_ofOutcomes hfilled hmem).1
    next hdiffer =>
      refine List.filter_eq_nil_iff.mpr fun found hmem => ?_
      rw [(mem_diagnostics_ofOutcomes hfilled hmem).1]
      simpa using hdiffer
  rw [List.filter_flatMap, List.flatMap_congr fun other _ => hother other]
  cases category <;> simp [Category.all]

theorem totalIssues_ofOutcomes :
    (ofOutcomes outcomes).totalIssues =
      (Category.all.flatMap (ofOutcomes outcomes).diagnostics).length :=
  totalIssues_eq_length fun _ hmem => (hfilled.of_mem_values hmem).ordered

end Findings

end Summary

namespace DataReport

/-- The findings of a category that a report lists. -/
def itemsOf (category : Category) (value : Json) : List Json :=
  (itemsUnder "diagnostics" value).filter (isOf category)

theorem itemsOf_auditEntry {outcomes : List Outcome} (hfilled : Summary.AuditsFilled outcomes)
    (theme : Option Theme) (category : Category) :
    itemsOf category (auditEntry (.ofOutcomes outcomes) theme) =
      ((Summary.ofOutcomes outcomes).diagnostics category).map entry := by
  have hitems : itemsUnder "diagnostics" (auditEntry (.ofOutcomes outcomes) theme) =
      (Category.all.flatMap (Summary.ofOutcomes outcomes).diagnostics).map entry := rfl
  have hisOf : isOf category ∘ entry = fun found => decide (found.category = category) :=
    funext (isOf_entry category)
  rw [itemsOf, hitems, List.filter_map, hisOf, Summary.filter_diagnostics hfilled]

end DataReport

/-! ## Sections -/

namespace PlainReport

open DataReport (itemsUnder itemsOf isOf natural)

/-- The entry of a finding, told by the finding as a value. -/
def itemText? (style : PlainStyle) (category : Category) (item : Json) : Option Text := do
  let path ← item.field "path" asText
  let number ← item.field "line" asNatural
  let literal ← item.field "literal" asText
  let sourceLine ← item.field "source_line" asText
  let message ← item.field "message" asText
  let advice := match hint? style category with
    | some hint => "- Fix: " ++ hint
    | none => "- Note: " ++ message
  some <|
    line ("**" ++ path ++ ":" ++ Text.ofNat number ++ "**") ++
      line ("- " ++ literalLabel category ++ ": `" ++ literal ++ "`") ++
      line ("- Line: `" ++ sourceLine ++ "`") ++ paragraph advice

/-- The section of a category with a number of findings shows the first of these and, if there are
more, how many. -/
def IsSection (style : PlainStyle) (items : List Json) (category : Category) (count : Nat)
    (text : Text) : Prop :=
  ∃ entries, (items.take style.maxListed).mapM (itemText? style category) = some entries ∧
    text = paragraph ("### " ++ category.title ++ " (" ++ Text.ofNat count ++ " issues)") ++
      entries.flatten ++
      if style.maxListed < count then
        paragraph ("...and " ++ Text.ofNat (count - style.maxListed) ++ " more " ++ category.noun ++
          " issues")
      else []

/-- The sections of a report for people, each of a category with a number of findings, are what a
report for programs says, cut short. -/
structure Truncates (style : PlainStyle) (value : Json) (total : Nat)
    (sections : List (Category × Nat)) (texts : List Text) : Prop where
  /-- The number of all findings is stated. -/
  stated : value.field "summary" (Json.field "total_issues" asNatural) = some total
  /-- The categories are those that are counted, with the same numbers. -/
  counted : value.field "summary" (Json.member? "by_category") =
    some (.object (sections.map fun entry => (entry.1.name, natural entry.2)))
  /-- They are in the order of categories, each once. -/
  ordered : (sections.map Prod.fst).Sublist Category.all
  /-- The numbers are those of the findings listed, and there are some. -/
  counts : ∀ entry ∈ sections, entry.2 = (itemsOf entry.1 value).length ∧ 0 < entry.2
  /-- Each finding listed belongs to a section. -/
  complete : ∀ item ∈ itemsUnder "diagnostics" value, ∃ entry ∈ sections, isOf entry.1 item = true
  /-- There are no sections if there is nothing to list. -/
  clean : total = 0 ↔ sections = []
  /-- Each section shows the first findings listed for its category. -/
  texts : List.Forall₂ (fun entry => IsSection style (itemsOf entry.1 value) entry.1 entry.2)
    sections texts

/-- The report for people on an audit is made of sections that the value of the report for programs
tells, or of the line that says that there are none. -/
def IsTruncation (style : PlainStyle) (summary : Summary) (theme : Option Theme) : Prop :=
  ∃ value total sections texts,
    DataReport.auditValue summary theme = .ok value ∧
      DataReport.audit summary theme = .ok value.write ∧
      Truncates style value total sections texts ∧
      audit style summary theme =
        line (Text.trimEnd (auditHead summary theme ++
          (if total = 0 then
            paragraph (style.paint .green "✓ No design token compliance issues found!")
          else texts.flatten) ++
          failureSection style summary.failures.values))

/-- The line of a finding is made from its entry in the data alone. -/
theorem itemText?_entry (style : PlainStyle) (category : Category) {found : Diagnostic}
    (hpath : found.path.IsText) :
    itemText? style category (DataReport.entry found) = some (entry style category found) := by
  obtain ⟨path, number, column, other, literal, sourceLine, message⟩ := found
  obtain ⟨text, rfl⟩ := hpath
  rw [DataReport.entry, Path.decode?_bytes.mpr rfl, entry, Path.display_ofText]
  cases column <;> cases category <;> rfl

/-- A section shows the first entries of a category and how many more there are. -/
theorem isSection_categorySection (style : PlainStyle) (category : Category)
    {found : List Diagnostic} (hsome : found ≠ [])
    (htexts : ∀ finding ∈ found, finding.path.IsText) :
    IsSection style (found.map DataReport.entry) category found.length
      (categorySection style category found) := by
  refine ⟨(found.take style.maxListed).map (entry style category), ?_, ?_⟩
  · rw [← List.map_take, List.mapM_map]
    exact Json.mapM_eq_some_map fun finding hmem =>
      itemText?_entry style category (htexts finding (List.mem_of_mem_take hmem))
  · have helision : elision category (found.length - style.maxListed) =
        if style.maxListed < found.length then
          paragraph ("...and " ++ Text.ofNat (found.length - style.maxListed) ++ " more " ++
            category.noun ++ " issues")
        else [] := by
      rw [elision]
      split_ifs <;> first | rfl | omega
    rw [categorySection, if_neg (by simpa using hsome), helision, List.flatMap_def]
    rfl

theorem flatMap_eq_of_nil {α β : Type} {f : α → List β} {kept : α → Bool} (items : List α)
    (h : ∀ item, kept item = false → f item = []) :
    items.flatMap f = (items.filter kept).flatMap f := by
  induction items with
  | nil => rfl
  | cons item items ih =>
      cases hkept : kept item with
      | true => rw [List.filter_cons_of_pos hkept, List.flatMap_cons, List.flatMap_cons, ih]
      | false =>
          rw [List.filter_cons_of_neg (by simp [hkept]), List.flatMap_cons, h item hkept, ih,
            List.nil_append]

/-- The categories with findings, each with their number. -/
def sections (summary : Summary) : List (Category × Nat) :=
  (Category.all.filter fun category => 0 < summary.count category).map fun category =>
    (category, summary.count category)

/-- A category has a section exactly if it has findings, and the section tells how many. -/
theorem mem_sections {summary : Summary} {category : Category} {count : Nat} :
    (category, count) ∈ sections summary ↔ count = summary.count category ∧ 0 < count := by
  simp only [sections, List.mem_map, List.mem_filter, decide_eq_true_eq]
  constructor
  · rintro ⟨category, ⟨-, hcount⟩, ⟨⟩⟩
    exact ⟨rfl, hcount⟩
  · rintro ⟨rfl, hpos⟩
    exact ⟨category, ⟨category.mem_all, hpos⟩, rfl⟩

/-- The body of a report is the praise of a clean run or the sections of the categories. -/
theorem auditBody_eq (style : PlainStyle) (summary : Summary) :
    auditBody style summary =
      if summary.totalIssues = 0 then
        paragraph (style.paint .green "✓ No design token compliance issues found!")
      else
        ((sections summary).map fun entry =>
          categorySection style entry.1 (summary.diagnostics entry.1)).flatten := by
  have hnone : ∀ category, decide (0 < summary.count category) = false →
      categorySection style category (summary.diagnostics category) = [] := by
    intro category hcount
    have hlength := summary.length_diagnostics category
    have hnil : summary.diagnostics category = [] :=
      List.length_eq_zero_iff.mp (by simpa [hlength] using hcount)
    rw [hnil]
    rfl
  rw [auditBody, flatMap_eq_of_nil Category.all hnone, sections, List.map_map]
  rfl

section Outcomes

variable {outcomes : List Outcome} (hfilled : Summary.AuditsFilled outcomes)

include hfilled

theorem isText_of_mem_diagnostics
    (htexts : ∀ outcome ∈ outcomes, ∀ found ∈ outcome.findings, found.path.IsText)
    {category : Category} {found : Diagnostic}
    (hmem : found ∈ (Summary.ofOutcomes outcomes).diagnostics category) : found.path.IsText := by
  obtain ⟨-, outcome, houtcome, hfound⟩ := Summary.mem_diagnostics_ofOutcomes hfilled hmem
  exact htexts outcome houtcome found hfound

theorem sections_eq_nil_iff :
    (Summary.ofOutcomes outcomes).totalIssues = 0 ↔ sections (.ofOutcomes outcomes) = [] := by
  rw [Summary.totalIssues_ofOutcomes hfilled, List.length_eq_zero_iff, List.flatMap_eq_nil_iff,
    sections, List.map_eq_nil_iff, List.filter_eq_nil_iff]
  refine forall₂_congr fun category _ => ?_
  rw [← Summary.length_diagnostics, ← List.length_eq_zero_iff]
  simp

/-- The text report truncates what the data lists. -/
theorem truncates_auditEntry (htexts : ∀ outcome ∈ outcomes, ∀ found ∈ outcome.findings,
    found.path.IsText) (style : PlainStyle) (theme : Option Theme) :
    Truncates style (DataReport.auditEntry (.ofOutcomes outcomes) theme)
      (Summary.ofOutcomes outcomes).totalIssues (sections (.ofOutcomes outcomes))
      ((sections (.ofOutcomes outcomes)).map fun entry =>
        categorySection style entry.1 ((Summary.ofOutcomes outcomes).diagnostics entry.1)) := by
  have hitems := DataReport.itemsOf_auditEntry hfilled theme
  constructor
  case stated => rfl
  case counted =>
    rw [sections, List.map_map]
    rfl
  case ordered =>
    have hfirst : (sections (.ofOutcomes outcomes)).map Prod.fst =
        Category.all.filter fun category => 0 < (Summary.ofOutcomes outcomes).count category := by
      rw [sections, List.map_map]
      exact List.map_id _
    rw [hfirst]
    exact List.filter_sublist
  case counts =>
    rintro ⟨category, count⟩ hmem
    obtain ⟨hcount, hpos⟩ := mem_sections.mp hmem
    rw [hitems, List.length_map, Summary.length_diagnostics]
    exact ⟨hcount, hpos⟩
  case complete =>
    intro item hmem
    obtain ⟨found, hfound, rfl⟩ := List.mem_map.mp hmem
    obtain ⟨category, -, hcategory⟩ := List.mem_flatMap.mp hfound
    refine ⟨(category, (Summary.ofOutcomes outcomes).count category),
      mem_sections.mpr ⟨rfl, ?_⟩, ?_⟩
    · rw [← Summary.length_diagnostics]
      exact List.length_pos_of_mem hcategory
    · rw [DataReport.isOf_entry]
      exact decide_eq_true (Summary.mem_diagnostics_ofOutcomes hfilled hcategory).1
  case clean => exact sections_eq_nil_iff hfilled
  case texts =>
    rw [List.forall₂_map_right_iff, List.forall₂_same]
    rintro ⟨category, count⟩ hmem
    obtain ⟨hcount, hpos⟩ := mem_sections.mp hmem
    dsimp only
    rw [hitems, hcount, ← Summary.length_diagnostics]
    refine isSection_categorySection style category ?_ fun found hfound =>
      isText_of_mem_diagnostics hfilled htexts hfound
    rw [← List.length_pos_iff, Summary.length_diagnostics, ← hcount]
    exact hpos

/-- The report for people on an audit is the report for programs, cut short. -/
theorem audit_truncates (htexts : ∀ outcome ∈ outcomes, ∀ found ∈ outcome.findings,
    found.path.IsText) (style : PlainStyle) (theme : Option Theme) :
    IsTruncation style (.ofOutcomes outcomes) theme := by
  have hpaths : ∀ found ∈ DataReport.auditDiagnostics (.ofOutcomes outcomes),
      found.path.IsText := by
    intro found hmem
    obtain ⟨category, -, hfound⟩ := List.mem_flatMap.mp hmem
    exact isText_of_mem_diagnostics hfilled htexts hfound
  refine ⟨_, _, _, _, ?_, ?_, truncates_auditEntry hfilled htexts style theme, ?_⟩
  · rw [DataReport.auditValue_eq, unlessForeign_of_text hpaths]
  · rw [DataReport.audit_eq, unlessForeign_of_text hpaths]
  · rw [audit, auditBody_eq]

end Outcomes

theorem audit_truncates_unordered :
    Summary.AuditsFilled Summary.unorderedOutcomes ∧
      (∀ outcome ∈ Summary.unorderedOutcomes, ∀ found ∈ outcome.findings, found.path.IsText) ∧
      IsTruncation ⟨false, 1, [4, 8], [2]⟩ (.ofOutcomes Summary.unorderedOutcomes) none := by
  have htexts : ∀ outcome ∈ Summary.unorderedOutcomes, ∀ found ∈ outcome.findings,
      found.path.IsText := by
    decide +kernel
  exact ⟨Summary.auditsFilled_unordered, htexts,
    audit_truncates Summary.auditsFilled_unordered htexts _ none⟩

end PlainReport

end LiteralAudit
