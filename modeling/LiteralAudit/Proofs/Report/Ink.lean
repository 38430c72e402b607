import LiteralAudit.Proofs.Audit.Totals
import LiteralAudit.Proofs.Report.Yaml

/-!
# Reports in colors

Colors add escape sequences to a report and are meant to change nothing else.  `Ink.bare` deletes
the escape sequences of a text, and `Ink.Painting` relates a text in colors to the one without
them, in a way that is kept when pieces are put together.  Every piece of a report is such a
painting if nothing that the report quotes holds an escape character.

So the report on YAML files in colors is bare the one without them (`painting_yaml`).  The report on
an audit is trimmed at its end when the sequences are already there: white space that a report ends
in is taken off without colors, and in colors it is kept, since the sequence that switches the ink
off stands behind it (`bare_trimEnd_paint`).  Both reports say the same up to that
(`exists_saysUpToEnd`), and what they can differ in is the white space at the end of the last
failure (`bare_audit_eq_iff`).
-/

namespace LiteralAudit

/-! ## Escape sequences -/

namespace Ink

/-- The character that begins an escape sequence. -/
def escape : Char := '\x1b'

/-- Where the reader of a text with escape sequences stands. -/
inductive Position where
  /-- Outside of the sequences. -/
  | outside
  /-- Behind an escape character. -/
  | escaped
  /-- Behind the bracket of a sequence. -/
  | within
  deriving DecidableEq, Repr

/-- Whether a sequence goes on behind a character: the numbers in it and what separates them. -/
def isInner (c : Char) : Bool := ' ' ≤ c && c ≤ '?'

/-- What is left of a text that is read from some position.  A sequence with a bracket ends with the
first character that is not inner, and any other one with the character behind the escape. -/
def bareFrom : Position → Text → Text
  | _, [] => []
  | .outside, c :: text =>
      if c = escape then bareFrom .escaped text else c :: bareFrom .outside text
  | .escaped, c :: text => bareFrom (if c = '[' then .within else .outside) text
  | .within, c :: text => bareFrom (if isInner c then .within else .outside) text

/-- A text without its escape sequences. -/
def bare (text : Text) : Text := bareFrom .outside text

example : bare (Ink.red.paint true "a" ++ "b") = "ab".toList := by decide

/-- A text without escape characters. -/
def Unescaped (text : Text) : Prop := escape ∉ text

/-- A text in colors is a painting of another if its escape sequences are all that it has in
addition, whatever stands behind it. -/
def Painting (painted text : Text) : Prop := ∀ rest, bare (painted ++ rest) = text ++ bare rest

@[simp] theorem bare_nil : bare [] = [] := rfl

theorem bare_cons {c : Char} (h : c ≠ escape) (text : Text) : bare (c :: text) = c :: bare text :=
  if_neg h

theorem unescaped_of_all {text : Text} (h : text.all (· ≠ escape) = true) : Unescaped text := by
  intro hmem
  have hne := List.all_eq_true.mp h escape hmem
  simp at hne

theorem unescaped_append {a b : Text} : Unescaped (a ++ b) ↔ Unescaped a ∧ Unescaped b := by
  simp [Unescaped, not_or]

theorem unescaped_flatMap {α : Type} {items : List α} {f : α → Text}
    (h : ∀ item ∈ items, Unescaped (f item)) : Unescaped (items.flatMap f) := by
  intro hmem
  obtain ⟨item, hitem, hescape⟩ := List.mem_flatMap.mp hmem
  exact h item hitem hescape

theorem unescaped_trimEnd {text : Text} (h : Unescaped text) : Unescaped (Text.trimEnd text) := by
  obtain ⟨blanks, htext, -⟩ := Text.exists_trimEnd text
  rw [htext, unescaped_append] at h
  exact h.1

theorem unescaped_join {separator : Text} {pieces : List Text} (hseparator : Unescaped separator)
    (h : ∀ piece ∈ pieces, Unescaped piece) : Unescaped (Text.join separator pieces) := by
  fun_induction Text.join separator pieces with
  | case1 => exact List.not_mem_nil
  | case2 piece => exact h piece (.head _)
  | case3 piece pieces _ ih =>
      rw [unescaped_append, unescaped_append]
      exact ⟨⟨h piece (.head _), hseparator⟩, ih fun other hmem => h other (.tail _ hmem)⟩

theorem unescaped_ofNat (n : Nat) : Unescaped (Text.ofNat n) := by
  intro hmem
  exact absurd ((Text.isNumeral_ofNat n).all escape hmem) (by decide)

/-- A text without escapes is its own painting. -/
theorem Unescaped.painting {text : Text} (h : Unescaped text) : Painting text text := by
  intro rest
  induction text with
  | nil => rfl
  | cons c text ih =>
      rw [Unescaped, List.mem_cons, not_or] at h
      rw [List.cons_append, List.cons_append, bare_cons (Ne.symm h.1), ih h.2]

namespace Painting

/-- Taking the colors off a painting gives its text. -/
theorem bare_eq {painted text : Text} (h : Painting painted text) : bare painted = text := by
  simpa using h []

theorem append {a b a' b' : Text} (ha : Painting a a') (hb : Painting b b') :
    Painting (a ++ b) (a' ++ b') := by
  intro rest
  rw [List.append_assoc, ha, hb, List.append_assoc]

theorem flatMap {α : Type} {items : List α} {f g : α → Text}
    (h : ∀ item ∈ items, Painting (f item) (g item)) :
    Painting (items.flatMap f) (items.flatMap g) := by
  induction items with
  | nil => exact fun _ => rfl
  | cons item items ih =>
      rw [List.flatMap_cons, List.flatMap_cons]
      exact (h item (.head _)).append (ih fun other hmem => h other (.tail _ hmem))

end Painting

theorem painting_start (ink : Ink) : Painting ink.start [] := by
  intro rest
  cases ink <;> rfl

theorem painting_stop : Painting stop [] := fun _ => rfl

/-- A painted text is a painting of the plain one. -/
theorem painting_paint (ink : Ink) {text : Text} (h : Unescaped text) :
    Painting (ink.paint true text) (ink.paint false text) := by
  have hpaint := ((painting_start ink).append h.painting).append painting_stop
  rwa [List.nil_append, List.append_nil] at hpaint

end Ink

/-! ## What a report quotes -/

/-- A finding quotes no escape character. -/
structure Diagnostic.Unescaped (found : Diagnostic) : Prop where
  /-- Its path has none. -/
  path : Ink.Unescaped found.path.display
  /-- Its literal has none. -/
  literal : Ink.Unescaped found.literal
  /-- Its line has none. -/
  sourceLine : Ink.Unescaped found.sourceLine
  /-- Its message has none. -/
  message : Ink.Unescaped found.message

/-- An audit quotes no escape character. -/
def FileAudit.Unescaped (audit : FileAudit) : Prop := ∀ found ∈ audit.toList, found.Unescaped

/-- A failure quotes no escape character. -/
def FileFailure.Unescaped (failure : FileFailure) : Prop := Ink.Unescaped failure.message

/-- A summary quotes no escape character. -/
structure Summary.Unescaped (summary : Summary) : Prop where
  /-- Its audits quote none. -/
  files : ∀ audit ∈ summary.files.values, audit.Unescaped
  /-- Its failures quote none. -/
  failures : ∀ failure ∈ summary.failures.values, failure.Unescaped

/-- An outcome quotes no escape character. -/
structure Outcome.Unescaped (outcome : Outcome) : Prop where
  /-- Its path has none. -/
  path : Ink.Unescaped outcome.path.display
  /-- Its audit quotes none. -/
  audit : ∀ audit, outcome.result = .ok audit → audit.Unescaped
  /-- Its failure quotes none. -/
  failure : ∀ failure, outcome.result = .error failure → failure.Unescaped

theorem FileAudit.Unescaped.of_mem_get {audit : FileAudit} (h : audit.Unescaped)
    {category : Category} {found : Diagnostic} (hmem : found ∈ audit.get category) :
    found.Unescaped :=
  h found ((audit.get_sublist_toList category).subset hmem)

theorem Summary.Unescaped.of_mem_diagnostics {summary : Summary} (h : summary.Unescaped)
    {category : Category} {found : Diagnostic} (hmem : found ∈ summary.diagnostics category) :
    found.Unescaped := by
  have hgroups := (summary.diagnostics_perm category).mem_iff.mp hmem
  obtain ⟨audit, haudit, hfound⟩ := List.mem_flatMap.mp hgroups
  exact (h.files audit haudit).of_mem_get hfound

/-- The style with colors on or off. -/
def PlainStyle.inColors (style : PlainStyle) (colored : Bool) : PlainStyle := { style with colored }

namespace PlainReport

open Ink (bare Unescaped Painting unescaped_append unescaped_of_all unescaped_ofNat painting_paint)

theorem painting_line {painted text : Text} (h : Painting painted text) :
    Painting (line painted) (line text) :=
  h.append (unescaped_of_all (by decide)).painting

theorem painting_paragraph {painted text : Text} (h : Painting painted text) :
    Painting (paragraph painted) (paragraph text) :=
  h.append (unescaped_of_all (by decide)).painting

/-! ## The report on YAML files -/

theorem unescaped_fileHead {path : Path} (h : Unescaped path.display) :
    Unescaped (fileHead path) := by
  simp (disch := decide) only [fileHead, line, unescaped_append, unescaped_of_all, h, and_self]

theorem unescaped_location (found : Diagnostic) : Unescaped (location found) := by
  have hcolumn : Unescaped ((found.column.map Text.ofNat).getD "?") := by
    cases found.column with
    | none => exact unescaped_of_all (by decide)
    | some column => exact unescaped_ofNat column
  rw [location]
  split
  next => exact unescaped_of_all rfl
  next =>
    simp (disch := decide) only [unescaped_append, unescaped_of_all, unescaped_ofNat, hcolumn,
      and_self]

variable (style : PlainStyle)

theorem painting_unparsed {audit : FileAudit} (h : audit.Unescaped) :
    Painting (unparsed (style.inColors true) audit) (unparsed (style.inColors false) audit) := by
  refine (((painting_paragraph (painting_paint .red (unescaped_of_all (by decide)))).append
    ?_).append ?_).append ?_
  · refine .flatMap fun found hmem => Unescaped.painting ?_
    have hmessage := (h.of_mem_get hmem).message
    simp (disch := decide) only [line, unescaped_append, unescaped_of_all, unescaped_location,
      hmessage, and_self]
  · exact (unescaped_of_all (by decide)).painting
  · exact (unescaped_of_all (by decide)).painting

theorem painting_warnings {found : List Diagnostic} (h : ∀ warning ∈ found, warning.Unescaped) :
    Painting (warnings (style.inColors true) found) (warnings (style.inColors false) found) := by
  cases found with
  | nil => exact painting_paragraph (painting_paint .green (unescaped_of_all (by decide)))
  | cons first found =>
      have hcount : Unescaped ("⚠ YAML 1.1 Legacy Patterns (" ++
          Text.ofNat (first :: found).length ++ " found):") := by
        simp (disch := decide) only [unescaped_append, unescaped_of_all, unescaped_ofNat, and_self]
      rw [warnings_cons, warnings_cons]
      refine (painting_line (painting_paint .yellow hcount)).append (Unescaped.painting ?_)
      rw [unescaped_append]
      refine ⟨Ink.unescaped_flatMap fun warning hmem => ?_, unescaped_of_all (by decide)⟩
      have hmessage := (h warning hmem).message
      simp (disch := decide) only [warningLine, line, unescaped_append, unescaped_of_all,
        unescaped_ofNat, hmessage, and_self]

theorem painting_parsed {audit : FileAudit} (h : audit.Unescaped) :
    Painting (parsed (style.inColors true) audit) (parsed (style.inColors false) audit) := by
  have hplural : Unescaped (if audit.documents.getD 0 = 1 then [] else "s" : Text) := by
    split <;> exact unescaped_of_all (by decide)
  refine Painting.append (painting_paragraph (painting_paint .green ?_))
    (painting_warnings style fun warning hmem => h.of_mem_get hmem)
  simp (disch := decide) only [unescaped_append, unescaped_of_all, unescaped_ofNat, hplural,
    and_self]

theorem painting_yamlFile {outcome : Outcome} (h : outcome.Unescaped) :
    Painting (yamlFile (style.inColors true) outcome)
      (yamlFile (style.inColors false) outcome) := by
  obtain ⟨path, result⟩ := outcome
  refine Painting.append (unescaped_fileHead h.path).painting ?_
  cases result with
  | error failure =>
      have hmessage : Unescaped failure.message := h.failure failure rfl
      exact painting_paragraph (((painting_paint .red (unescaped_of_all (by decide))).append
        (unescaped_of_all (by decide)).painting).append hmessage.painting)
  | ok audit =>
      dsimp only
      split
      next => exact painting_unparsed style (h.audit audit rfl)
      next => exact painting_parsed style (h.audit audit rfl)

/-- The report of a check in colors is a painting of the plain one. -/
theorem painting_yaml {outcomes : List Outcome} (h : ∀ outcome ∈ outcomes, outcome.Unescaped) :
    Painting (yaml (style.inColors true) outcomes) (yaml (style.inColors false) outcomes) := by
  refine Painting.append (.flatMap fun outcome hmem => painting_yamlFile style (h outcome hmem))
    (painting_line ?_)
  refine Painting.append (.append (.append (.append (Unescaped.painting ?_) ?_) ?_) ?_) ?_
  · simp (disch := decide) only [unescaped_append, unescaped_of_all, unescaped_ofNat, and_self]
  · exact painting_paint .red (unescaped_ofNat _)
  · exact (unescaped_of_all (by decide)).painting
  · exact painting_paint .yellow (unescaped_ofNat _)
  · exact (unescaped_of_all (by decide)).painting

/-! ## The report on an audit -/

theorem unescaped_hint {category : Category} {hint : Text} (h : hint? style category = some hint) :
    Unescaped hint := by
  have hvalues : ∀ values, Unescaped (pixelList values) := by
    intro values
    rw [pixelList, unescaped_append]
    refine ⟨Ink.unescaped_join (unescaped_of_all (by decide)) ?_, unescaped_of_all (by decide)⟩
    intro piece hpiece
    obtain ⟨value, -, rfl⟩ := List.mem_map.mp hpiece
    exact unescaped_ofNat value
  cases category <;> cases h
  · exact unescaped_of_all (by decide)
  · simp (disch := decide) only [unescaped_append, unescaped_of_all, hvalues, and_self]
  · simp (disch := decide) only [unescaped_append, unescaped_of_all, hvalues, and_self]

theorem unescaped_entry (category : Category) {found : Diagnostic} (h : found.Unescaped) :
    Unescaped (entry style category found) := by
  have hlabel : Unescaped (literalLabel category) := by
    cases category <;> exact unescaped_of_all (by decide)
  have hmessage := h.message
  rw [entry, unescaped_append]
  constructor
  · simp (disch := decide) only [line, unescaped_append, unescaped_of_all, unescaped_ofNat, hlabel,
      h.path, h.literal, h.sourceLine, and_self]
  · split
    next hint hsome =>
      have hhint := unescaped_hint style hsome
      simp (disch := decide) only [paragraph, unescaped_append, unescaped_of_all, hhint, and_self]
    next =>
      simp (disch := decide) only [paragraph, unescaped_append, unescaped_of_all, hmessage,
        and_self]

theorem unescaped_categorySection (category : Category) {found : List Diagnostic}
    (h : ∀ finding ∈ found, finding.Unescaped) :
    Unescaped (categorySection style category found) := by
  have hwords : Unescaped category.title ∧ Unescaped category.noun := by
    cases category <;> exact ⟨unescaped_of_all (by decide), unescaped_of_all (by decide)⟩
  have helision : ∀ hidden, Unescaped (elision category hidden) := by
    intro hidden
    rw [elision]
    split
    next => exact unescaped_of_all rfl
    next =>
      simp (disch := decide) only [paragraph, unescaped_append, unescaped_of_all, unescaped_ofNat,
        hwords, and_self]
  rw [categorySection]
  split
  next => exact unescaped_of_all rfl
  next =>
    rw [unescaped_append, unescaped_append]
    refine ⟨⟨?_, Ink.unescaped_flatMap fun finding hmem => ?_⟩, helision _⟩
    · simp (disch := decide) only [heading, paragraph, unescaped_append, unescaped_of_all,
        unescaped_ofNat, hwords, and_self]
    · exact unescaped_entry style category (h finding (List.mem_of_mem_take hmem))

theorem unescaped_auditHead (summary : Summary) (theme : Option Theme) :
    Unescaped (auditHead summary theme) := by
  have htheme : Unescaped ((theme.map Theme.name).getD "all") := by
    cases theme with
    | none => exact unescaped_of_all (by decide)
    | some theme => cases theme <;> exact unescaped_of_all (by decide)
  simp (disch := decide) only [auditHead, line, paragraph, unescaped_append, unescaped_of_all,
    unescaped_ofNat, htheme, and_self]

/-- Sections of findings look the same with and without colors. -/
theorem auditBody_inColors {summary : Summary} (htotal : summary.totalIssues ≠ 0) (colored : Bool) :
    auditBody (style.inColors colored) summary = auditBody style summary := by
  rw [auditBody, auditBody, if_neg htotal, if_neg htotal]
  rfl

theorem unescaped_auditBody {summary : Summary} (h : summary.Unescaped)
    (htotal : summary.totalIssues ≠ 0) : Unescaped (auditBody style summary) := by
  rw [auditBody, if_neg htotal]
  refine Ink.unescaped_flatMap fun category _ => ?_
  exact unescaped_categorySection style category fun _ hmem => h.of_mem_diagnostics hmem

/-- Only the line that praises a clean run is painted. -/
theorem painting_auditBody {summary : Summary} (h : summary.Unescaped) :
    Painting (auditBody (style.inColors true) summary)
      (auditBody (style.inColors false) summary) := by
  by_cases htotal : summary.totalIssues = 0
  · rw [auditBody, auditBody, if_pos htotal, if_pos htotal]
    exact painting_paragraph (painting_paint .green (unescaped_of_all (by decide)))
  · rw [auditBody_inColors style htotal, auditBody_inColors style htotal]
    exact (unescaped_auditBody style h htotal).painting

/-- The failures in front of the message of the last one. -/
def failureFront (failures : List FileFailure) : Text :=
  paragraph "## Files Not Audited" ++
    (failures.flatMap (fun failure => line ("- " ++ style.paint .red failure.message)) ++ "- ")

theorem failureSection_concat (failures : List FileFailure) (last : FileFailure) :
    failureSection style (failures ++ [last]) =
      failureFront style failures ++ paragraph (style.paint .red last.message) := by
  have hsome : (failures ++ [last]).isEmpty = false := by simp
  rw [failureSection, hsome, if_neg Bool.false_ne_true, List.flatMap_append, List.flatMap_singleton]
  simp only [failureFront, line, paragraph, List.append_assoc]
  rfl

theorem painting_failureFront {failures : List FileFailure}
    (h : ∀ failure ∈ failures, failure.Unescaped) :
    Painting (failureFront (style.inColors true) failures)
      (failureFront (style.inColors false) failures) := by
  refine Painting.append (unescaped_of_all (by decide)).painting
    (Painting.append (.flatMap fun failure hmem => painting_line ?_)
      (unescaped_of_all (by decide)).painting)
  exact (unescaped_of_all (by decide)).painting.append (painting_paint .red (h failure hmem))

theorem isBlanks_break : Text.IsBlanks "\n" := by
  intro c hc
  cases List.mem_singleton.mp hc
  decide

/-- The break at the end of a paragraph is trimmed away. -/
theorem trimEnd_paragraph (front text : Text) :
    Text.trimEnd (front ++ paragraph text) = Text.trimEnd (front ++ text) := by
  have hbreaks : paragraph text = text ++ "\n" ++ "\n" := by
    rw [paragraph, List.append_assoc]
    rfl
  rw [hbreaks, ← List.append_assoc, Text.trimEnd_append_blanks _ isBlanks_break,
    ← List.append_assoc, Text.trimEnd_append_blanks _ isBlanks_break]

/-- Of a report that ends in a painting only the line breaks are trimmed if colors are on, since a
sequence stands behind the text. -/
theorem bare_trimEnd_paint (ink : Ink) {front front' text : Text} (hfront : Painting front front')
    (htext : Unescaped text) :
    bare (line (Text.trimEnd (front ++ paragraph (ink.paint true text)))) =
      line (front' ++ text) := by
  have hends : Text.EndsInk (front ++ ink.paint true text) := by
    have hstop : Text.EndsInk Ink.stop := by
      intro c hc
      cases hc
      decide
    rw [Ink.paint, if_pos rfl, ← List.append_assoc, Text.endsInk_append (by decide)]
    exact hstop
  rw [trimEnd_paragraph, Text.trimEnd_eq_self_iff.mpr hends]
  exact (painting_line (hfront.append (painting_paint ink htext))).bare_eq

/-- What the report says of the last failure, which stands at its end, does not end in white
space. -/
def LastFailureEndsInk (summary : Summary) : Prop :=
  ∀ failure, summary.failures.values.getLast? = some failure → Text.EndsInk failure.message

/-- Both reports say the same text up to its end, which is trimmed if colors are off. -/
structure SaysUpToEnd (style : PlainStyle) (summary : Summary) (theme : Option Theme)
    (kept : Text) : Prop where
  /-- In colors it is kept. -/
  colored : bare (audit (style.inColors true) summary theme) = line kept
  /-- Without colors its end is trimmed. -/
  uncolored : audit (style.inColors false) summary theme = line (Text.trimEnd kept)
  /-- There is nothing to trim unless the last failure ends in white space. -/
  endsInk_iff : Text.EndsInk kept ↔ LastFailureEndsInk summary

theorem audit_of_no_failures {summary : Summary} (hfailures : summary.failures.values = [])
    (theme : Option Theme) :
    audit style summary theme =
      line (Text.trimEnd (auditHead summary theme ++ auditBody style summary)) := by
  have hsection : failureSection style [] = [] := rfl
  rw [audit, hfailures, hsection, List.append_nil]

section Endings

variable {summary : Summary} (theme : Option Theme)

/-- A clean report ends in its praise, and nothing of that is trimmed. -/
theorem saysUpToEnd_clean (hfailures : summary.failures.values = [])
    (htotal : summary.totalIssues = 0) :
    SaysUpToEnd style summary theme
      (auditHead summary theme ++ "✓ No design token compliance issues found!") := by
  refine ⟨?_, ?_, ?_⟩
  · rw [audit_of_no_failures _ hfailures, auditBody, if_pos htotal]
    exact bare_trimEnd_paint .green (unescaped_auditHead summary theme).painting
      (unescaped_of_all (by decide))
  · rw [audit_of_no_failures _ hfailures, auditBody, if_pos htotal, trimEnd_paragraph]
    rfl
  · rw [Text.endsInk_append (by decide), LastFailureEndsInk, hfailures]
    refine iff_of_true (fun c hc => ?_) nofun
    cases hc
    decide

variable (h : summary.Unescaped)

include h

/-- A report with findings and no failures is trimmed in the same way with and without colors. -/
theorem saysUpToEnd_findings (hfailures : summary.failures.values = [])
    (htotal : summary.totalIssues ≠ 0) :
    SaysUpToEnd style summary theme
      (Text.trimEnd (auditHead summary theme ++ auditBody style summary)) := by
  have hends := Text.endsInk_trimEnd (auditHead summary theme ++ auditBody style summary)
  refine ⟨?_, ?_, ?_⟩
  · rw [audit_of_no_failures _ hfailures, auditBody_inColors style htotal]
    refine (painting_line (Unescaped.painting (Ink.unescaped_trimEnd ?_))).bare_eq
    rw [unescaped_append]
    exact ⟨unescaped_auditHead summary theme, unescaped_auditBody style h htotal⟩
  · rw [audit_of_no_failures _ hfailures, auditBody_inColors style htotal,
      Text.trimEnd_eq_self_iff.mpr hends]
  · rw [LastFailureEndsInk, hfailures]
    exact iff_of_true hends nofun

/-- With failures, white space at the end of the last message is trimmed only without colors. -/
theorem saysUpToEnd_failures {failures : List FileFailure} {last : FileFailure}
    (hfailures : summary.failures.values = failures ++ [last]) :
    SaysUpToEnd style summary theme
      (auditHead summary theme ++ auditBody (style.inColors false) summary ++
        failureFront (style.inColors false) failures ++ last.message) := by
  have hmem : ∀ failure ∈ failures ++ [last], failure.Unescaped := by
    rw [← hfailures]
    exact h.failures
  have hfront := ((unescaped_auditHead summary theme).painting.append
    (painting_auditBody style h)).append
      (painting_failureFront style fun failure hin => hmem failure (List.mem_append_left _ hin))
  refine ⟨?_, ?_, ?_⟩
  · rw [audit, hfailures, failureSection_concat, ← List.append_assoc]
    exact bare_trimEnd_paint .red hfront (hmem last (List.mem_append_right _ (.head _)))
  · rw [audit, hfailures, failureSection_concat, ← List.append_assoc, trimEnd_paragraph]
    rfl
  · have hlast : ∀ failure, (failures ++ [last]).getLast? = some failure ↔ last = failure := by
      simp
    have hne : last.message ≠ [] := by
      cases last <;> exact List.cons_ne_nil _ _
    rw [Text.endsInk_append hne, LastFailureEndsInk, hfailures]
    simp only [hlast, forall_eq']

theorem exists_saysUpToEnd : ∃ kept, SaysUpToEnd style summary theme kept := by
  rcases List.eq_nil_or_concat' summary.failures.values with hnone | ⟨failures, last, hlast⟩
  · by_cases htotal : summary.totalIssues = 0
    · exact ⟨_, saysUpToEnd_clean style theme hnone htotal⟩
    · exact ⟨_, saysUpToEnd_findings style theme h hnone htotal⟩
  · exact ⟨_, saysUpToEnd_failures style theme h hlast⟩

end Endings

/-! ## Both reports -/

/-- Taking the colors off gives the plain report exactly if its last failure ends in ink. -/
theorem bare_audit_eq_iff (style : PlainStyle) (theme : Option Theme) {summary : Summary}
    (h : summary.Unescaped) :
    bare (audit (style.inColors true) summary theme) = audit (style.inColors false) summary theme ↔
      LastFailureEndsInk summary := by
  obtain ⟨kept, hkept⟩ := exists_saysUpToEnd style theme h
  rw [hkept.colored, hkept.uncolored, line, line, List.append_cancel_right_eq, eq_comm,
    Text.trimEnd_eq_self_iff]
  exact hkept.endsInk_iff

/-- White space at the end is all that the two can differ in. -/
theorem trimEnd_bare_audit (style : PlainStyle) (theme : Option Theme) {summary : Summary}
    (h : summary.Unescaped) :
    line (Text.trimEnd (bare (audit (style.inColors true) summary theme))) =
      audit (style.inColors false) summary theme := by
  obtain ⟨kept, hkept⟩ := exists_saysUpToEnd style theme h
  rw [hkept.colored, hkept.uncolored, line, line, Text.trimEnd_append_blanks _ isBlanks_break]
  rfl

/-- A report in colors on YAML files is bare the report without colors.  A report in colors on an
audit is so exactly if the last failure does not end in white space, and it always is once the white
space at its end is trimmed. -/
theorem bare_reports (style : PlainStyle) (theme : Option Theme) {summary : Summary}
    {outcomes : List Outcome} (hsummary : summary.Unescaped)
    (houtcomes : ∀ outcome ∈ outcomes, outcome.Unescaped) :
    bare (yaml (style.inColors true) outcomes) = yaml (style.inColors false) outcomes ∧
      (bare (audit (style.inColors true) summary theme) =
          audit (style.inColors false) summary theme ↔ LastFailureEndsInk summary) ∧
      line (Text.trimEnd (bare (audit (style.inColors true) summary theme))) =
        audit (style.inColors false) summary theme :=
  ⟨(painting_yaml style houtcomes).bare_eq, bare_audit_eq_iff style theme hsummary,
    trimEnd_bare_audit style theme hsummary⟩

/-- An audit with one finding. -/
def oneFinding : FileAudit := FileAudit.empty.push (Summary.findingIn "a" 1 "#123")

/-- A summary with a finding, and with a failure for a file that was not there. -/
def withMissing (path : Text) : Summary :=
  (Summary.empty.insertFile (.ofText "a") oneFinding).insertFailure (.ofText path)
    (.notFound (.ofText path))

theorem unescaped_oneFinding : oneFinding.Unescaped := by
  intro found hmem
  cases List.mem_singleton.mp hmem
  constructor <;> exact unescaped_of_all (by decide)

theorem unescaped_withMissing {path : Text}
    (h : (FileFailure.notFound (.ofText path)).Unescaped) : (withMissing path).Unescaped := by
  constructor
  · intro audit hmem
    cases List.mem_singleton.mp hmem
    exact unescaped_oneFinding
  · intro failure hmem
    cases List.mem_singleton.mp hmem
    exact h

theorem bare_reports_missing :
    (withMissing "b").Unescaped ∧
      bare (yaml ((PlainStyle.default true).inColors true) [⟨.ofText "a", .ok oneFinding⟩]) =
        yaml ((PlainStyle.default true).inColors false) [⟨.ofText "a", .ok oneFinding⟩] ∧
      (bare (audit ((PlainStyle.default true).inColors true) (withMissing "b") none) =
          audit ((PlainStyle.default true).inColors false) (withMissing "b") none ↔
        LastFailureEndsInk (withMissing "b")) ∧
      line (Text.trimEnd
          (bare (audit ((PlainStyle.default true).inColors true) (withMissing "b") none))) =
        audit ((PlainStyle.default true).inColors false) (withMissing "b") none := by
  have hsummary : (withMissing "b").Unescaped :=
    unescaped_withMissing (unescaped_of_all (by decide))
  refine ⟨hsummary, bare_reports (.default true) none hsummary fun outcome hmem => ?_⟩
  cases List.mem_singleton.mp hmem
  refine ⟨unescaped_of_all (by decide), fun audit haudit => ?_, nofun⟩
  cases haudit
  exact unescaped_oneFinding

/-- The blank at the end of a name is lost if colors are off. -/
theorem not_forall_bare_audit :
    ¬ ∀ (style : PlainStyle) (summary : Summary) (theme : Option Theme), summary.Unescaped →
      bare (audit (style.inColors true) summary theme) =
        audit (style.inColors false) summary theme := by
  intro hall
  have hsummary : (withMissing "b ").Unescaped :=
    unescaped_withMissing (unescaped_of_all (by decide))
  have hequal := hall (.default true) (withMissing "b ") none hsummary
  have hends := (bare_audit_eq_iff _ _ hsummary).mp hequal
  have hblank : Text.isBlank ' ' = false := hends _ rfl ' ' (by decide)
  revert hblank
  decide

end PlainReport

end LiteralAudit
