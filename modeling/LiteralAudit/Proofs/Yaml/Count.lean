import LiteralAudit.Proofs.Yaml.Idle

/-!
# Counting documents

A text of blank lines and comments has one document, which is null (`values_of_idle`), and is
counted as none.  Every other count is the number of documents (`counts_countDocuments`).

Whether a text has content is not asked of the parser but of its lines.  A foreign space or break
can make content look blank, so that it is counted as none although it has a value.
-/

namespace LiteralAudit.Yaml

/-! ## The first token -/

namespace Scan

/-- The state in which the first token is taken. -/
def first (cursor : Cursor) : Scan := { start [] with cursor }

variable {text rest : Text} {cursor : Cursor} {place : Place}

theorem step_start (h : skipFrom false false true text .start = (cursor, true)) :
    (start text).step = (first cursor).takeToken >>= settle := by
  have hskip : (start text).skipToToken = first cursor := by
    have hstart : skipFrom (start text).inFlow false (start text).keyAllowed
        (start text).cursor.rest (start text).cursor.place = (cursor, true) := h
    rw [skipToToken, hstart]
    rfl
  rw [step, hskip]
  rfl

/-- If nothing but idle lines are there, the first step ends the tokens. -/
theorem step_start_end (h : skipFrom false false true text .start = (⟨[], place⟩, true)) :
    ∃ next stop, (start text).step = .ok next ∧ next.ended = true ∧
      next.settledTokens = [⟨.textEnd, stop⟩] := by
  have htake : (first ⟨[], place⟩).takeToken = (first ⟨[], place⟩).takeEnd := rfl
  have hplace : (first ⟨[], place⟩).place = place := rfl
  rw [step_start h, htake, takeEnd, hplace]
  by_cases hcolumn : place.column = 0
  · rw [if_pos hcolumn]
    exact ⟨_, place, rfl, rfl, rfl⟩
  · rw [if_neg hcolumn]
    exact ⟨_, place.newLine 0, rfl, rfl, rfl⟩

theorem step_start_tab (h : skipFrom false false true text .start = (⟨'\t' :: rest, place⟩, true)) :
    (start text).step = .error (.within .nextToken place .strayCharacter place) := by
  have hmarker (mark : Char) (hmark : mark ≠ '\t') : isMarker mark ('\t' :: rest) = false := by
    rw [isMarker.eq_def]
    split
    · next heq =>
        cases heq
        simp [hmark.symm]
    · rfl
  have htake : (first ⟨'\t' :: rest, place⟩).takeToken =
      .error (.within .nextToken place .strayCharacter place) := by
    simp [takeToken, first, hmarker, startsPlain, isGap, Scan.place]
  rw [step_start h, htake]
  rfl

end Scan

/-! ## Values -/

theorem Document.value_void : Document.void.value = .ok .null := by
  have hread (fuel : Nat) :
      Document.void.readNode (fuel + 1) Document.maxDepth [] false ⟨0, 0⟩ =
        .ok (.null, ⟨1, 0⟩) := by
    rw [Document.readNode]
    rfl
  have hbound : Document.void.walkBound = 1223 + 1 := rfl
  rw [Document.value, hbound, hread]
  rfl

/-- A document that breaks off before its first step has no value. -/
theorem Document.value_broken (fault : DocumentFault) :
    (Document.mk #[] [] (some fault)).value = .error (.document fault) := by
  have hread (fuel : Nat) :
      (Document.mk #[] [] (some fault)).readNode (fuel + 1) Document.maxDepth [] false ⟨0, 0⟩ =
        .error (.document fault) := by
    rw [Document.readNode]
    rfl
  have hbound : (Document.mk #[] [] (some fault)).walkBound = 15 + 1 := rfl
  rw [Document.value, hbound, hread]
  rfl

/-- Where skipping what stands before the first token ends. -/
theorem skipFrom_start (text : Text) : ∃ cursor,
    Scan.skipFrom false false true text .start = (cursor, true) := by
  have hallowed := skipFrom_snd false text .start
  cases hskip : Scan.skipFrom false false true text .start with
  | mk cursor keyAllowed =>
      rw [hskip] at hallowed
      cases hallowed
      exact ⟨cursor, rfl⟩

/-- A text without a token has one document that holds nothing. -/
theorem documents_of_skipFrom_end {text : Text} {place : Place}
    (h : Scan.skipFrom false false true text .start = (⟨[], place⟩, true)) :
    documents text = [Document.void] := by
  obtain ⟨next, stop, hstep, hended, htokens⟩ := Scan.step_start_end h
  have hstream : TokenStream.ofText text = ⟨[⟨.textEnd, stop⟩], none⟩ := by
    rw [TokenStream.ofText, Scan.run, hstep, ← htokens]
    exact if_pos hended
  rw [documents, hstream]
  rfl

theorem documents_of_skipFrom_tab {text rest : Text} {place : Place}
    (h : Scan.skipFrom false false true text .start = (⟨'\t' :: rest, place⟩, true)) :
    documents text =
      [⟨#[], [], some (.malformed (.within .nextToken place .strayCharacter place))⟩] := by
  have hstream : TokenStream.ofText text =
      ⟨[], some (.within .nextToken place .strayCharacter place)⟩ := by
    rw [TokenStream.ofText, Scan.run, Scan.step_start_tab h]
    rfl
  rw [documents, hstream]
  rfl

/-- As long as no document has ended, there is one to come. -/
theorem ofEventsFrom_ne_nil (fault : Option SyntaxFault) (draft : Document.Draft)
    (events : List Event) : Document.ofEventsFrom fault draft true events ≠ [] := by
  induction events generalizing draft with
  | nil =>
      rw [Document.ofEventsFrom.eq_def]
      cases fault <;> exact List.cons_ne_nil _ _
  | cons event events ih =>
      obtain ⟨kind, place⟩ := event
      rw [Document.ofEventsFrom.eq_def]
      cases kind with
      | documentStart => exact ih _
      | documentEnd => exact List.cons_ne_nil _ _
      | «alias» name =>
          dsimp only
          split
          · exact ih _
          · exact List.cons_ne_nil _ _
      | scalar properties text isPlain => exact ih _
      | sequenceStart properties => exact ih _
      | sequenceEnd => exact ih _
      | mappingStart properties => exact ih _
      | mappingEnd => exact ih _

/-- If all values can be read, each document has given its own. -/
theorem values_ok {text : Text} {results : List Value} (h : values text = .ok results) :
    (documents text).mapM Document.value = .ok results := by
  rw [values] at h
  split at h
  · cases h
  · exact h

/-- Every text that can be read has a value. -/
theorem ne_nil_of_values {text : Text} {results : List Value} (h : values text = .ok results) :
    results ≠ [] := by
  have hmapM := values_ok h
  obtain ⟨document, later, hdocuments⟩ := List.exists_cons_of_ne_nil
    (ofEventsFrom_ne_nil (EventStream.ofTokens (.ofText text)).fault .empty
      (EventStream.ofTokens (.ofText text)).events)
  rw [documents, Document.ofEvents, hdocuments, List.mapM_cons] at hmapM
  cases hvalue : document.value with
  | error fault =>
      rw [hvalue] at hmapM
      cases hmapM
  | ok value =>
      cases hlater : later.mapM Document.value with
      | error fault =>
          rw [hvalue, hlater] at hmapM
          cases hmapM
      | ok values =>
          rw [hvalue, hlater] at hmapM
          cases hmapM
          exact List.cons_ne_nil _ _

/-- Blank lines and comments are no content.  What is read of them is null. -/
theorem values_of_idle {text : Text} {results : List Value} (hvalues : values text = .ok results)
    (hidle : IsIdle text) : results = [.null] := by
  have hrest : (Scan.skipFrom false false true text .start).1.rest = [] :=
    rest_skipFrom_of_idle false text .start
      (fun _ line hline => .inr ⟨rfl, hidle line (List.mem_of_head? hline)⟩)
      (fun line hline => hidle line (List.mem_of_mem_tail hline))
  obtain ⟨⟨rest, place⟩, hskip⟩ := skipFrom_start text
  rw [hskip] at hrest
  cases hrest
  have hmapM := values_ok hvalues
  rw [documents_of_skipFrom_end hskip, List.mapM_cons, Document.value_void] at hmapM
  cases hmapM
  rfl

/-- Where no white space is foreign, lines that look idle elsewhere are no content. -/
theorem values_of_isIdleLine {text : Text} {results : List Value}
    (hvalues : values text = .ok results) (hplain : ∀ c ∈ text, isForeignBlank c = false)
    (hidle : ∀ line ∈ Text.splitLines text, isIdleLine line = true) : results = [.null] := by
  have hhead := head_skipFrom_of_isIdleLine false text .start hplain
    (fun _ line hline => hidle line (List.mem_of_head? hline))
    (fun line hline => hidle line (List.mem_of_mem_tail hline))
  obtain ⟨⟨rest, place⟩, hskip⟩ := skipFrom_start text
  rw [hskip] at hhead
  have hmapM := values_ok hvalues
  cases rest with
  | nil =>
      rw [documents_of_skipFrom_end hskip, List.mapM_cons, Document.value_void] at hmapM
      cases hmapM
      rfl
  | cons c rest =>
      cases hhead c rfl
      rw [documents_of_skipFrom_tab hskip, List.mapM_cons, Document.value_broken] at hmapM
      cases hmapM

/-! ## Counting -/

/-- A number of documents fits the values of a text. -/
structure Counts (text : Text) (results : List Value) (count : Nat) : Prop where
  /-- Every value is counted if any is. -/
  many : count ≠ 0 → results.length = count
  /-- None is counted where there is nothing to count. -/
  idle : count = 0 → IsIdle text → results = [.null]
  /-- With plain white space, that is the only reason to count none. -/
  plain : count = 0 → (∀ c ∈ text, isForeignBlank c = false) → results = [.null]

/-- A count other than zero counts all values.  Zero stands for a single null where the text is
idle, and for nothing else if its white space is plain. -/
theorem counts_countDocuments {text : Text} {count : Nat} (h : countDocuments text = .ok count) :
    ∃ results, values text = .ok results ∧ Counts text results count := by
  rw [countDocuments] at h
  cases hvalues : values text with
  | error fault =>
      rw [hvalues] at h
      cases h
  | ok results =>
      rw [hvalues] at h
      cases h
      refine ⟨results, rfl, ?_, ?_, ?_⟩
      · intro hcount
        split at hcount
        · exact absurd rfl hcount
        · next hlines => rw [if_neg hlines]
      · exact fun _ hidle => values_of_idle hvalues hidle
      · intro hcount hplain
        split at hcount
        · next hlines => exact values_of_isIdleLine hvalues hplain (List.all_eq_true.mp hlines)
        · exact absurd (List.eq_nil_of_length_eq_zero hcount) (ne_nil_of_values hvalues)

/-- A comment with a foreign space in it, and a line of spaces. -/
def spacedComment : Text := "  # caf\u00e9\u00a0au lait\n  "

theorem counts_countDocuments_spacedComment :
    countDocuments spacedComment = .ok 0 ∧ IsIdle spacedComment ∧
      ∃ results, values spacedComment = .ok results ∧ Counts spacedComment results 0 := by
  have hcount : countDocuments spacedComment = .ok 0 := by decide +kernel
  exact ⟨hcount, by decide, counts_countDocuments hcount⟩

/-- A space that YAML takes for a word. -/
def foreignSpace : Text := "\u00a0"

/-- Whether there is one value, which is a given text. -/
def isOneText (text : Text) : Except Fault (List Value) → Bool
  | .ok [.text value] => value = text
  | _ => false

/-- A text is counted as none although it has content. -/
theorem not_forall_values_of_countDocuments : ¬∀ text, countDocuments text = .ok 0 →
    ∃ results, values text = .ok results ∧ (results = [] ∨ results = [.null]) := by
  intro h
  have hcount : countDocuments foreignSpace = .ok 0 := by decide +kernel
  obtain ⟨results, hvalues, hnull⟩ := h foreignSpace hcount
  have htext : isOneText foreignSpace (values foreignSpace) = true := by decide +kernel
  rw [hvalues] at htext
  rcases hnull with rfl | rfl
  · cases htext
  · cases htext

end LiteralAudit.Yaml
