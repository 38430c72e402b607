import LiteralAudit.Proofs.Ends
import LiteralAudit.Proofs.Yaml.Token
import LiteralAudit.Yaml.Token.Stream
import Mathlib.Data.List.InsertIdx

/-!
# The places of tokens

All places that scanning keeps are places of the text: those of the tokens, of the candidates and
of the fault that ends the tokens (`TokenStream.hasPlaces_ofText`).  Between two tokens this is
an invariant of the state (`Scan.At`), and every way to take a token keeps it
(`Scan.At.ends_takeToken`, with one theorem for each token before it).
-/

namespace LiteralAudit.Yaml

open Cursor

/-- A place that reading a text reaches. -/
def Place.IsIn (text : Text) (place : Place) : Prop :=
  ∃ rest, (Cursor.ofText text).Reaches ⟨rest, place⟩

theorem Place.isIn_start (text : Text) : Place.start.IsIn text := ⟨text, .refl _⟩

/-- A fault at a place that reading a text reaches. -/
def SyntaxFault.IsIn (text : Text) (fault : SyntaxFault) : Prop := fault.place.IsIn text

/-- What is read from a cursor of a text stays in the text. -/
theorem Cursor.Reads.ends {α : Type} {text : Text} {cursor : Cursor} {stop : α → Cursor}
    {result : Except SyntaxFault α} (hreads : cursor.Reads stop result)
    (hcursor : (Cursor.ofText text).Reaches cursor) :
    Ends (SyntaxFault.IsIn text) (fun read => (Cursor.ofText text).Reaches (stop read)) result := by
  cases result with
  | ok => exact hcursor.trans hreads
  | error =>
      obtain ⟨rest, hrest⟩ := hreads
      exact ⟨rest, hcursor.trans hrest⟩

/-- All places of a stream of tokens are places of a text. -/
structure TokenStream.HasPlaces (text : Text) (stream : TokenStream) : Prop where
  /-- The places of the tokens. -/
  tokens : ∀ token ∈ stream.tokens, token.place.IsIn text
  /-- The place of the fault. -/
  fault : ∀ fault ∈ stream.fault, fault.place.IsIn text

namespace Scan

/-- Scanning a text has come to a cursor, and all places that are kept are places of the text. -/
structure At (text : Text) (cursor : Cursor) (scan : Scan) : Prop where
  /-- The cursor. -/
  cursor_eq : scan.cursor = cursor
  /-- It is reached. -/
  reaches : (Cursor.ofText text).Reaches cursor
  /-- The places of the tokens. -/
  tokens : ∀ token ∈ scan.tokens, token.place.IsIn text
  /-- The place of the candidate. -/
  candidate : ∀ key ∈ scan.candidate, key.place.IsIn text
  /-- The places of the candidates outside. -/
  outer : ∀ candidate ∈ scan.outer, ∀ key ∈ candidate, key.place.IsIn text

/-- Scanning goes on in a text, or there is a fault at a place of it. -/
abbrev Advances (text : Text) (result : Except SyntaxFault Scan) : Prop :=
  Ends (SyntaxFault.IsIn text) (fun next => ∃ stop, next.At text stop) result

/-- Scanning stays at a cursor, or there is a fault at a place of the text. -/
abbrev Stays (text : Text) (cursor : Cursor) (result : Except SyntaxFault Scan) : Prop :=
  Ends (SyntaxFault.IsIn text) (fun next => next.At text cursor) result

theorem at_start (text : Text) : (start text).At text (.ofText text) :=
  ⟨rfl, .refl _, nofun, nofun, nofun⟩

variable {text : Text} {cursor next : Cursor} {scan : Scan}

namespace At

theorem isIn (h : scan.At text cursor) : scan.place.IsIn text := by
  rw [place, h.cursor_eq]
  exact ⟨cursor.rest, h.reaches⟩

/-! ## Tokens and candidates -/

theorem add (h : scan.At text cursor) (kind : TokenKind) {place : Place}
    (hplace : place.IsIn text) : (scan.add kind place).At text cursor :=
  { h with tokens := List.forall_mem_cons.mpr ⟨hplace, h.tokens⟩ }

theorem addBefore (h : scan.At text cursor) (number : Nat) (kind : TokenKind) {place : Place}
    (hplace : place.IsIn text) : (scan.addBefore number kind place).At text cursor := by
  refine { h with tokens := fun token htoken => ?_ }
  rcases List.eq_or_mem_of_mem_insertIdx htoken with rfl | hmem
  · exact hplace
  · exact h.tokens token hmem

/-- The cursor moves on. -/
theorem move (h : scan.At text cursor) (hnext : (Cursor.ofText text).Reaches next) :
    { scan with cursor := next }.At text next :=
  { h with cursor_eq := rfl, reaches := hnext }

theorem addMark (h : scan.At text cursor) (hkeeps : cursor.KeepsLine) (kind : TokenKind) :
    (scan.addMark kind).At text cursor.skip := by
  rw [Scan.addMark, h.cursor_eq]
  exact (h.add kind h.isIn).move (h.reaches.trans (reaches_skip hkeeps))

/-- Giving up a key that is required is a fault at the place of the scan. -/
theorem ends_giveUp (h : scan.At text cursor) (candidate : Option KeyCandidate) :
    Ends (SyntaxFault.IsIn text) (fun _ => True) (scan.giveUp candidate) := by
  rw [giveUp.eq_def]
  split
  · exact .ite (fun _ => h.isIn) trivial
  · trivial

theorem ends_dropCandidate (h : scan.At text cursor) : Stays text cursor scan.dropCandidate :=
  .bind (h.ends_giveUp _) fun _ _ => { h with candidate := nofun }

theorem ends_saveCandidate (h : scan.At text cursor) : Stays text cursor scan.saveCandidate := by
  refine .ite (fun _ => .bind h.ends_dropCandidate fun next hnext => ?_) h
  refine { hnext with candidate := ?_ }
  rintro key ⟨⟩
  exact hnext.isIn

/-- A candidate that is too old is dropped, and others keep their places. -/
theorem ends_refresh (h : scan.At text cursor) {candidate : Option KeyCandidate}
    (hcandidate : ∀ key ∈ candidate, key.place.IsIn text) :
    Ends (SyntaxFault.IsIn text) (fun next => ∀ key ∈ next, key.place.IsIn text)
      (scan.refresh candidate) :=
  .ite (fun _ => .bind (h.ends_giveUp _) fun _ _ => nofun) hcandidate

theorem ends_refreshAll (h : scan.At text cursor) : Stays text cursor scan.refreshAll := by
  refine .bind (.mapM fun candidate hmem => h.ends_refresh (h.outer _ (List.mem_reverse.mp hmem)))
    fun outer houter => .bind (h.ends_refresh h.candidate) fun candidate hcandidate => ?_
  refine { h with candidate := hcandidate, outer := ?_ }
  exact fun other hmem => houter other (List.mem_reverse.mp hmem)

theorem ends_settle (h : scan.At text cursor) : Stays text cursor scan.settle :=
  .bind h.ends_refreshAll fun _ hnext => { hnext with }

/-! ## Blocks and gaps -/

/-- A block that is opened begins at a place of the text, also if its token goes before others. -/
theorem openBlock (h : scan.At text cursor) (column : Nat) (kind : TokenKind) (number : Nat)
    {place : Place} (hplace : place.IsIn text) :
    (scan.openBlock column kind number place).At text cursor := by
  rw [Scan.openBlock]
  split
  · exact { h.addBefore number kind hplace with }
  · exact h

theorem closeWhile (p : Nat → Bool) (indents : List Nat) (h : scan.At text cursor) :
    (scan.closeWhile p indents).At text cursor := by
  induction indents generalizing scan with
  | nil => exact { h with }
  | cons indent outer ih =>
      rw [Scan.closeWhile]
      split
      · exact ih (h.add _ h.isIn)
      · exact { h with }

theorem closeBlocks (h : scan.At text cursor) (p : Nat → Bool) :
    (scan.closeBlocks p).At text cursor := by
  rw [Scan.closeBlocks]
  split
  · exact h
  · exact h.closeWhile p scan.indents

end At

/-- White space, breaks and comments are passed up to the next token. -/
theorem reaches_skipFrom (inFlow inComment keyAllowed : Bool) (text : Text) (place : Place) :
    Reaches ⟨text, place⟩ (skipFrom inFlow inComment keyAllowed text place).1 := by
  fun_induction skipFrom inFlow inComment keyAllowed text place with
  | case1 => exact .refl _
  | case2 inComment keyAllowed rest place ih => exact .pair ih
  | case3 inComment keyAllowed c rest place hpair hbreak ih => exact .newLine hbreak hpair ih
  | case4 inComment keyAllowed c rest place hpair hbreak hcomment ih =>
      exact .char (Bool.eq_false_iff.mpr hbreak) ih
  | case5 inComment keyAllowed c rest place hpair hbreak hcomment hgap ih =>
      exact .char (Bool.eq_false_iff.mpr hbreak) ih
  | case6 => exact .refl _

namespace At

theorem skipToToken (h : scan.At text cursor) : ∃ next, scan.skipToToken.At text next := by
  have hskip := reaches_skipFrom scan.inFlow false scan.keyAllowed cursor.rest cursor.place
  rw [Scan.skipToToken, h.cursor_eq]
  exact ⟨_, { h.move (h.reaches.trans hskip) with }⟩

/-! ## Every token -/

/-- A token that is read from the cursor. -/
theorem ends_read {α : Type} {stop : α → Cursor} {read : Except SyntaxFault α}
    (h : scan.At text cursor) (hread : cursor.Reads stop read) (kind : α → TokenKind)
    (keyAllowed : α → Bool) :
    Advances text (do
      let value ← read
      .ok { scan.add (kind value) scan.place with
        cursor := stop value, keyAllowed := keyAllowed value }) :=
  .bind (hread.ends h.reaches) fun _ hstop => ⟨_, { (h.add _ h.isIn).move hstop with }⟩

theorem ends_takeEnd (h : scan.At text cursor) (hrest : cursor.rest = []) :
    Advances text scan.takeEnd := by
  obtain ⟨rest, place⟩ := cursor
  cases hrest
  have hlast : ∃ stop, Scan.At text stop (if scan.place.column = 0 then scan
      else { scan with cursor := ⟨[], scan.place.newLine 0⟩ }) := by
    have hplace : scan.place = place := by rw [Scan.place, h.cursor_eq]
    rw [hplace]
    split
    · exact ⟨_, h⟩
    · next hcolumn => exact ⟨_, h.move (h.reaches.trans (.final hcolumn))⟩
  obtain ⟨stop, hstop⟩ := hlast
  refine .bind (hstop.closeBlocks _).ends_dropCandidate fun next hnext => ?_
  exact ⟨stop, { hnext.add _ hnext.isIn with }⟩

theorem ends_takeDirective (h : scan.At text cursor) (hkeeps : cursor.KeepsLine) :
    Advances text scan.takeDirective := by
  refine .bind (h.closeBlocks _).ends_dropCandidate fun next hnext => ?_
  rw [hnext.cursor_eq]
  exact hnext.ends_read (Directive.reads_scan hkeeps) (fun read => read.1) fun _ => false

/-- A marker of a document is taken as a whole, and closes all blocks. -/
theorem ends_takeMarker (h : scan.At text cursor) (kind : TokenKind)
    (hmarker : cursor.Reaches (cursor.skipMany 3)) : Advances text (scan.takeMarker kind) := by
  refine .bind (h.closeBlocks _).ends_dropCandidate fun next hnext => ?_
  rw [hnext.cursor_eq]
  exact ⟨_, { (hnext.add kind hnext.isIn).move (hnext.reaches.trans hmarker) with }⟩

theorem ends_takeOpening (h : scan.At text cursor) (hkeeps : cursor.KeepsLine) (kind : TokenKind) :
    Advances text (scan.takeOpening kind) := by
  refine .bind h.ends_saveCandidate fun next hnext => ?_
  refine ⟨_, { hnext.addMark hkeeps kind with candidate := nofun, outer := ?_ }⟩
  exact List.forall_mem_cons.mpr ⟨hnext.candidate, hnext.outer⟩

theorem ends_takeClosing (h : scan.At text cursor) (hkeeps : cursor.KeepsLine) (kind : TokenKind) :
    Advances text (scan.takeClosing kind) := by
  refine .bind h.ends_dropCandidate fun next hnext => ?_
  cases houter : next.outer with
  | nil => exact ⟨_, { hnext.addMark hkeeps kind with }⟩
  | cons candidate outer =>
      have hclosed := hnext.outer
      rw [houter, List.forall_mem_cons] at hclosed
      have hnext' : Scan.At text cursor { next with candidate, outer } :=
        { hnext with candidate := hclosed.1, outer := hclosed.2 }
      exact ⟨_, { hnext'.addMark hkeeps kind with }⟩

theorem ends_takeComma (h : scan.At text cursor) (hkeeps : cursor.KeepsLine) :
    Advances text scan.takeComma :=
  .bind h.ends_dropCandidate fun _ hnext => ⟨_, { hnext.addMark hkeeps _ with }⟩

theorem ends_takeDash (h : scan.At text cursor) (hkeeps : cursor.KeepsLine) :
    Advances text scan.takeDash :=
  .ite (fun _ => h.isIn) (.bind (h.openBlock _ _ _ h.isIn).ends_dropCandidate fun _ hnext =>
    ⟨_, { hnext.addMark hkeeps _ with }⟩)

theorem ends_takeKey (h : scan.At text cursor) (hkeeps : cursor.KeepsLine) :
    Advances text scan.takeKey :=
  .ite (fun _ => h.isIn) (.bind (h.openBlock _ _ _ h.isIn).ends_dropCandidate fun _ hnext =>
    ⟨_, { hnext.addMark hkeeps _ with }⟩)

/-- A colon makes the candidate a key, with a token in front of those that came since. -/
theorem ends_takeValue (h : scan.At text cursor) (hkeeps : cursor.KeepsLine) :
    Advances text scan.takeValue := by
  rw [takeValue]
  cases hcandidate : scan.candidate with
  | some key =>
      have hkey := h.candidate key hcandidate
      have hopen := (h.addBefore key.number .key hkey).openBlock key.place.column
        .blockMappingStart key.number hkey
      exact ⟨_, { hopen.addMark hkeeps .value with candidate := nofun }⟩
  | none =>
      exact .ite (fun _ => h.isIn)
        ⟨_, { (h.openBlock _ _ _ h.isIn).addMark hkeeps .value with }⟩

theorem ends_takeAlias (h : scan.At text cursor) (hkeeps : cursor.KeepsLine) :
    Advances text scan.takeAlias := by
  refine .bind h.ends_saveCandidate fun next hnext => ?_
  rw [hnext.cursor_eq]
  exact hnext.ends_read (Anchor.reads_scan _ hkeeps) (fun read => .alias read.1) fun _ => false

theorem ends_takeAnchor (h : scan.At text cursor) (hkeeps : cursor.KeepsLine) :
    Advances text scan.takeAnchor := by
  refine .bind h.ends_saveCandidate fun next hnext => ?_
  rw [hnext.cursor_eq]
  exact hnext.ends_read (Anchor.reads_scan _ hkeeps) (fun read => .anchor read.1) fun _ => false

theorem ends_takeTag (h : scan.At text cursor) (hkeeps : cursor.KeepsLine) :
    Advances text scan.takeTag := by
  refine .bind h.ends_saveCandidate fun next hnext => ?_
  rw [hnext.cursor_eq]
  exact hnext.ends_read (Tag.reads_scan hkeeps) (fun read => .tag read.1 read.2.1) fun _ => false

/-- A block scalar is read with its lines, up to one that is indented less. -/
theorem ends_takeBlockScalar (h : scan.At text cursor) (hkeeps : cursor.KeepsLine)
    (isLiteral : Bool) : Advances text (scan.takeBlockScalar isLiteral) := by
  refine .bind h.ends_dropCandidate fun next hnext => ?_
  rw [hnext.cursor_eq]
  exact hnext.ends_read (Block.reads_scan hkeeps) (fun read => .scalar read.1 false) fun _ => true

/-- A quoted scalar may be a key, so its place is kept. -/
theorem ends_takeQuoted (h : scan.At text cursor) (hkeeps : cursor.KeepsLine) (quote : Char) :
    Advances text (scan.takeQuoted quote) := by
  refine .bind h.ends_saveCandidate fun next hnext => ?_
  rw [hnext.cursor_eq]
  exact hnext.ends_read (Quoted.reads_scan hkeeps) (fun read => .scalar read.1 false) fun _ => false

theorem ends_takePlain (h : scan.At text cursor) : Advances text scan.takePlain := by
  refine .bind h.ends_saveCandidate fun next hnext => ?_
  rw [hnext.cursor_eq]
  exact hnext.ends_read (Plain.reads_scan ..) (fun read => .scalar read.text true)
    fun read => read.brokeLine

/-- The characters of a marker break no line. -/
theorem reaches_marker {mark : Char} (hmark : isBreak mark = false)
    (h : isMarker mark cursor.rest = true) : cursor.Reaches (cursor.skipMany 3) := by
  refine reaches_skipMany ?_
  rw [isMarker.eq_def] at h
  split at h
  · next a b c rest hrest =>
      simp only [Bool.and_eq_true, decide_eq_true_eq] at h
      obtain ⟨⟨⟨rfl, rfl⟩, rfl⟩, -⟩ := h
      simp [hrest, hmark]
  · cases h

/-- Whatever the next character is, the scan advances within the text. -/
theorem ends_takeToken (h : scan.At text cursor) : Advances text scan.takeToken := by
  rw [takeToken, h.cursor_eq]
  cases hrest : cursor.rest with
  | nil => exact h.ends_takeEnd hrest
  | cons c rest =>
      have hkeeps (d : Char) (hd : isBreak d = false) (hc : c = d) : cursor.KeepsLine := by
        subst hc
        intro next hnext
        rw [hrest] at hnext
        cases hnext
        exact hd
      dsimp only
      have hfirst (d : Char) (hd : isBreak d = false) (q : Bool)
          (hc : (decide (c = d) && q) = true) : cursor.KeepsLine :=
        hkeeps d hd (of_decide_eq_true (Bool.and_eq_true_iff.mp hc).1)
      have hmarker (mark : Char) (hmark : isBreak mark = false) (q : Bool)
          (hc : (q && isMarker mark (c :: rest)) = true) : cursor.Reaches (cursor.skipMany 3) :=
        reaches_marker hmark (hrest ▸ (Bool.and_eq_true_iff.mp hc).2)
      -- One line for each token, in the order in which they are tried.
      exact
        .ite (fun hc => h.ends_takeDirective
          (hkeeps '%' rfl (of_decide_eq_true (Bool.and_eq_true_iff.mp hc).2))) <|
        .ite (fun hc => h.ends_takeMarker _ (hmarker '-' rfl _ hc)) <|
        .ite (fun hc => h.ends_takeMarker _ (hmarker '.' rfl _ hc)) <|
        .ite (fun hc => h.ends_takeOpening (hkeeps '[' rfl hc) _) <|
        .ite (fun hc => h.ends_takeOpening (hkeeps '\x7b' rfl hc) _) <|
        .ite (fun hc => h.ends_takeClosing (hkeeps ']' rfl hc) _) <|
        .ite (fun hc => h.ends_takeClosing (hkeeps '\x7d' rfl hc) _) <|
        .ite (fun hc => h.ends_takeComma (hkeeps ',' rfl hc)) <|
        .ite (fun hc => h.ends_takeDash (hfirst '-' rfl _ hc)) <|
        .ite (fun hc => h.ends_takeKey (hfirst '?' rfl _ hc)) <|
        .ite (fun hc => h.ends_takeValue (hfirst ':' rfl _ hc)) <|
        .ite (fun hc => h.ends_takeAlias (hkeeps '*' rfl hc)) <|
        .ite (fun hc => h.ends_takeAnchor (hkeeps '&' rfl hc)) <|
        .ite (fun hc => h.ends_takeTag (hkeeps '!' rfl hc)) <|
        .ite (fun hc => h.ends_takeBlockScalar (hfirst '|' rfl _ hc) _) <|
        .ite (fun hc => h.ends_takeBlockScalar (hfirst '>' rfl _ hc) _) <|
        .ite (fun hc => h.ends_takeQuoted (hkeeps '\'' rfl hc) _) <|
        .ite (fun hc => h.ends_takeQuoted (hkeeps '"' rfl hc) _) <|
        .ite (fun _ => h.ends_takePlain) h.isIn

/-- A step skips to the next token and takes it. -/
theorem ends_step (h : scan.At text cursor) : Advances text scan.step := by
  obtain ⟨behind, hbehind⟩ := h.skipToToken
  refine .bind hbehind.ends_refreshAll fun ready hready => ?_
  refine .bind (hready.closeBlocks _).ends_takeToken fun taken htaken => ?_
  obtain ⟨stop, hstop⟩ := htaken
  exact hstop.ends_settle.imp fun next hnext => ⟨stop, hnext⟩

theorem mem_settledTokens (h : scan.At text cursor) :
    ∀ token ∈ scan.settledTokens, token.place.IsIn text := by
  intro token htoken
  exact h.tokens token (List.mem_of_mem_drop (List.mem_reverse.mp htoken))

/-- After any number of steps all places are places of the text. -/
theorem hasPlaces_run (fuel : Nat) (h : scan.At text cursor) : (run fuel scan).HasPlaces text := by
  induction fuel generalizing scan cursor with
  | zero => exact ⟨h.mem_settledTokens, fun _ hfault => nomatch hfault⟩
  | succ fuel ih =>
      have hstep := h.ends_step
      rw [run]
      cases hnext : scan.step with
      | error fault =>
          rw [hnext] at hstep
          refine ⟨h.mem_settledTokens, ?_⟩
          rintro fault ⟨⟩
          exact hstep
      | ok next =>
          rw [hnext] at hstep
          obtain ⟨stop, hstop⟩ := hstep
          dsimp only
          split
          · exact ⟨hstop.mem_settledTokens, fun _ hfault => nomatch hfault⟩
          · exact ih hstop

end At
end Scan

/-- All places of the tokens of a text are places of the text. -/
theorem TokenStream.hasPlaces_ofText (text : Text) : (TokenStream.ofText text).HasPlaces text :=
  (Scan.at_start text).hasPlaces_run _

end LiteralAudit.Yaml
