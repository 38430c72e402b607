import LiteralAudit.Proofs.Yaml.Scan
import LiteralAudit.Yaml.Event.Stream

/-!
# The places of events

The machine that makes events out of tokens takes all its places from the tokens, so they are
places of the text (`EventStream.hasPlaces_ofTokens`).  One theorem for each thing that can be
expected says so of one step (`Walk.HasPlaces.ends_step`).
-/

namespace LiteralAudit.Yaml

/-- All places of a stream of events are places of a text. -/
structure EventStream.HasPlaces (text : Text) (stream : EventStream) : Prop where
  /-- The places of the events. -/
  events : ∀ event ∈ stream.events, event.place.IsIn text
  /-- The place of the fault. -/
  fault : ∀ fault ∈ stream.fault, fault.place.IsIn text

theorem EventStream.HasPlaces.nil (text : Text) : HasPlaces text ⟨[], none⟩ :=
  ⟨List.forall_mem_nil _, fun _ hfault => nomatch hfault⟩

namespace Walk

/-- All places to come are places of a text. -/
structure HasPlaces (text : Text) (walk : Walk) : Prop where
  /-- The places of the tokens. -/
  tokens : ∀ token ∈ walk.tokens, token.place.IsIn text
  /-- The place of the fault behind them. -/
  fault : ∀ fault ∈ walk.fault, fault.place.IsIn text

/-- An event is at a place of a text, and all places to come are too. -/
def Emits (text : Text) (step : Option (Event × Walk)) : Prop :=
  ∀ event walk, step = some (event, walk) → event.place.IsIn text ∧ walk.HasPlaces text

/-- The machine goes on in a text, or there is a fault at a place of it. -/
abbrev Proceeds (text : Text) (step : Step) : Prop := Ends (SyntaxFault.IsIn text) (Emits text) step

variable {text : Text} {walk : Walk}

theorem ends_none (text : Text) : Proceeds text (.ok none) := by
  intro event walk h
  cases h

namespace HasPlaces

/-- The next token is at a place of the text, and so is the fault instead of it. -/
theorem ends_peek (h : walk.HasPlaces text) :
    Ends (SyntaxFault.IsIn text) (fun token => token.place.IsIn text) walk.peek := by
  rw [peek]
  split
  · next token tokens htokens => exact h.tokens token (htokens ▸ List.mem_cons_self)
  · split
    · next fault hfault => exact h.fault fault hfault
    · exact Place.isIn_start text

theorem skip (h : walk.HasPlaces text) : walk.skip.HasPlaces text :=
  ⟨fun token hmem => h.tokens token (List.mem_of_mem_drop hmem), h.fault⟩

theorem push (h : walk.HasPlaces text) (expected : Expected) :
    (walk.push expected).HasPlaces text := ⟨h.tokens, h.fault⟩

theorem ends_emit (h : walk.HasPlaces text) (kind : EventKind) {place : Place}
    (hplace : place.IsIn text) : Proceeds text (walk.emit kind place) := by
  rintro event walk ⟨⟩
  exact ⟨hplace, h⟩

theorem ends_emitEmpty (h : walk.HasPlaces text) {place : Place} (hplace : place.IsIn text) :
    Proceeds text (walk.emitEmpty place) := h.ends_emit _ hplace

/-! ## Documents -/

/-- Directives leave tokens behind that were there before. -/
theorem ends_readDirectives (sawVersion : Bool) (handles : List (Text × List UInt8))
    {tokens : List Token} (htokens : ∀ token ∈ tokens, token.place.IsIn text) :
    Ends (SyntaxFault.IsIn text) (fun read => ∀ token ∈ read.2, token.place.IsIn text)
      (readDirectives sawVersion handles tokens) := by
  fun_induction readDirectives sawVersion handles tokens with
  | case1 => exact htokens _ List.mem_cons_self
  | case2 sawVersion handles major minor place tokens _ _ ih =>
      exact ih (List.forall_mem_cons.mp htokens).2
  | case3 => exact htokens _ List.mem_cons_self
  | case4 => exact htokens _ List.mem_cons_self
  | case5 sawVersion handles handle start place tokens _ ih =>
      exact ih (List.forall_mem_cons.mp htokens).2
  | case6 => exact htokens

theorem ends_takeDirectives (h : walk.HasPlaces text) :
    Ends (SyntaxFault.IsIn text) (fun next => next.HasPlaces text) walk.takeDirectives :=
  .bind (ends_readDirectives _ _ h.tokens) fun _ htokens => ⟨htokens, h.fault⟩

theorem ends_explicitDocument (h : walk.HasPlaces text) {began : Place} (hbegan : began.IsIn text) :
    Proceeds text (walk.explicitDocument began) := by
  refine .bind h.ends_takeDirectives fun next hnext => .bind hnext.ends_peek fun token htoken => ?_
  split
  · exact ((hnext.skip.push _).push _).ends_emit _ hbegan
  · exact htoken

theorem ends_firstDocument (h : walk.HasPlaces text) : Proceeds text walk.firstDocument := by
  refine .bind h.ends_peek fun token htoken => ?_
  split
  · exact ends_none text
  · exact h.ends_explicitDocument htoken
  · have hhandles : HasPlaces text { walk with handles := standardHandles } := ⟨h.tokens, h.fault⟩
    exact .ite (fun _ => h.ends_explicitDocument htoken)
      (((hhandles.push _).push _).ends_emit _ htoken)

theorem ends_document (h : walk.HasPlaces text) : Proceeds text walk.document := by
  have hdrop : HasPlaces text { walk with
      tokens := walk.tokens.dropWhile fun token => token.kind = .documentEnd } :=
    ⟨fun token hmem => h.tokens token ((List.dropWhile_suffix _).mem hmem), h.fault⟩
  refine .bind hdrop.ends_peek fun token htoken => ?_
  split
  · exact ends_none text
  · exact hdrop.ends_explicitDocument htoken

theorem ends_documentEnd (h : walk.HasPlaces text) : Proceeds text walk.documentEnd := by
  refine .bind h.ends_peek fun token htoken => ?_
  have hnext : HasPlaces text (if token.kind = .documentEnd then walk.skip else walk) := by
    split
    · exact h.skip
    · exact h
  rintro event walk ⟨⟩
  exact ⟨htoken, hnext.tokens, hnext.fault⟩

/-! ## Nodes -/

/-- A tag that cannot be resolved is a fault at the place where it was looked for. -/
theorem ends_resolve (walk : Walk) (began : Place) (handle : Text) (suffix : List UInt8)
    {place : Place} (hplace : place.IsIn text) :
    Ends (SyntaxFault.IsIn text) (fun _ => True) (walk.resolve began handle suffix place) := by
  refine .ite (fun _ => trivial) ?_
  split
  · trivial
  · exact hplace

theorem ends_takeAnchor (h : walk.HasPlaces text) :
    Ends (SyntaxFault.IsIn text) (fun read => read.2.HasPlaces text) walk.takeAnchor := by
  refine .bind h.ends_peek fun token _ => ?_
  split
  · exact h.skip
  · exact h

theorem ends_takeTag (h : walk.HasPlaces text) :
    Ends (SyntaxFault.IsIn text)
      (fun read => (∀ tag ∈ read.1, tag.2.2.IsIn text) ∧ read.2.HasPlaces text) walk.takeTag := by
  refine .bind h.ends_peek fun token htoken => ?_
  split
  · refine ⟨?_, h.skip⟩
    rintro tag ⟨⟩
    exact htoken
  · exact ⟨nofun, h⟩

/-- Anchors and tags come in either order, and reading them stays in the text. -/
theorem ends_takeProperties (h : walk.HasPlaces text) (began : Place) :
    Ends (SyntaxFault.IsIn text) (fun read => read.2.HasPlaces text)
      (walk.takeProperties began) := by
  refine .bind h.ends_takeAnchor fun first hfirst => .bind hfirst.ends_takeTag fun tag htag => ?_
  obtain ⟨tag, behind⟩ := tag
  obtain ⟨htag, hbehind⟩ := htag
  -- `hlast` is what is left to do once the second anchor, if there is one, has been read.
  cases tag with
  | none =>
      have hlast (next : Walk) (hnext : next.HasPlaces text) :
          Ends (SyntaxFault.IsIn text) (fun read => read.2.HasPlaces text)
            (next.peek >>= fun _ => .ok (Properties.mk first.1 none, next)) :=
        .bind hnext.ends_peek fun _ _ => hnext
      exact .ite (fun _ => .bind hbehind.ends_takeAnchor fun _ hsecond => hlast _ hsecond)
        (hlast _ hbehind)
  | some tag =>
      have hlast (second : Option Text) (next : Walk) (hnext : next.HasPlaces text) :
          Ends (SyntaxFault.IsIn text) (fun read => read.2.HasPlaces text)
            (next.peek >>= fun _ => next.resolve began tag.1 tag.2.1 tag.2.2 >>= fun bytes =>
              .ok (Properties.mk (first.1 <|> second) (some bytes), next)) :=
        .bind hnext.ends_peek fun _ _ =>
          .bind (ends_resolve next began _ _ (htag tag rfl)) fun _ _ => hnext
      exact .ite (fun _ => .bind hbehind.ends_takeAnchor fun second hsecond => hlast _ _ hsecond)
        (hlast _ _ hbehind)

theorem ends_failWithin (activity : Activity) (began : Place) (problem : Problem) {token : Token}
    (htoken : token.place.IsIn text) :
    Proceeds text (failWithin activity began problem token) := htoken

/-- A node begins where its properties do, or at its own token. -/
theorem ends_node (h : walk.HasPlaces text) (inBlock level : Bool) :
    Proceeds text (walk.node inBlock level) := by
  refine .bind h.ends_peek fun first hfirst => ?_
  dsimp only
  split
  · exact h.skip.ends_emit _ hfirst
  · refine .bind (h.ends_takeProperties _) fun read hread =>
      .bind hread.ends_peek fun token htoken => ?_
    have hunknown : Proceeds text
        (if read.1 = .none then
          failWithin (if inBlock then .blockNode else .flowNode) first.place .expectedNode token
        else read.2.emit (.scalar read.1 [] true) first.place) :=
      .ite (fun _ => ends_failWithin _ _ _ htoken) (hread.ends_emit _ hfirst)
    split
    · exact .ite (fun _ => (hread.push _).ends_emit _ hfirst) hunknown
    · exact hread.skip.ends_emit _ hfirst
    · exact (hread.skip.push _).ends_emit _ hfirst
    · exact (hread.skip.push _).ends_emit _ hfirst
    · exact .ite (fun _ => (hread.skip.push _).ends_emit _ hfirst) hunknown
    · exact .ite (fun _ => (hread.skip.push _).ends_emit _ hfirst) hunknown
    · exact hunknown

/-- What is expected inside a block or a flow collection proceeds, case by case. -/
theorem ends_content (h : walk.HasPlaces text) : Proceeds text walk.content := by
  refine .bind h.ends_peek fun token htoken => ?_
  split
  · exact h.ends_emitEmpty htoken
  · exact h.ends_emitEmpty htoken
  · exact h.ends_emitEmpty htoken
  · exact .ite (fun _ => h.ends_emitEmpty htoken) (h.ends_node _ _)

/-! ## Collections without brackets and braces -/

theorem ends_blockEntry (h : walk.HasPlaces text) (began : Place) :
    Proceeds text (walk.blockEntry began) := by
  refine .bind h.ends_peek fun token htoken => ?_
  split
  · have hpush := h.skip.push (.blockEntry began)
    refine .bind hpush.ends_peek fun next hnext => ?_
    split
    · exact hpush.ends_emitEmpty hnext
    · exact hpush.ends_emitEmpty hnext
    · exact hpush.ends_node _ _
  · exact h.skip.ends_emit _ htoken
  · exact ends_failWithin _ _ _ htoken

theorem ends_levelEntry (h : walk.HasPlaces text) : Proceeds text walk.levelEntry := by
  refine .bind h.ends_peek fun token htoken => ?_
  split
  · have hpush := h.skip.push .levelEntry
    refine .bind hpush.ends_peek fun next hnext => ?_
    split
    · exact hpush.ends_emitEmpty hnext
    · exact hpush.ends_emitEmpty hnext
    · exact hpush.ends_emitEmpty hnext
    · exact hpush.ends_emitEmpty hnext
    · exact hpush.ends_node _ _
  · exact h.ends_emit _ htoken

theorem ends_blockMember (h : walk.HasPlaces text) : Proceeds text walk.blockMember := by
  refine .bind h.ends_peek fun next hnext => ?_
  split
  · exact h.ends_emitEmpty hnext
  · exact h.ends_emitEmpty hnext
  · exact h.ends_emitEmpty hnext
  · exact h.ends_node _ _

theorem ends_blockKey (h : walk.HasPlaces text) (began : Place) :
    Proceeds text (walk.blockKey began) := by
  refine .bind h.ends_peek fun token htoken => ?_
  split
  · exact (h.skip.push _).ends_blockMember
  · exact h.skip.ends_emit _ htoken
  · exact ends_failWithin _ _ _ htoken

theorem ends_blockValue (h : walk.HasPlaces text) (began : Place) :
    Proceeds text (walk.blockValue began) := by
  refine .bind h.ends_peek fun token htoken => ?_
  have hpush := h.push (.blockKey began)
  dsimp only
  split
  · exact hpush.skip.ends_blockMember
  · exact hpush.ends_emitEmpty htoken

/-! ## Collections in brackets and braces -/

/-- Between the entries of a flow collection a comma is wanted; its absence is a fault at the next
token. -/
theorem ends_takeComma (h : walk.HasPlaces text) (isFirst : Bool) (activity : Activity)
    (began : Place) (problem : Problem) :
    Ends (SyntaxFault.IsIn text) (fun next => next.HasPlaces text)
      (walk.takeComma isFirst activity began problem) := by
  refine .ite (fun _ => h) (.bind h.ends_peek fun token htoken => ?_)
  split
  · exact h.skip
  · exact htoken

/-- An entry of a flow sequence may be a pair by itself. -/
theorem ends_flowEntry (h : walk.HasPlaces text) (isFirst : Bool) (began : Place) :
    Proceeds text (walk.flowEntry isFirst began) := by
  refine .bind h.ends_peek fun token htoken => ?_
  split
  · exact h.skip.ends_emit _ htoken
  · refine .bind (h.ends_takeComma ..) fun walk hwalk =>
      .bind hwalk.ends_peek fun token htoken => ?_
    have hpush := hwalk.push (.flowEntry false began)
    dsimp only
    split
    · exact (hpush.skip.push _).ends_emit _ htoken
    · exact hwalk.skip.ends_emit _ htoken
    · exact hpush.ends_node _ _

theorem ends_pairKey (h : walk.HasPlaces text) : Proceeds text walk.pairKey := by
  refine .bind h.ends_peek fun token htoken => ?_
  have hpush := h.push .pairValue
  dsimp only
  split
  · exact hpush.skip.ends_emitEmpty htoken
  · exact hpush.skip.ends_emitEmpty htoken
  · exact hpush.skip.ends_emitEmpty htoken
  · exact hpush.ends_node _ _

theorem ends_pairValue (h : walk.HasPlaces text) : Proceeds text walk.pairValue := by
  refine .bind h.ends_peek fun token htoken => ?_
  have hpush := h.push .pairEnd
  dsimp only
  split
  · refine .bind hpush.skip.ends_peek fun next hnext => ?_
    split
    · exact hpush.skip.ends_emitEmpty hnext
    · exact hpush.skip.ends_emitEmpty hnext
    · exact hpush.skip.ends_node _ _
  · exact hpush.ends_emitEmpty htoken

theorem ends_pairEnd (h : walk.HasPlaces text) : Proceeds text walk.pairEnd :=
  .bind h.ends_peek fun _ htoken => h.ends_emit _ htoken

theorem ends_flowKey (h : walk.HasPlaces text) (isFirst : Bool) (began : Place) :
    Proceeds text (walk.flowKey isFirst began) := by
  refine .bind h.ends_peek fun token htoken => ?_
  split
  · exact h.skip.ends_emit _ htoken
  · refine .bind (h.ends_takeComma ..) fun walk hwalk =>
      .bind hwalk.ends_peek fun token htoken => ?_
    split
    · have hpush := hwalk.skip.push (.flowValue began)
      refine .bind hpush.ends_peek fun next hnext => ?_
      split
      · exact hpush.ends_emitEmpty hnext
      · exact hpush.ends_emitEmpty hnext
      · exact hpush.ends_emitEmpty hnext
      · exact hpush.ends_node _ _
    · exact hwalk.skip.ends_emit _ htoken
    · exact (hwalk.push _).ends_node _ _

theorem ends_flowValue (h : walk.HasPlaces text) (began : Place) :
    Proceeds text (walk.flowValue began) := by
  refine .bind h.ends_peek fun token htoken => ?_
  have hpush := h.push (.flowKey false began)
  dsimp only
  split
  · refine .bind hpush.skip.ends_peek fun next hnext => ?_
    split
    · exact hpush.skip.ends_emitEmpty hnext
    · exact hpush.skip.ends_emitEmpty hnext
    · exact hpush.skip.ends_node _ _
  · exact hpush.ends_emitEmpty htoken

theorem ends_flowNoValue (h : walk.HasPlaces text) (began : Place) :
    Proceeds text (walk.flowNoValue began) :=
  .bind h.ends_peek fun _ htoken => (h.push _).ends_emitEmpty htoken

/-! ## The machine -/

/-- Whatever is expected next, one step proceeds within the text. -/
theorem ends_step (h : walk.HasPlaces text) : Proceeds text walk.step := by
  rw [step]
  cases walk.stack with
  | nil => exact ends_none text
  | cons expected stack =>
      have hrest : HasPlaces text { walk with stack } := ⟨h.tokens, h.fault⟩
      cases expected with
      | firstDocument => exact hrest.ends_firstDocument
      | document => exact hrest.ends_document
      | content => exact hrest.ends_content
      | documentEnd => exact hrest.ends_documentEnd
      | blockNode => exact hrest.ends_node _ _
      | blockEntry began => exact hrest.ends_blockEntry began
      | levelEntry => exact hrest.ends_levelEntry
      | blockKey began => exact hrest.ends_blockKey began
      | blockValue began => exact hrest.ends_blockValue began
      | flowEntry isFirst began => exact hrest.ends_flowEntry isFirst began
      | pairKey => exact hrest.ends_pairKey
      | pairValue => exact hrest.ends_pairValue
      | pairEnd => exact hrest.ends_pairEnd
      | flowKey isFirst began => exact hrest.ends_flowKey isFirst began
      | flowValue began => exact hrest.ends_flowValue began
      | flowNoValue began => exact hrest.ends_flowNoValue began

theorem hasPlaces_run (fuel : Nat) (h : walk.HasPlaces text) : (run fuel walk).HasPlaces text := by
  induction fuel generalizing walk with
  | zero => exact .nil text
  | succ fuel ih =>
      have hstep := h.ends_step
      rw [run]
      cases hnext : walk.step with
      | error fault =>
          rw [hnext] at hstep
          refine ⟨List.forall_mem_nil _, ?_⟩
          rintro fault ⟨⟩
          exact hstep
      | ok next =>
          rw [hnext] at hstep
          cases next with
          | none => exact .nil text
          | some next =>
              obtain ⟨event, next⟩ := next
              obtain ⟨hevent, hplaces⟩ := hstep event next rfl
              have hlater := ih hplaces
              exact ⟨List.forall_mem_cons.mpr ⟨hevent, hlater.events⟩, hlater.fault⟩

end HasPlaces
end Walk

/-- Events have their places from the tokens. -/
theorem EventStream.hasPlaces_ofTokens {text : Text} {stream : TokenStream}
    (h : stream.HasPlaces text) : (EventStream.ofTokens stream).HasPlaces text := by
  have hstart : (Walk.start stream).HasPlaces text := ⟨h.tokens, h.fault⟩
  exact hstart.hasPlaces_run _

end LiteralAudit.Yaml
