import LiteralAudit.Proofs.Yaml.Event
import LiteralAudit.Yaml.Reader

/-!
# The places of faults

A document takes its places from the events, and a fault takes its place from the document.  So
whatever keeps a text from being read is at a place of that text, if it is at a place at all
(`isIn_of_values`).
-/

namespace LiteralAudit.Yaml

/-- The place of a fault, if it has one, is a place of a text. -/
def Fault.IsIn (text : Text) (fault : Fault) : Prop := ∀ place ∈ fault.place?, place.IsIn text

theorem Fault.isIn_of_eq {text : Text} {fault : Fault} {place : Place}
    (h : fault.place? = some place) (hplace : place.IsIn text) : fault.IsIn text := by
  intro other hother
  rw [h] at hother
  cases hother
  exact hplace

namespace Document

/-- All places of a document are places of a text. -/
structure HasPlaces (text : Text) (document : Document) : Prop where
  /-- The places of the steps. -/
  visits : ∀ visit ∈ document.visits, visit.2.IsIn text
  /-- The place of the fault. -/
  fault : ∀ fault ∈ document.fault, (Fault.document fault).IsIn text

variable {text : Text}

/-! ## Documents -/

/-- All places of the steps so far are places of a text. -/
def Draft.HasPlaces (text : Text) (draft : Draft) : Prop :=
  ∀ visit ∈ draft.visits, visit.2.IsIn text

theorem Draft.hasPlaces_empty (text : Text) : Draft.empty.HasPlaces text := by
  intro visit hvisit
  cases Array.not_mem_empty visit hvisit

namespace Draft.HasPlaces

variable {draft : Draft}

theorem anchor (h : draft.HasPlaces text) (name : Option Text) :
    (draft.anchor name).HasPlaces text := by
  cases name with
  | none => exact h
  | some name => exact h

theorem add (h : draft.HasPlaces text) (visit : Visit) {place : Place} (hplace : place.IsIn text) :
    (draft.add visit place).HasPlaces text := by
  intro other hother
  rcases Array.mem_push.mp hother with hmem | rfl
  · exact h other hmem
  · exact hplace

theorem finish (h : draft.HasPlaces text) {fault : Option DocumentFault}
    (hfault : ∀ found ∈ fault, (Fault.document found).IsIn text) :
    (draft.finish fault).HasPlaces text := ⟨h, hfault⟩

end Draft.HasPlaces

theorem hasPlaces_void (text : Text) : void.HasPlaces text := by
  refine ⟨?_, fun _ hfault => nomatch hfault⟩
  intro visit hvisit
  cases List.eq_of_mem_singleton (Array.mem_toList_iff.mpr hvisit)
  exact Place.isIn_start text

/-- Documents take their places from the events that they are made of. -/
theorem hasPlaces_ofEventsFrom {fault : Option SyntaxFault}
    (hfault : ∀ found ∈ fault, found.place.IsIn text) (draft : Draft) (isFirst : Bool)
    {events : List Event} (hdraft : draft.HasPlaces text)
    (hevents : ∀ event ∈ events, event.place.IsIn text) :
    ∀ document ∈ ofEventsFrom fault draft isFirst events, document.HasPlaces text := by
  induction events generalizing draft isFirst with
  | nil =>
      rw [ofEventsFrom.eq_def]
      cases fault with
      | none =>
          cases isFirst with
          | true => exact List.forall_mem_singleton.mpr (hasPlaces_void text)
          | false => exact List.forall_mem_nil _
      | some found =>
          refine List.forall_mem_singleton.mpr (hdraft.finish ?_)
          rintro _ ⟨⟩
          exact Fault.isIn_of_eq rfl (hfault found rfl)
  | cons event events ih =>
      obtain ⟨kind, place⟩ := event
      obtain ⟨hplace, hlater⟩ := List.forall_mem_cons.mp hevents
      rw [ofEventsFrom.eq_def]
      cases kind with
      | documentStart => exact ih draft isFirst hdraft hlater
      | documentEnd =>
          have hnone : ∀ found ∈ (none : Option DocumentFault), (Fault.document found).IsIn text :=
            fun _ hfound => nomatch hfound
          exact List.forall_mem_cons.mpr
            ⟨hdraft.finish hnone, ih .empty false (Draft.hasPlaces_empty text) hlater⟩
      | «alias» name =>
          dsimp only
          split
          · exact ih _ _ (hdraft.add _ hplace) hlater
          · refine List.forall_mem_singleton.mpr (hdraft.finish ?_)
            rintro _ ⟨⟩
            exact Fault.isIn_of_eq rfl hplace
      | scalar properties text isPlain =>
          exact ih _ _ ((hdraft.anchor _).add _ hplace) hlater
      | sequenceStart properties => exact ih _ _ ((hdraft.anchor _).add _ hplace) hlater
      | sequenceEnd => exact ih _ _ (hdraft.add _ hplace) hlater
      | mappingStart properties => exact ih _ _ ((hdraft.anchor _).add _ hplace) hlater
      | mappingEnd => exact ih _ _ (hdraft.add _ hplace) hlater

/-! ## Values -/

variable {document : Document}

/-- What is visited is at a place of the text. -/
theorem HasPlaces.ends_visit (h : document.HasPlaces text) (number : Nat) :
    Ends (Fault.IsIn text) (fun visit => visit.2.IsIn text) (document.visit number) := by
  rw [Document.visit]
  split
  · next visit hvisit => exact h.visits visit (Array.mem_of_getElem? hvisit)
  · split
    · next fault hfault => exact h.fault fault hfault
    · exact Place.isIn_start text

namespace HasPlaces

/-- With some fuel, the three readers of values fail at places of a text. -/
structure Reads (document : Document) (text : Text) (fuel : Nat) : Prop where
  node : ∀ depth path isTagged progress, Ends (Fault.IsIn text) (fun _ => True)
    (document.readNode fuel depth path isTagged progress)
  items : ∀ depth path index progress, Ends (Fault.IsIn text) (fun _ => True)
    (document.readItems fuel depth path index progress)
  members : ∀ depth path began known progress, began.IsIn text →
    Ends (Fault.IsIn text) (fun _ => True)
      (document.readMembers fuel depth path began known progress)

theorem ends_aliases {α : Type} : Ends (Fault.IsIn text) (fun _ => True)
    (.error .tooManyAliases : Except Fault α) := by
  intro place hplace
  cases hplace

theorem reads_zero : Reads document text 0 := by
  constructor
  case node =>
    intro depth path isTagged progress
    rw [readNode]
    exact ends_aliases
  case items =>
    intro depth path index progress
    rw [readItems]
    exact ends_aliases
  case members =>
    intro depth path began known progress hbegan
    rw [readMembers]
    exact ends_aliases

section

variable {fuel : Nat} (h : document.HasPlaces text) (ih : Reads document text fuel)

include h ih

/-- Reading a node fails at a place of the text or at none. -/
theorem ends_readNode (depth : Nat) (path : NodePath) (isTagged : Bool) (progress : Progress) :
    Ends (Fault.IsIn text) (fun _ => True)
      (document.readNode (fuel + 1) depth path isTagged progress) := by
  rw [readNode]
  refine .bind (h.ends_visit _) fun visit hvisit => ?_
  obtain ⟨visit, place⟩ := visit
  cases visit with
  | nothing => trivial
  | leaveSequence => trivial
  | leaveMapping => trivial
  | «alias» number => exact .ite (fun _ => ends_aliases) (.bind (ih.node ..) fun _ _ => trivial)
  | scalar tag text isPlain =>
      dsimp only
      split
      · split
        · trivial
        · exact Fault.isIn_of_eq rfl hvisit
      · exact .bind (ih.node ..) fun _ _ => trivial
  | enterSequence tag =>
      dsimp only
      split
      · cases depth with
        | zero => exact Fault.isIn_of_eq rfl hvisit
        | succ depth => exact .bind (ih.items ..) fun _ _ => trivial
      · exact .bind (ih.node ..) fun _ _ => trivial
  | enterMapping tag =>
      dsimp only
      split
      · cases depth with
        | zero => exact Fault.isIn_of_eq rfl hvisit
        | succ depth => exact .bind (ih.members _ _ _ _ _ hvisit) fun _ _ => trivial
      · exact .bind (ih.node ..) fun _ _ => trivial

theorem ends_readItems (depth : Nat) (path : NodePath) (index : Nat) (progress : Progress) :
    Ends (Fault.IsIn text) (fun _ => True)
      (document.readItems (fuel + 1) depth path index progress) := by
  rw [readItems]
  refine .bind (h.ends_visit _) fun visit _ => ?_
  obtain ⟨visit, place⟩ := visit
  dsimp only
  split
  · trivial
  · exact .bind (ih.node ..) fun _ _ => .bind (ih.items ..) fun _ _ => trivial

theorem ends_readMembers (depth : Nat) (path : NodePath) {began : Place}
    (known : List (Value × Value)) (progress : Progress) (hbegan : began.IsIn text) :
    Ends (Fault.IsIn text) (fun _ => True)
      (document.readMembers (fuel + 1) depth path began known progress) := by
  rw [readMembers]
  refine .bind (h.ends_visit _) fun visit _ => ?_
  obtain ⟨visit, place⟩ := visit
  dsimp only
  split
  · trivial
  · refine .bind (ih.node ..) fun key _ => ?_
    split
    · exact Fault.isIn_of_eq rfl hbegan
    · exact .bind (ih.node ..) fun _ _ => ih.members _ _ _ _ _ hbegan

end

/-- The three readers of values call each other, so all of them are in one induction. -/
theorem reads (h : document.HasPlaces text) (fuel : Nat) : Reads document text fuel := by
  induction fuel with
  | zero => exact reads_zero
  | succ fuel ih =>
      exact ⟨ends_readNode h ih, ends_readItems h ih,
        fun depth path _ known progress => ends_readMembers h ih depth path known progress⟩

theorem ends_value (h : document.HasPlaces text) :
    Ends (Fault.IsIn text) (fun _ => True) document.value := by
  refine .bind ((h.reads _).node ..) fun _ _ => ?_
  cases hfault : document.fault with
  | none => trivial
  | some fault => exact h.fault fault hfault

end HasPlaces
end Document

/-- All places of the documents of a text are places of the text. -/
theorem hasPlaces_documents (text : Text) :
    ∀ document ∈ documents text, document.HasPlaces text := by
  have hevents := EventStream.hasPlaces_ofTokens (TokenStream.hasPlaces_ofText text)
  exact Document.hasPlaces_ofEventsFrom hevents.fault .empty true
    (Document.Draft.hasPlaces_empty text) hevents.events

/-- A text whose values cannot be read has a fault at a place of it, or at none. -/
theorem isIn_of_values {text : Text} {fault : Fault} (h : values text = .error fault) :
    fault.IsIn text := by
  rw [values] at h
  split at h
  · cases h
    exact Fault.isIn_of_eq rfl (Place.isIn_start text)
  · have hends : Ends (Fault.IsIn text) (fun values => ∀ value ∈ values, True)
        ((documents text).mapM Document.value) :=
      .mapM fun document hmem => (hasPlaces_documents text document hmem).ends_value
    rw [h] at hends
    exact hends

end LiteralAudit.Yaml
