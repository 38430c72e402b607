import LiteralAudit.Yaml.Event.Stream

/-!
# The documents of a text

The events between the beginning and the end of a document, with anchors and aliases replaced by
numbers.  An anchor gets as number the count of the names known before it, and a number belongs
to the last node that got it.  So a name that is used again takes a number that a later name may
take from it.

A fault ends the last document: of it there are only the events before the fault.  A text without
any document has one document that holds nothing.
-/

namespace LiteralAudit.Yaml

/-- One step of a walk through a document. -/
inductive Visit where
  /-- There is no node at all. -/
  | nothing
  /-- The node with a number again. -/
  | alias (number : Nat)
  /-- A scalar. -/
  | scalar (tag : Option TagBytes) (text : Text) (isPlain : Bool)
  /-- A sequence is entered. -/
  | enterSequence (tag : Option TagBytes)
  /-- A sequence is left. -/
  | leaveSequence
  /-- A mapping is entered. -/
  | enterMapping (tag : Option TagBytes)
  /-- A mapping is left. -/
  | leaveMapping
  deriving DecidableEq, Repr

/-- Why a document cannot be walked to its end. -/
inductive DocumentFault where
  /-- The text is no YAML. -/
  | malformed (fault : SyntaxFault)
  /-- An alias has no anchor before it. -/
  | unknownAnchor (place : Place)
  deriving DecidableEq, Repr

/-- A document. -/
structure Document where
  /-- The steps of the walk and their places. -/
  visits : Array (Visit × Place)
  /-- The numbers of anchored nodes and the steps at which they begin, the last one first. -/
  anchored : List (Nat × Nat)
  /-- What ends the walk too early. -/
  fault : Option DocumentFault
  deriving Repr

namespace Document

/-- The document of a text without any document. -/
def void : Document := ⟨#[(.nothing, .start)], [], none⟩

/-- The step at which the node with a number begins. -/
def nodeStart? (document : Document) (number : Nat) : Option Nat :=
  (document.anchored.find? fun entry => entry.1 = number).map Prod.snd

/-- A document that is being put together. -/
structure Draft where
  /-- The steps so far. -/
  visits : Array (Visit × Place)
  /-- The numbers so far and where they begin, the last one first. -/
  anchored : List (Nat × Nat)
  /-- The names so far and their numbers, one entry for a name. -/
  names : List (Text × Nat)
  deriving Repr

namespace Draft

/-- Nothing yet. -/
def empty : Draft := ⟨#[], [], []⟩

/-- The names with one given a number. -/
def setName (name : Text) (number : Nat) : List (Text × Nat) → List (Text × Nat)
  | [] => [(name, number)]
  | (other, old) :: names =>
      if other = name then (name, number) :: names else (other, old) :: setName name number names

/-- The draft with the next step anchored, if it has an anchor. -/
def anchor (draft : Draft) : Option Text → Draft
  | none => draft
  | some name =>
      let number := draft.names.length
      { draft with
        anchored := (number, draft.visits.size) :: draft.anchored
        names := setName name number draft.names }

/-- The draft with one more step. -/
def add (draft : Draft) (visit : Visit) (place : Place) : Draft :=
  { draft with visits := draft.visits.push (visit, place) }

/-- The finished document. -/
def finish (draft : Draft) (fault : Option DocumentFault) : Document :=
  ⟨draft.visits, draft.anchored, fault⟩

end Draft

/-- The documents that some events make up.  `draft` is the one begun, `fault` what follows the
events, and `isFirst` says whether no document came before. -/
def ofEventsFrom (fault : Option SyntaxFault) (draft : Draft) (isFirst : Bool) :
    List Event → List Document
  | [] =>
      match fault with
      | some fault => [draft.finish (some (.malformed fault))]
      | none => if isFirst then [void] else []
  | ⟨kind, place⟩ :: events =>
      let next (draft : Draft) := ofEventsFrom fault draft isFirst events
      match kind with
      | .documentStart => next draft
      | .documentEnd => draft.finish none :: ofEventsFrom fault .empty false events
      | .alias name =>
          match draft.names.find? fun entry => entry.1 = name with
          | some (_, number) => next (draft.add (.alias number) place)
          | none => [draft.finish (some (.unknownAnchor place))]
      | .scalar properties text isPlain =>
          next ((draft.anchor properties.anchor).add (.scalar properties.tag text isPlain) place)
      | .sequenceStart properties =>
          next ((draft.anchor properties.anchor).add (.enterSequence properties.tag) place)
      | .sequenceEnd => next (draft.add .leaveSequence place)
      | .mappingStart properties =>
          next ((draft.anchor properties.anchor).add (.enterMapping properties.tag) place)
      | .mappingEnd => next (draft.add .leaveMapping place)

/-- The documents of a stream of events.  Only the last one can have a fault. -/
def ofEvents (stream : EventStream) : List Document :=
  ofEventsFrom stream.fault .empty true stream.events

end Document

end LiteralAudit.Yaml
