import LiteralAudit.Yaml.Cursor

/-!
# YAML events

A document is a walk through its tree: a collection is entered and left, and between the two
come its members.  The members of a mapping are its keys and values in turn.
-/

namespace LiteralAudit.Yaml

/-- A tag with its handle replaced by what the handle stands for. -/
abbrev TagBytes := List UInt8

/-- What is said of a node before its content. -/
structure Properties where
  /-- Its anchor. -/
  anchor : Option Text
  /-- Its tag. -/
  tag : Option TagBytes
  deriving DecidableEq, Repr

/-- A node without properties. -/
def Properties.none : Properties := ⟨.none, .none⟩

/-- One step of the walk. -/
inductive EventKind where
  /-- A document begins. -/
  | documentStart
  /-- A document ends. -/
  | documentEnd
  /-- A reference to the node with an anchor. -/
  | alias (name : Text)
  /-- A scalar. -/
  | scalar (properties : Properties) (text : Text) (isPlain : Bool)
  /-- A sequence is entered. -/
  | sequenceStart (properties : Properties)
  /-- A sequence is left. -/
  | sequenceEnd
  /-- A mapping is entered. -/
  | mappingStart (properties : Properties)
  /-- A mapping is left. -/
  | mappingEnd
  deriving DecidableEq, Repr

/-- A step of the walk and where it is in the text. -/
structure Event where
  /-- The step. -/
  kind : EventKind
  /-- Where it is. -/
  place : Place
  deriving DecidableEq, Repr

namespace Event

/-- The scalar of a node that is not written at all. -/
def empty (place : Place) : Event := ⟨.scalar .none [] true, place⟩

end Event

end LiteralAudit.Yaml
