import LiteralAudit.Yaml.Document
import LiteralAudit.Yaml.Scalar

/-!
# The values of documents

A walk through a document builds its value.  Collections may be nested 128 deep, aliases may be
followed a hundred times for each step of the document, and no key may occur twice in a mapping.
The walk ends at the first fault, so a fault of the value counts before a fault of syntax further
down.
-/

namespace LiteralAudit.Yaml

/-- A step from a node down to one of its parts. -/
inductive NodeStep where
  /-- To the item with an index. -/
  | item (index : Nat)
  /-- To the value of a key that is a scalar. -/
  | key (text : Text)
  /-- To the value of another key. -/
  | unnamed
  deriving DecidableEq, Repr

/-- Where a node is in its document: the steps down to it, the last one first. -/
abbrev NodePath := List NodeStep

/-- A name inside the node with the given words.  Inside the whole document it stands alone. -/
def NodeStep.inside (outer name : Text) : Text :=
  if outer = ['.'] then name else outer ++ '.' :: name

/-- A path in words. -/
def NodePath.message : NodePath → Text
  | [] => ['.']
  | .item index :: outer => message outer ++ '[' :: Text.ofNat index ++ [']']
  | .key text :: outer => NodeStep.inside (message outer) text
  | .unnamed :: outer => NodeStep.inside (message outer) ['?']

/-- What is wrong with a value. -/
inductive ValueProblem where
  /-- A scalar has no value. -/
  | scalar (problem : Scalar.Problem)
  /-- A key occurs twice. -/
  | duplicateKey (key : Value)
  deriving Repr

/-- The words for what is wrong with a value. -/
def ValueProblem.message : ValueProblem → Text
  | .scalar problem => problem.message
  | .duplicateKey key => "duplicate entry " ++ key.keyMessage

/-- Why a text has no values. -/
inductive Fault where
  /-- A character at an offset is not allowed. -/
  | forbiddenCharacter (offset : Nat)
  /-- A document is malformed. -/
  | document (fault : DocumentFault)
  /-- Collections are nested too deep. -/
  | tooDeep (place : Place)
  /-- Too many aliases are followed. -/
  | tooManyAliases
  /-- Something is wrong with the node at a place. -/
  | value (path : NodePath) (place : Place) (problem : ValueProblem)
  deriving Repr

namespace Fault

/-- The place of a fault.  Characters that are not allowed are found before places are known. -/
def place? : Fault → Option Place
  | .forbiddenCharacter _ => some .start
  | .document (.malformed fault) => some fault.place
  | .document (.unknownAnchor place) => some place
  | .tooDeep place => some place
  | .tooManyAliases => none
  | .value _ place _ => some place

/-- The words for a fault. -/
def message : Fault → Text
  | .forbiddenCharacter offset =>
      let position : Text := if offset = 0 then [] else " at position " ++ Text.ofNat offset
      "control characters are not allowed" ++ position
  | .document (.malformed fault) => fault.message
  | .document (.unknownAnchor place) => "unknown anchor" ++ place.message
  | .tooDeep place => "recursion limit exceeded" ++ place.message
  | .tooManyAliases => "repetition limit exceeded"
  | .value path place problem =>
      let node : Text := if path.isEmpty then [] else path.message ++ ": "
      node ++ problem.message ++ place.message

end Fault

namespace Document

/-- How far a walk has come. -/
structure Progress where
  /-- The number of the next step. -/
  next : Nat
  /-- How often an alias has been followed. -/
  aliases : Nat
  deriving DecidableEq, Repr

/-- The greatest depth of nested collections. -/
def maxDepth : Nat := 128

/-- A tag without its exclamation mark, unless nothing else is left of it. -/
def bareTag : Text → Text
  | '!' :: c :: rest => c :: rest
  | tag => tag

/-- The text of a tag of the document's own.  The mark that makes it one is no part of it, and a
second mark does not make it another tag. -/
def ownTag? : Option TagBytes → Option Text
  | some (0x21 :: rest) =>
      (Text.Utf8.decode? (0x21 :: rest)).map fun tag => bareTag (bareTag tag)
  | _ => none

/-- The step with a number and its place, or the fault that ends the document before it. -/
def visit (document : Document) (number : Nat) : Except Fault (Visit × Place) :=
  match document.visits[number]? with
  | some visit => .ok visit
  | none =>
      match document.fault with
      | some fault => .error (.document fault)
      | none => .ok (.nothing, .start)

/-- The step to the value of a key that begins with the given visit. -/
def stepOfKey : Visit → NodeStep
  | .scalar _ text _ => .key text
  | _ => .unnamed

mutual

/-- The value of the node at which a walk stands.  `depth` is how many more collections may be
entered, `isTagged` says whether the tag of the node has been seen to, and `fuel` bounds the
walk. -/
def readNode (document : Document) :
    (fuel : Nat) → (depth : Nat) → NodePath → (isTagged : Bool) → Progress →
      Except Fault (Value × Progress)
  | 0, _, _, _, _ => .error .tooManyAliases
  | fuel + 1, depth, path, isTagged, progress => do
      let (visit, place) ← document.visit progress.next
      let behind := { progress with next := progress.next + 1 }
      let withTag (tag : Option TagBytes) (read : Except Fault (Value × Progress)) :
          Except Fault (Value × Progress) :=
        match if isTagged then none else ownTag? tag with
        | none => read
        | some text => do
            let (value, progress) ← readNode document fuel depth path true progress
            .ok (.tagged text value, progress)
      let enter (read : Nat → Except Fault (Value × Progress)) :
          Except Fault (Value × Progress) :=
        match depth with
        | 0 => .error (.tooDeep place)
        | depth + 1 => read depth
      match visit with
      | .nothing | .leaveSequence | .leaveMapping => .ok (.null, behind)
      | .alias number =>
          let aliases := progress.aliases + 1
          if document.visits.size * 100 < aliases then .error .tooManyAliases
          else
            let start := (document.nodeStart? number).getD progress.next
            let (value, stop) ← readNode document fuel depth path false ⟨start, aliases⟩
            .ok (value, { behind with aliases := stop.aliases })
      | .scalar tag text isPlain =>
          withTag tag <|
            match Scalar.value (if isTagged then none else tag) text isPlain with
            | .ok value => .ok (value, behind)
            | .error problem => .error (.value path place (.scalar problem))
      | .enterSequence tag =>
          withTag tag <| enter fun depth => do
            let (items, stop) ← readItems document fuel depth path 0 behind
            .ok (.sequence items, stop)
      | .enterMapping tag =>
          withTag tag <| enter fun depth => do
            let (members, stop) ← readMembers document fuel depth path place [] behind
            .ok (.mapping members, stop)

/-- The items of a sequence from the one with an index on. -/
def readItems (document : Document) :
    (fuel : Nat) → (depth : Nat) → NodePath → (index : Nat) → Progress →
      Except Fault (List Value × Progress)
  | 0, _, _, _, _ => .error .tooManyAliases
  | fuel + 1, depth, path, index, progress => do
      let (visit, _) ← document.visit progress.next
      match visit with
      | .leaveSequence => .ok ([], { progress with next := progress.next + 1 })
      | _ => do
          let (item, stop) ← readNode document fuel depth (.item index :: path) false progress
          let (items, stop) ← readItems document fuel depth path (index + 1) stop
          .ok (item :: items, stop)

/-- The members of a mapping behind those already known.  The mapping began at a place. -/
def readMembers (document : Document) :
    (fuel : Nat) → (depth : Nat) → NodePath → Place → (known : List (Value × Value)) →
      Progress → Except Fault (List (Value × Value) × Progress)
  | 0, _, _, _, _, _ => .error .tooManyAliases
  | fuel + 1, depth, path, began, known, progress => do
      let (visit, _) ← document.visit progress.next
      match visit with
      | .leaveMapping => .ok (known.reverse, { progress with next := progress.next + 1 })
      | _ => do
          let (key, stop) ← readNode document fuel depth path false progress
          match known.find? fun member => member.1.same key with
          | some (key, _) => .error (.value path began (.duplicateKey key))
          | none => do
              let (value, stop) ←
                readNode document fuel depth (stepOfKey visit :: path) false stop
              readMembers document fuel depth path began ((key, value) :: known) stop

end

/-- A bound for the length of a walk: between two aliases no step is made twice. -/
def walkBound (document : Document) : Nat :=
  4 * (document.visits.size * 100 + 2) * (document.visits.size + 2)

/-- The value of a document. -/
def value (document : Document) : Except Fault Value := do
  let (value, _) ← document.readNode document.walkBound maxDepth [] false ⟨0, 0⟩
  match document.fault with
  | some fault => .error (.document fault)
  | none => .ok value

end Document

end LiteralAudit.Yaml
