import LiteralAudit.Json
import LiteralAudit.Toml.Scalar

/-!
# TOML tables

The table that the statements of a document make up.  The entries of a table are in the order of
their names.

A table that is only passed through on the way to another is implicit.  A header may come later
for an implicit table, but only once, and a dotted key may pass through a table only if it is
implicit.  Nothing can be added to a table between braces from outside.
-/

namespace LiteralAudit.Toml

/-- How a table came to be. -/
inductive Origin where
  /-- By a header. -/
  | explicit
  /-- Between braces. -/
  | braced
  /-- On the way to a table with a header. -/
  | passed
  /-- On the way of a dotted key. -/
  | dotted
  deriving DecidableEq, Repr

/-- A value and the bytes it is written with. -/
inductive Node where
  /-- A scalar. -/
  | scalar (value : Scalar) (span : Span)
  /-- An array. -/
  | array (items : List Node) (span : Span)
  /-- An array of tables with headers, the last one first. -/
  | tables (items : List Node) (span : Span)
  /-- A table: for each name the span of the key and the value. -/
  | table (origin : Origin) (entries : List (Text × Span × Node)) (span : Span)
  deriving Repr

/-- The entries of a table. -/
abbrev Entries := List (Text × Span × Node)

namespace Node

/-- The bytes that a value is written with. -/
def span : Node → Span
  | .scalar _ span | .array _ span | .tables _ span | .table _ _ span => span

/-- The word for a kind of value. -/
def kind : Node → Text
  | .scalar (.text _) _ => "string"
  | .scalar (.whole _) _ => "integer"
  | .scalar (.binary _) _ => "float"
  | .scalar (.bool _) _ => "boolean"
  | .scalar .dateTime _ => "datetime"
  | .array _ _ | .tables _ _ => "array"
  | .table _ _ _ => "table"

end Node

namespace Entries

/-- The value with a name. -/
def get? (name : Text) (entries : Entries) : Option (Span × Node) :=
  (entries.find? fun entry => entry.1 = name).map Prod.snd

/-- The entries with one more.  It takes the place of an entry of the same name. -/
def set (name : Text) (span : Span) (node : Node) (entries : Entries) : Entries :=
  Json.insertMember name (span, node) entries

/-- A fault at a key. -/
def failAt {α : Type} (key : Key) (cause : Cause) : Except Fault α := .error ⟨cause, key.span⟩

/-- Changes the entries of the table that some keys lead to.  Tables that are not there yet come
to be on the way. -/
def changeAt (dotted : Bool) (change : Entries → Origin → Except Fault Entries) :
    (keys : List Key) → Entries → Origin → Except Fault Entries
  | [], entries, origin => change entries origin
  | key :: keys, entries, _ =>
      match entries.get? key.name with
      | none => do
          let origin := if dotted then .dotted else .passed
          let inner ← changeAt dotted change keys [] origin
          .ok (entries.set key.name key.span (.table origin inner key.span))
      | some (_, .table .braced _ _) => failAt key (.notExtensible "inline table")
      | some (span, .table origin inner place) => do
          if dotted && origin = .explicit then failAt key .duplicateKey
          let inner ← changeAt dotted change keys inner origin
          .ok (entries.set key.name span (.table origin inner place))
      | some (span, .tables (.table origin inner place :: items) whole) => do
          let inner ← changeAt dotted change keys inner origin
          .ok (entries.set key.name span
            (.tables (.table origin inner place :: items) whole))
      | some (_, node) => failAt key (.notExtensible node.kind)

/-- Adds a value under dotted keys. -/
def add (keys : List Key) (node : Node) (entries : Entries) (origin : Origin) :
    Except Fault Entries :=
  match keys.getLast? with
  | none => .ok entries
  | some key =>
      let insert (entries : Entries) (origin : Origin) : Except Fault Entries :=
        if keys.length ≠ 1 && origin ≠ .dotted then failAt key .duplicateKey
        else if (entries.get? key.name).isSome then failAt key .duplicateKey
        else .ok (entries.set key.name key.span node)
      changeAt true insert keys.dropLast entries origin

/-- Begins the table of a header. -/
def openTable (key : Key) (span : Span) (entries : Entries) : Except Fault Entries :=
  match entries.get? key.name with
  | none => .ok (entries.set key.name key.span (.table .explicit [] span))
  | some (_, .table .passed inner _) =>
      .ok (entries.set key.name key.span (.table .explicit inner span))
  | some _ => failAt key .duplicateKey

/-- Begins an item of the table array of a header. -/
def openItem (key : Key) (span : Span) (entries : Entries) : Except Fault Entries :=
  match entries.get? key.name with
  | none => .ok (entries.set key.name key.span (.tables [.table .explicit [] span] span))
  | some (place, .tables items whole) =>
      .ok (entries.set key.name place (.tables (.table .explicit [] span :: items) whole))
  | some _ => failAt key .duplicateKey

end Entries

namespace Node

mutual

/-- The value that is written. -/
def ofRaw : RawValue → Except Fault Node
  | .scalar raw => (Scalar.ofRaw raw).map fun scalar => .scalar scalar raw.span
  | .array items span => do
      let items ← ofItems items
      .ok (.array items span)
  | .table pairs span => do
      let entries ← ofPairs [] pairs
      .ok (.table .braced entries span)

/-- The items of an array. -/
def ofItems : List RawValue → Except Fault (List Node)
  | [] => .ok []
  | item :: items => do
      let node ← ofRaw item
      let nodes ← ofItems items
      .ok (node :: nodes)

/-- The entries that the pairs between braces add to others. -/
def ofPairs (entries : Entries) : List (List Raw × RawValue) → Except Fault Entries
  | [] => .ok entries
  | (keys, value) :: pairs => do
      let keys ← keys.mapM Key.ofRaw
      let node ← ofRaw value
      let entries ← entries.add keys node .explicit
      ofPairs entries pairs

end

end Node

/-- A document under way: its entries, and the keys of the table that pairs are added to. -/
structure Draft where
  /-- The entries. -/
  entries : Entries
  /-- The keys that lead to the table. -/
  current : List Key
  deriving Repr

namespace Draft

/-- The draft with one more statement. -/
def add (draft : Draft) : Statement → Except Fault Draft
  | .header isArray keys span => do
      let keys ← keys.mapM Key.ofRaw
      match keys.getLast? with
      | none => .ok draft
      | some key => do
          let openIt := if isArray then Entries.openItem key span else Entries.openTable key span
          let entries ←
            draft.entries.changeAt false (fun entries _ => openIt entries) keys.dropLast .explicit
          .ok ⟨entries, keys⟩
  | .pair keys value => do
      let keys ← keys.mapM Key.ofRaw
      let node ← Node.ofRaw value
      let entries ←
        draft.entries.changeAt false (fun entries origin => entries.add keys node origin)
          draft.current .explicit
      .ok { draft with entries }

end Draft

/-- The entries of a document. -/
def read (text : Text) : Except Fault Entries := do
  let statements ← Statement.ofText text
  let draft ← statements.foldlM Draft.add ⟨[], []⟩
  .ok draft.entries

end LiteralAudit.Toml
