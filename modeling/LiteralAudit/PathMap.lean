import LiteralAudit.Path

/-!
# Maps keyed by paths

A map from paths to values, kept in the order of the paths.  A path that has the same steps as a
key names the same entry.  Writing to an entry keeps the spelling of its key.
-/

namespace LiteralAudit

/-- A map from paths to values. -/
structure PathMap (α : Type) where
  /-- The entries, in the order of their keys. -/
  entries : List (Path × α)
  deriving DecidableEq, Repr

namespace PathMap

variable {α : Type}

/-- The map without entries. -/
def empty : PathMap α := ⟨[]⟩

/-- The entries with one more.  It takes the place of an entry with the same key. -/
def insertEntry (path : Path) (value : α) : List (Path × α) → List (Path × α)
  | [] => [(path, value)]
  | (key, old) :: entries =>
      match path.compare key with
      | .lt => (path, value) :: (key, old) :: entries
      | .eq => (key, value) :: entries
      | .gt => (key, old) :: insertEntry path value entries

/-- The map with a value written to a key. -/
def insert (map : PathMap α) (path : Path) (value : α) : PathMap α :=
  ⟨insertEntry path value map.entries⟩

/-- The value of a key. -/
def get? (map : PathMap α) (path : Path) : Option α :=
  (map.entries.find? fun entry => path.compare entry.1 == .eq).map Prod.snd

/-- The keys in order. -/
def keys (map : PathMap α) : List Path := map.entries.map Prod.fst

/-- The values in the order of their keys. -/
def values (map : PathMap α) : List α := map.entries.map Prod.snd

/-- The number of entries. -/
def size (map : PathMap α) : Nat := map.entries.length

/-- Whether there are no entries. -/
def isEmpty (map : PathMap α) : Bool := map.entries.isEmpty

end PathMap

end LiteralAudit
