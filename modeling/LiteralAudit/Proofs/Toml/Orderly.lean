import LiteralAudit.Proofs.Ends
import LiteralAudit.Proofs.Json.Members
import LiteralAudit.Toml.Table

/-!
# Tables without repeated keys

In a document that can be read, the entries of every table are in the order of their keys, so no
key occurs twice (`orderly_read`).  Values are put into a table by `Entries.set` alone, which
keeps the order; `orderly_changeAt` carries this down to the table that is changed.
-/

namespace LiteralAudit.Toml

/-- All tables in a value have their entries in the order of their keys. -/
inductive Node.Orderly : Node → Prop
  /-- A scalar holds no table. -/
  | scalar (value : Scalar) (span : Span) : Orderly (.scalar value span)
  /-- The items of an array. -/
  | array {items : List Node} {span : Span} : (∀ item ∈ items, Orderly item) →
      Orderly (.array items span)
  /-- The items of an array of tables. -/
  | tables {items : List Node} {span : Span} : (∀ item ∈ items, Orderly item) →
      Orderly (.tables items span)
  /-- A table and the values in it. -/
  | table {origin : Origin} {entries : Entries} {span : Span} : Json.Ascending entries →
      (∀ entry ∈ entries, Orderly entry.2.2) → Orderly (.table origin entries span)

namespace Entries

/-- All tables in some entries, and these themselves, are in the order of their keys. -/
structure Orderly (entries : Entries) : Prop where
  /-- The keys are in order. -/
  ascending : Json.Ascending entries
  /-- The tables in the values are orderly. -/
  nodes : ∀ entry ∈ entries, entry.2.2.Orderly

theorem orderly_nil : Orderly [] := ⟨Json.ascending_nil, List.forall_mem_nil _⟩

theorem Orderly.table {entries : Entries} (h : Orderly entries) (origin : Origin) (span : Span) :
    (Node.table origin entries span).Orderly := .table h.ascending h.nodes

theorem orderly_of_table {origin : Origin} {entries : Entries} {span : Span}
    (h : (Node.table origin entries span).Orderly) : Orderly entries := by
  cases h with
  | table hascending hnodes => exact ⟨hascending, hnodes⟩

/-- If there are entries, they are orderly. -/
abbrev EndsOrderly (result : Except Fault Entries) : Prop := Ends (fun _ => True) Orderly result

variable {entries : Entries} {name : Text}

/-- Setting an entry keeps the keys in order. -/
theorem Orderly.set (h : Orderly entries) (name : Text) (span : Span) {node : Node}
    (hnode : node.Orderly) : Orderly (entries.set name span node) := by
  refine ⟨Json.ascending_insertMember h.ascending, ?_⟩
  intro entry hentry
  rcases (Json.mem_insertMember h.ascending).mp hentry with rfl | ⟨-, hold⟩
  · exact hnode
  · exact h.nodes entry hold

theorem Orderly.get? (h : Orderly entries) {span : Span} {node : Node}
    (hget : entries.get? name = some (span, node)) : node.Orderly := by
  rw [Entries.get?, Option.map_eq_some_iff] at hget
  obtain ⟨entry, hfind, hentry⟩ := hget
  have hnode := h.nodes entry (List.mem_of_find?_eq_some hfind)
  rw [hentry] at hnode
  exact hnode

/-- A change that keeps tables orderly does so wherever it is made. -/
theorem Orderly.changeAt (dotted : Bool) {change : Entries → Origin → Except Fault Entries}
    (hchange : ∀ entries origin, Orderly entries → EndsOrderly (change entries origin))
    (keys : List Key) (origin : Origin) (h : Orderly entries) :
    EndsOrderly (entries.changeAt dotted change keys origin) := by
  induction keys generalizing entries origin with
  | nil => exact hchange entries origin h
  | cons key keys ih =>
      rw [Entries.changeAt]
      split
      · exact .bind (ih _ orderly_nil) fun inner hinner => h.set _ _ (hinner.table _ _)
      · trivial
      · next span origin inner place hbraced hget =>
          have hinner := orderly_of_table (h.get? hget)
          refine .ite (fun _ => trivial) (.bind (ih _ hinner) fun changed hchanged => ?_)
          exact h.set _ _ (hchanged.table _ _)
      · next span origin inner place items whole hget =>
          cases h.get? hget with
          | tables hitems =>
              obtain ⟨hfirst, hitems⟩ := List.forall_mem_cons.mp hitems
              refine .bind (ih _ (orderly_of_table hfirst)) fun changed hchanged => ?_
              exact h.set _ _ (.tables (List.forall_mem_cons.mpr ⟨hchanged.table _ _, hitems⟩))
      · trivial

/-- Adding a value under some keys keeps all tables orderly. -/
theorem Orderly.add (h : Orderly entries) (keys : List Key) {node : Node} (hnode : node.Orderly)
    (origin : Origin) : EndsOrderly (entries.add keys node origin) := by
  rw [Entries.add]
  split
  · exact h
  · refine h.changeAt true (fun inner origin hinner => ?_) _ origin
    exact .ite (fun _ => trivial) (.ite (fun _ => trivial) (hinner.set _ _ hnode))

theorem Orderly.openTable (h : Orderly entries) (key : Key) (span : Span) :
    EndsOrderly (entries.openTable key span) := by
  rw [Entries.openTable]
  split
  · exact h.set _ _ (orderly_nil.table _ _)
  · next hget => exact h.set _ _ ((orderly_of_table (h.get? hget)).table _ _)
  · trivial

theorem Orderly.openItem (h : Orderly entries) (key : Key) (span : Span) :
    EndsOrderly (entries.openItem key span) := by
  have hnew : (Node.table .explicit [] span).Orderly := orderly_nil.table _ _
  rw [Entries.openItem]
  split
  · exact h.set _ _ (.tables (List.forall_mem_singleton.mpr hnew))
  · next hget =>
      cases h.get? hget with
      | tables hitems => exact h.set _ _ (.tables (List.forall_mem_cons.mpr ⟨hnew, hitems⟩))
  · trivial

end Entries

/-! ## Documents -/

namespace Node

mutual

/-- A value that is written is orderly, since each of its tables is filled entry by entry. -/
theorem orderly_ofRaw : ∀ raw : RawValue, Ends (fun _ => True) Orderly (ofRaw raw)
  | .scalar raw => by
      rw [ofRaw]
      cases Scalar.ofRaw raw with
      | error => trivial
      | ok value => exact .scalar value _
  | .array items span => by
      rw [ofRaw]
      exact .bind (orderly_ofItems items) fun nodes hnodes => .array hnodes
  | .table pairs span => by
      rw [ofRaw]
      exact .bind (orderly_ofPairs pairs Entries.orderly_nil) fun entries hentries =>
        hentries.table _ _

theorem orderly_ofItems : ∀ items : List RawValue,
    Ends (fun _ => True) (fun nodes => ∀ node ∈ nodes, Orderly node) (ofItems items)
  | [] => by
      rw [ofItems]
      exact List.forall_mem_nil _
  | item :: items => by
      rw [ofItems]
      exact .bind (orderly_ofRaw item) fun node hnode =>
        .bind (orderly_ofItems items) fun nodes hnodes => List.forall_mem_cons.mpr ⟨hnode, hnodes⟩

theorem orderly_ofPairs : ∀ (pairs : List (List Raw × RawValue)) {entries : Entries},
    entries.Orderly → Entries.EndsOrderly (ofPairs entries pairs)
  | [], entries, h => by
      rw [ofPairs]
      exact h
  | (keys, value) :: pairs, entries, h => by
      rw [ofPairs]
      exact .bind (.any _) fun keys _ => .bind (orderly_ofRaw value) fun node hnode =>
        .bind (h.add keys hnode .explicit) fun entries hentries => orderly_ofPairs pairs hentries

end

end Node

/-- Every statement keeps the document orderly. -/
theorem Draft.orderly_add {draft : Draft} (h : draft.entries.Orderly) (statement : Statement) :
    Ends (fun _ => True) (fun next : Draft => next.entries.Orderly) (draft.add statement) := by
  cases statement with
  | header isArray keys span =>
      refine .bind (.any _) fun keys _ => ?_
      split
      · exact h
      · next key _ =>
          refine .bind (h.changeAt false (fun entries origin hentries => ?_) _ .explicit)
            fun entries hentries => hentries
          cases isArray with
          | true => exact hentries.openItem key span
          | false => exact hentries.openTable key span
  | pair keys value =>
      refine .bind (.any _) fun keys _ => .bind (Node.orderly_ofRaw value) fun node hnode => ?_
      refine .bind (h.changeAt false (fun entries origin hentries => ?_) _ .explicit)
        fun entries hentries => hentries
      exact hentries.add keys hnode origin

/-- No document repeats a key. -/
theorem orderly_read {text : Text} {entries : Entries} (h : read text = .ok entries) :
    entries.Orderly := by
  have hread : Entries.EndsOrderly (read text) := by
    refine .bind (.any _) fun statements _ => ?_
    have hstart : (Draft.mk [] []).entries.Orderly := Entries.orderly_nil
    exact .bind (.foldlM hstart fun draft hdraft statement _ => Draft.orderly_add hdraft statement)
      fun draft hdraft => hdraft
  rw [h] at hread
  exact hread

end LiteralAudit.Toml
