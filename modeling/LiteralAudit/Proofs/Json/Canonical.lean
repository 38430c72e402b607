import LiteralAudit.Proofs.Json.Members

/-!
# Values with their members in order

A value may be written with the members of an object in any order, but what is read has them in the
order of their names.  `canonical` puts them in order, at any depth.  If the names of an object are
different, each member is found under its name before and after (`member?_canonical`), so what is
read off the members of a value is the same (`field_canonical`).
-/

namespace LiteralAudit.Json

/-! ## Putting members in order -/

mutual

/-- The value with the members of each object in the order of their names. -/
def canonical : Json → Json
  | .null => .null
  | .bool value => .bool value
  | .num value => .num value
  | .str value => .str value
  | .array items => .array (canonicalItems items)
  | .object members => .object (canonicalMembers [] members)

/-- The items of a list, each with its members in order. -/
def canonicalItems : List Json → List Json
  | [] => []
  | item :: items => canonical item :: canonicalItems items

/-- The members that are known and more of them, in order. -/
def canonicalMembers : (known members : List (Text × Json)) → List (Text × Json)
  | known, [] => known
  | known, (name, value) :: members =>
      canonicalMembers (insertMember name (canonical value) known) members

end

theorem canonicalItems_eq (items : List Json) : canonicalItems items = items.map canonical := by
  induction items with
  | nil => rfl
  | cons item items ih => rw [canonicalItems, ih, List.map_cons]

/-! ## Members before and after -/

/-- If no name occurs twice, every member is kept, and no known one is lost but for a new one of its
name. -/
theorem mem_canonicalMembers {entry : Text × Json} : ∀ {members known : List (Text × Json)},
    Ascending known → (members.map Prod.fst).Nodup →
      (entry ∈ canonicalMembers known members ↔
        entry ∈ known ∧ entry.1 ∉ members.map Prod.fst ∨
          ∃ member ∈ members, entry = (member.1, canonical member.2))
  | [], known, _, _ => by simp [canonicalMembers]
  | (name, value) :: members, known, hknown, hnames => by
      obtain ⟨hfresh, hnames⟩ := List.nodup_cons.mp hnames
      rw [canonicalMembers, mem_canonicalMembers (ascending_insertMember hknown) hnames,
        mem_insertMember hknown]
      simp only [List.map_cons, List.mem_cons, not_or, exists_eq_or_imp]
      constructor
      · rintro (⟨rfl | ⟨hne, hmem⟩, hlater⟩ | hmember)
        · exact Or.inr (Or.inl rfl)
        · exact Or.inl ⟨hmem, hne, hlater⟩
        · exact Or.inr (Or.inr hmember)
      · rintro (⟨hmem, hne, hlater⟩ | rfl | hmember)
        · exact Or.inl ⟨Or.inr ⟨hne, hmem⟩, hlater⟩
        · exact Or.inl ⟨Or.inl rfl, hfresh⟩
        · exact Or.inr hmember

theorem ascending_canonicalMembers {members known : List (Text × Json)} (hknown : Ascending known) :
    Ascending (canonicalMembers known members) := by
  induction members generalizing known with
  | nil => exact hknown
  | cons entry members ih => exact ih (ascending_insertMember hknown)

theorem Ascending.nodup {members : List (Text × Json)} (h : Ascending members) :
    (members.map Prod.fst).Nodup :=
  List.pairwise_map.mpr (h.imp ne_of_nameBefore)

/-- Where names are different, a member is found if it is there. -/
theorem member?_eq_some {members : List (Text × Json)} (hnames : (members.map Prod.fst).Nodup)
    {name : Text} {value : Json} :
    (object members).member? name = some value ↔ (name, value) ∈ members := by
  induction members with
  | nil => simp [member?]
  | cons entry members ih =>
      obtain ⟨other, old⟩ := entry
      obtain ⟨hfresh, hnames⟩ := List.nodup_cons.mp hnames
      have hrest := ih hnames
      rw [member?] at hrest ⊢
      by_cases hother : other = name
      · subst hother
        have habsent : (other, value) ∉ members :=
          fun hmem => hfresh (List.mem_map.mpr ⟨_, hmem, rfl⟩)
        simp [habsent, eq_comm]
      · simp [hother, hrest, Ne.symm hother]

/-- A member is found under its name whether or not members are in order. -/
theorem member?_canonical {members : List (Text × Json)} (hnames : (members.map Prod.fst).Nodup)
    (name : Text) :
    (object members).canonical.member? name = ((object members).member? name).map canonical := by
  have hafter : ((canonicalMembers [] members).map Prod.fst).Nodup :=
    (ascending_canonicalMembers ascending_nil).nodup
  refine Option.ext fun value => ?_
  rw [canonical, member?_eq_some hafter, mem_canonicalMembers ascending_nil hnames,
    Option.map_eq_some_iff]
  simp only [List.not_mem_nil, false_and, false_or, member?_eq_some hnames]
  constructor
  · rintro ⟨⟨other, old⟩, hmem, heq⟩
    obtain ⟨rfl, rfl⟩ := Prod.mk.inj heq
    exact ⟨old, hmem, rfl⟩
  · rintro ⟨old, hmem, rfl⟩
    exact ⟨(name, old), hmem, rfl⟩

/-! ## Reading off values -/

/-- The text that a value is. -/
def asText : Json → Option Text
  | .str text => some text
  | _ => none

/-- The natural that a value is. -/
def asNatural : Json → Option Nat
  | .num (.natural n) => some n
  | _ => none

/-- What the items of a list are. -/
def asList {α : Type} (item : Json → Option α) : Json → Option (List α)
  | .array items => items.mapM item
  | _ => none

/-- What the member with a name is. -/
def field {α : Type} (name : Text) (decode : Json → Option α) (value : Json) : Option α :=
  (value.member? name).bind decode

/-- What the member with a name is, if there is one. -/
def fieldIfAny {α : Type} (name : Text) (decode : Json → Option α) (value : Json) :
    Option (Option α) :=
  match value.member? name with
  | some inner => (decode inner).map some
  | none => some none

/-- Whether an object has members of the given names only. -/
def hasOnly (names : List Text) : Json → Bool
  | .object members => members.all fun entry => names.contains entry.1
  | _ => false

theorem mapM_eq_some_map {α β : Type} {f : α → Option β} {value : α → β} {items : List α}
    (h : ∀ item ∈ items, f item = some (value item)) : items.mapM f = some (items.map value) := by
  induction items with
  | nil => rfl
  | cons item items ih =>
      obtain ⟨hitem, hitems⟩ := List.forall_mem_cons.mp h
      rw [List.mapM_cons, hitem, ih hitems]
      rfl

theorem asList_canonical {α β : Type} {item : Json → Option β} {write : α → Json} {written : α → β}
    {values : List α} (h : ∀ value ∈ values, item (write value).canonical = some (written value)) :
    asList item (canonical (.array (values.map write))) = some (values.map written) := by
  rw [canonical, canonicalItems_eq, asList, List.map_map, List.mapM_map]
  exact mapM_eq_some_map h

/-- An object whose members have different names. -/
def Distinct : Json → Prop
  | .object members => (members.map Prod.fst).Nodup
  | _ => False

theorem distinct_object {members : List (Text × Json)} :
    (object members).Distinct ↔ (members.map Prod.fst).Nodup := Iff.rfl

section Distinct

variable {α : Type} {value : Json} (hdistinct : value.Distinct)

include hdistinct

/-- Reading back does not change which member has a name, only the order of its own members. -/
theorem field_canonical (name : Text) (decode : Json → Option α) :
    value.canonical.field name decode =
      (value.member? name).bind fun inner => decode inner.canonical := by
  cases value with
  | object members =>
      rw [field, member?_canonical hdistinct, Option.bind_map]
      rfl
  | _ => exact hdistinct.elim

theorem field_of_member {name : Text} {inner : Json} (h : value.member? name = some inner)
    (decode : Json → Option α) : value.canonical.field name decode = decode inner.canonical := by
  rw [field_canonical hdistinct, h]
  rfl

theorem fieldIfAny_canonical (name : Text) (decode : Json → Option α) :
    value.canonical.fieldIfAny name decode =
      match value.member? name with
      | some inner => (decode inner.canonical).map some
      | none => some none := by
  cases value with
  | object members =>
      rw [fieldIfAny, member?_canonical hdistinct]
      cases (object members).member? name <;> rfl
  | _ => exact hdistinct.elim

theorem hasOnly_canonical (names : List Text) :
    value.canonical.hasOnly names = value.hasOnly names := by
  cases value with
  | object members =>
      rw [Bool.eq_iff_iff, canonical, hasOnly, hasOnly, List.all_eq_true, List.all_eq_true]
      constructor
      · rintro h ⟨name, value⟩ hmem
        exact h (name, canonical value) ((mem_canonicalMembers ascending_nil hdistinct).mpr
          (Or.inr ⟨_, hmem, rfl⟩))
      · intro h entry hmem
        rcases (mem_canonicalMembers ascending_nil hdistinct).mp hmem with
          ⟨hknown, -⟩ | ⟨old, hold, rfl⟩
        · exact absurd hknown List.not_mem_nil
        · exact h old hold
  | _ => exact hdistinct.elim

end Distinct

end LiteralAudit.Json
