import LiteralAudit.Pattern
import LiteralAudit.Proofs.Text.Part
import Mathlib.Data.List.Basic

/-!
# What a pattern takes

`Takes` says which beginnings of a text a pattern takes, given what stands before and behind, and
which stretches it remembers on the way.  It knows nothing of preferences and of the order in
which ends are tried.

The ends that matching at a place gives are exactly those of what the pattern takes
(`mem_ends`).  The match at a place is one of them (`takes_of_matchAt?`), there is one if the
pattern takes anything (`matchAt?_eq_none`), and if the pattern can take only one thing, that is
the match (`matchAt?_of_unique`).

The last section reads off `Takes` for the patterns that others are built from.
-/

namespace LiteralAudit

open Text (byteSize Part)

/-! ## Places between the parts of a line -/

/-- The place between two parts of a line. -/
def Place.between (before after : Text) : Place := ⟨before.getLast?, byteSize before, after⟩

@[simp] theorem Place.advance_between (before : Text) (c : Char) (after : Text) :
    (Place.between before (c :: after)).advance c after = .between (before ++ [c]) after := by
  simp [Place.between, Place.advance, Text.byteSize_singleton]

namespace Pattern

/-! ## Taking -/

/-- A pattern takes a piece of a text that stands between `before` and `rest`, and remembers
stretches on the way. -/
inductive Takes : Pattern → (before piece rest : Text) → List Span → Prop
  /-- Nothing is taken. -/
  | empty {before rest : Text} : Takes .empty before [] rest []
  /-- Nothing is taken where a word begins or ends. -/
  | wordEdge {before rest : Text} :
      (Place.between before rest).isWordEdge = true → Takes .wordEdge before [] rest []
  /-- One character is taken. -/
  | one {accepts : Char → Bool} {before rest : Text} {c : Char} :
      accepts c = true → Takes (.one accepts) before [c] rest []
  /-- A run need not be as long as it can. -/
  | run {accepts : Char → Bool} {before piece rest : Text} :
      (∀ c ∈ piece, accepts c = true) → Takes (.run accepts) before piece rest []
  /-- What may be there is there. -/
  | maybe {inner : Pattern} {before piece rest : Text} {groups : List Span} :
      Takes inner before piece rest groups → Takes (.maybe inner) before piece rest groups
  /-- What may be there is passed over. -/
  | none {inner : Pattern} {before rest : Text} : Takes (.maybe inner) before [] rest []
  /-- The second pattern goes on where the first one stops. -/
  | seq {first second : Pattern} {before left right rest : Text} {groups more : List Span} :
      Takes first before left (right ++ rest) groups →
      Takes second (before ++ left) right rest more →
      Takes (.seq first second) before (left ++ right) rest (groups ++ more)
  /-- The left alternative is taken. -/
  | left {left right : Pattern} {before piece rest : Text} {groups : List Span} :
      Takes left before piece rest groups → Takes (.either left right) before piece rest groups
  /-- The right alternative is taken. -/
  | right {left right : Pattern} {before piece rest : Text} {groups : List Span} :
      Takes right before piece rest groups → Takes (.either left right) before piece rest groups
  /-- The stretch of the piece is remembered. -/
  | group {inner : Pattern} {before piece rest : Text} {groups : List Span} :
      Takes inner before piece rest groups →
      Takes (.group inner) before piece rest (Part.spanOf before piece :: groups)

/-! ## Ends -/

theorem mem_runEnds {accepts : Char → Bool} {last : MatchEnd} :
    ∀ {before after : Text} {ends : List MatchEnd},
      last ∈ runEnds accepts after (.between before after) ends ↔
        last ∈ ends ∨ ∃ piece rest, after = piece ++ rest ∧
          last = ⟨.between (before ++ piece) rest, []⟩ ∧ ∀ c ∈ piece, accepts c = true
  | before, [], ends => by
      rw [runEnds, List.mem_cons, or_comm]
      constructor
      · rintro (h | rfl)
        · exact Or.inl h
        · exact Or.inr ⟨[], [], rfl, by simp, by simp⟩
      · rintro (h | ⟨piece, rest, hafter, rfl, -⟩)
        · exact Or.inl h
        · obtain ⟨rfl, rfl⟩ := List.append_eq_nil_iff.mp hafter.symm
          exact Or.inr (by simp)
  | before, c :: after, ends => by
      rw [runEnds, Place.advance_between]
      split_ifs with hc
      · rw [mem_runEnds, List.mem_cons]
        constructor
        · rintro ((rfl | h) | ⟨piece, rest, rfl, rfl, hall⟩)
          · exact Or.inr ⟨[], c :: after, rfl, by simp, by simp⟩
          · exact Or.inl h
          · exact Or.inr ⟨c :: piece, rest, rfl, by simp, List.forall_mem_cons.mpr ⟨hc, hall⟩⟩
        · rintro (h | ⟨piece, rest, hafter, rfl, hall⟩)
          · exact Or.inl (Or.inr h)
          · cases piece with
            | nil =>
                rw [List.nil_append] at hafter
                subst hafter
                exact Or.inl (Or.inl (by simp))
            | cons d piece =>
                obtain ⟨rfl, rfl⟩ := List.cons.inj hafter
                exact Or.inr ⟨piece, rest, rfl, by simp, (List.forall_mem_cons.mp hall).2⟩
      · rw [List.mem_cons, or_comm]
        constructor
        · rintro (h | rfl)
          · exact Or.inl h
          · exact Or.inr ⟨[], c :: after, rfl, by simp, by simp⟩
        · rintro (h | ⟨piece, rest, hafter, rfl, hall⟩)
          · exact Or.inl h
          · cases piece with
            | nil =>
                rw [List.nil_append] at hafter
                subst hafter
                exact Or.inr (by simp)
            | cons d piece =>
                obtain ⟨rfl, -⟩ := List.cons.inj hafter
                exact absurd (hall c (List.mem_cons_self ..)) hc

/-- The ends at a place are those of the pieces that the pattern takes there. -/
theorem mem_ends {pattern : Pattern} {before after : Text} {last : MatchEnd} :
    last ∈ pattern.ends (.between before after) ↔
      ∃ piece rest, after = piece ++ rest ∧ last.place = .between (before ++ piece) rest ∧
        Takes pattern before piece rest last.groups := by
  induction pattern generalizing before after last with
  | empty =>
      rw [ends, List.mem_singleton]
      constructor
      · rintro rfl
        exact ⟨[], after, rfl, by simp, .empty⟩
      · rintro ⟨piece, rest, rfl, hplace, htakes⟩
        obtain ⟨place, groups⟩ := last
        cases htakes
        simpa using hplace
  | wordEdge =>
      rw [ends]
      constructor
      · intro h
        split_ifs at h with hedge
        · cases List.mem_singleton.mp h
          exact ⟨[], after, rfl, by simp, .wordEdge hedge⟩
        · cases h
      · rintro ⟨piece, rest, rfl, hplace, htakes⟩
        obtain ⟨place, groups⟩ := last
        cases htakes with
        | wordEdge hedge => simpa [hedge] using hplace
  | one accepts =>
      rw [ends]
      constructor
      · intro h
        cases after with
        | nil => cases h
        | cons c after =>
            simp only [Place.between] at h
            split_ifs at h with hc
            · cases List.mem_singleton.mp h
              exact ⟨[c], after, rfl, Place.advance_between .., .one hc⟩
            · cases h
      · rintro ⟨piece, rest, rfl, hplace, htakes⟩
        obtain ⟨place, groups⟩ := last
        cases htakes with
        | @one _ _ _ c hc =>
            have hadvance := Place.advance_between before c rest
            simp only [Place.between] at hadvance hplace ⊢
            simp [hc, hplace, hadvance]
  | run accepts =>
      rw [ends]
      show last ∈ runEnds accepts after (.between before after) [] ↔ _
      rw [mem_runEnds]
      constructor
      · rintro (h | ⟨piece, rest, rfl, rfl, hall⟩)
        · cases h
        · exact ⟨piece, rest, rfl, rfl, .run hall⟩
      · rintro ⟨piece, rest, rfl, hplace, htakes⟩
        obtain ⟨place, groups⟩ := last
        cases htakes with
        | run hall => exact Or.inr ⟨piece, rest, rfl, by simpa using hplace, hall⟩
  | maybe inner ih =>
      rw [ends, List.mem_append, List.mem_singleton, ih]
      constructor
      · rintro (⟨piece, rest, rfl, hplace, htakes⟩ | rfl)
        · exact ⟨piece, rest, rfl, hplace, .maybe htakes⟩
        · exact ⟨[], after, rfl, by simp, .none⟩
      · rintro ⟨piece, rest, rfl, hplace, htakes⟩
        obtain ⟨place, groups⟩ := last
        cases htakes with
        | maybe htakes => exact Or.inl ⟨piece, rest, rfl, hplace, htakes⟩
        | none => exact Or.inr (by simpa using hplace)
  | seq first second ihfirst ihsecond =>
      rw [ends, List.mem_flatMap]
      constructor
      · rintro ⟨middle, hmiddle, hlast⟩
        obtain ⟨final, hfinal, rfl⟩ := List.mem_map.mp hlast
        obtain ⟨left, rest, rfl, hplace, htakes⟩ := ihfirst.mp hmiddle
        rw [hplace] at hfinal
        obtain ⟨right, rest, rfl, hplace, htakes'⟩ := ihsecond.mp hfinal
        exact ⟨left ++ right, rest, by simp, by simpa using hplace, .seq htakes htakes'⟩
      · rintro ⟨piece, rest, rfl, hplace, htakes⟩
        obtain ⟨place, groups⟩ := last
        cases htakes with
        | @seq _ _ _ left right _ groups more hleft hright =>
            refine ⟨⟨.between (before ++ left) (right ++ rest), groups⟩, ?_, ?_⟩
            · exact ihfirst.mpr ⟨left, right ++ rest, by simp, rfl, hleft⟩
            · refine List.mem_map.mpr ⟨⟨.between (before ++ left ++ right) rest, more⟩, ?_, ?_⟩
              · exact ihsecond.mpr ⟨right, rest, rfl, rfl, hright⟩
              · simpa using hplace.symm
  | either left right ihleft ihright =>
      rw [ends, List.mem_append, ihleft, ihright]
      constructor
      · rintro (⟨piece, rest, rfl, hplace, htakes⟩ | ⟨piece, rest, rfl, hplace, htakes⟩)
        · exact ⟨piece, rest, rfl, hplace, .left htakes⟩
        · exact ⟨piece, rest, rfl, hplace, .right htakes⟩
      · rintro ⟨piece, rest, rfl, hplace, htakes⟩
        cases htakes with
        | left htakes => exact Or.inl ⟨piece, rest, rfl, hplace, htakes⟩
        | right htakes => exact Or.inr ⟨piece, rest, rfl, hplace, htakes⟩
  | group inner ih =>
      rw [ends, List.mem_map]
      constructor
      · rintro ⟨final, hfinal, rfl⟩
        obtain ⟨piece, rest, rfl, hplace, htakes⟩ := ih.mp hfinal
        refine ⟨piece, rest, rfl, hplace, ?_⟩
        rw [hplace]
        exact .group htakes
      · rintro ⟨piece, rest, rfl, hplace, htakes⟩
        obtain ⟨place, groups⟩ := last
        cases htakes with
        | @group _ _ _ _ groups htakes =>
            refine ⟨⟨place, groups⟩, ih.mpr ⟨piece, rest, rfl, hplace, htakes⟩, ?_⟩
            cases hplace
            rfl

/-! ## The match at a place -/

/-- The match of a piece that stands behind `before`. -/
def matchOf (before piece : Text) (groups : List Span) : Match := ⟨Part.spanOf before piece, groups⟩

/-- The match at a place is one of the pieces that the pattern takes there. -/
theorem takes_of_matchAt? {pattern : Pattern} {before after : Text} {found : Match}
    (h : pattern.matchAt? (.between before after) = some found) :
    ∃ piece rest groups, after = piece ++ rest ∧ found = matchOf before piece groups ∧
      Takes pattern before piece rest groups := by
  rw [matchAt?] at h
  split at h
  · cases h
  · rename_i last others hends
    cases h
    have hlast : last ∈ pattern.ends (.between before after) := hends ▸ List.mem_cons_self ..
    obtain ⟨piece, rest, rfl, hplace, htakes⟩ := mem_ends.mp hlast
    refine ⟨piece, rest, last.groups, rfl, ?_, htakes⟩
    rw [hplace]
    rfl

/-- There is no match at a place where the pattern takes nothing. -/
theorem matchAt?_eq_none {pattern : Pattern} {before after : Text} :
    pattern.matchAt? (.between before after) = none ↔
      ∀ piece rest groups, after = piece ++ rest → ¬Takes pattern before piece rest groups := by
  constructor
  · intro h piece rest groups hafter htakes
    have hlast : (⟨.between (before ++ piece) rest, groups⟩ : MatchEnd) ∈
        pattern.ends (.between before after) :=
      mem_ends.mpr ⟨piece, rest, hafter, rfl, htakes⟩
    rw [matchAt?] at h
    split at h
    · rename_i hends
      rw [hends] at hlast
      cases hlast
    · cases h
  · intro h
    cases hfound : pattern.matchAt? (.between before after) with
    | none => rfl
    | some found =>
        obtain ⟨piece, rest, groups, hafter, -, htakes⟩ := takes_of_matchAt? hfound
        exact absurd htakes (h piece rest groups hafter)

/-- If a pattern can take only one piece at a place, that is the match. -/
theorem matchAt?_of_unique {pattern : Pattern} {before piece rest : Text} {groups : List Span}
    (htakes : Takes pattern before piece rest groups)
    (hunique : ∀ piece' rest' groups', piece ++ rest = piece' ++ rest' →
      Takes pattern before piece' rest' groups' → piece' = piece ∧ groups' = groups) :
    pattern.matchAt? (.between before (piece ++ rest)) = some (matchOf before piece groups) := by
  cases hfound : pattern.matchAt? (.between before (piece ++ rest)) with
  | none => exact absurd htakes (matchAt?_eq_none.mp hfound piece rest groups rfl)
  | some found =>
      obtain ⟨piece', rest', groups', hafter, rfl, htakes'⟩ := takes_of_matchAt? hfound
      obtain ⟨rfl, rfl⟩ := hunique piece' rest' groups' hafter htakes'
      rfl

/-! ## Patterns built from others -/

/-- Two patterns in a row take two pieces in a row, and their groups come one after the other. -/
theorem takes_seq {first second : Pattern} {before piece rest : Text} {groups : List Span} :
    Takes (.seq first second) before piece rest groups ↔
      ∃ left right more fewer, piece = left ++ right ∧ groups = fewer ++ more ∧
        Takes first before left (right ++ rest) fewer ∧
        Takes second (before ++ left) right rest more := by
  constructor
  · intro h
    cases h with
    | seq hleft hright => exact ⟨_, _, _, _, rfl, rfl, hleft, hright⟩
  · rintro ⟨left, right, more, fewer, rfl, rfl, hleft, hright⟩
    exact .seq hleft hright

theorem takes_either {left right : Pattern} {before piece rest : Text} {groups : List Span} :
    Takes (.either left right) before piece rest groups ↔
      Takes left before piece rest groups ∨ Takes right before piece rest groups := by
  constructor
  · intro h
    cases h with
    | left h => exact Or.inl h
    | right h => exact Or.inr h
  · rintro (h | h)
    · exact .left h
    · exact .right h

theorem takes_one {accepts : Char → Bool} {before piece rest : Text} {groups : List Span} :
    Takes (.one accepts) before piece rest groups ↔
      ∃ c, piece = [c] ∧ accepts c = true ∧ groups = [] := by
  constructor
  · intro h
    cases h with
    | one hc => exact ⟨_, rfl, hc, rfl⟩
  · rintro ⟨c, rfl, hc, rfl⟩
    exact .one hc

/-- A run takes any number of accepted characters, none included. -/
theorem takes_run {accepts : Char → Bool} {before piece rest : Text} {groups : List Span} :
    Takes (.run accepts) before piece rest groups ↔
      (∀ c ∈ piece, accepts c = true) ∧ groups = [] := by
  constructor
  · intro h
    cases h with
    | run hall => exact ⟨hall, rfl⟩
  · rintro ⟨hall, rfl⟩
    exact .run hall

theorem takes_maybe {inner : Pattern} {before piece rest : Text} {groups : List Span} :
    Takes (.maybe inner) before piece rest groups ↔
      Takes inner before piece rest groups ∨ piece = [] ∧ groups = [] := by
  constructor
  · intro h
    cases h with
    | maybe h => exact Or.inl h
    | none => exact Or.inr ⟨rfl, rfl⟩
  · rintro (h | ⟨rfl, rfl⟩)
    · exact .maybe h
    · exact .none

/-- A group takes what its pattern takes, and records the piece in front of the groups inside. -/
theorem takes_group {inner : Pattern} {before piece rest : Text} {groups : List Span} :
    Takes (.group inner) before piece rest groups ↔
      ∃ more, groups = Part.spanOf before piece :: more ∧ Takes inner before piece rest more := by
  constructor
  · intro h
    cases h with
    | group h => exact ⟨_, rfl, h⟩
  · rintro ⟨more, rfl, h⟩
    exact .group h

/-- The characters of a text are taken as they are. -/
theorem takes_exactly : ∀ {text before piece rest : Text} {groups : List Span},
    Takes (exactly text) before piece rest groups ↔ piece = text ∧ groups = []
  | [], before, piece, rest, groups => by
      constructor
      · intro h
        cases h
        exact ⟨rfl, rfl⟩
      · rintro ⟨rfl, rfl⟩
        exact .empty
  | c :: text, before, piece, rest, groups => by
      rw [exactly, takes_seq]
      constructor
      · rintro ⟨left, right, more, fewer, rfl, rfl, hleft, hright⟩
        obtain ⟨rfl, rfl⟩ := takes_exactly.mp hright
        cases hleft with
        | one hc =>
            rw [of_decide_eq_true hc]
            exact ⟨rfl, rfl⟩
      · rintro ⟨rfl, rfl⟩
        exact ⟨[c], text, [], [], rfl, rfl, .one (decide_eq_true rfl), takes_exactly.mpr ⟨rfl, rfl⟩⟩

/-- A text in small letters is taken in either case. -/
theorem takes_anyCase : ∀ {text before piece rest : Text} {groups : List Span},
    Takes (anyCase text) before piece rest groups ↔ piece.map Text.fold = text ∧ groups = []
  | [], before, piece, rest, groups => by
      constructor
      · intro h
        cases h
        exact ⟨rfl, rfl⟩
      · rintro ⟨hpiece, rfl⟩
        rw [List.map_eq_nil_iff.mp hpiece]
        exact .empty
  | c :: text, before, piece, rest, groups => by
      rw [anyCase, takes_seq]
      constructor
      · rintro ⟨left, right, more, fewer, rfl, rfl, hleft, hright⟩
        obtain ⟨rfl, rfl⟩ := takes_anyCase.mp hright
        cases hleft with
        | one hc =>
            rw [← of_decide_eq_true hc]
            exact ⟨rfl, rfl⟩
      · rintro ⟨hpiece, rfl⟩
        obtain ⟨d, piece, rfl, hd, hmap⟩ := List.map_eq_cons_iff.mp hpiece
        exact ⟨[d], piece, [], [], rfl, rfl, .one (decide_eq_true hd),
          takes_anyCase.mpr ⟨hmap, rfl⟩⟩

/-- A number of characters of a kind is taken. -/
theorem takes_times {accepts : Char → Bool} : ∀ {n : Nat} {before piece rest : Text}
    {groups : List Span}, Takes (times accepts n) before piece rest groups ↔
      piece.length = n ∧ (∀ c ∈ piece, accepts c = true) ∧ groups = []
  | 0, before, piece, rest, groups => by
      constructor
      · intro h
        cases h
        exact ⟨rfl, by simp, rfl⟩
      · rintro ⟨hlength, -, rfl⟩
        rw [List.length_eq_zero_iff.mp hlength]
        exact .empty
  | n + 1, before, piece, rest, groups => by
      rw [times, takes_seq]
      constructor
      · rintro ⟨left, right, more, fewer, rfl, rfl, hleft, hright⟩
        obtain ⟨rfl, hall, rfl⟩ := takes_times.mp hright
        cases hleft with
        | one hc => exact ⟨rfl, List.forall_mem_cons.mpr ⟨hc, hall⟩, rfl⟩
      · rintro ⟨hlength, hall, rfl⟩
        obtain ⟨c, piece, rfl⟩ := List.exists_cons_of_length_eq_add_one hlength
        obtain ⟨hc, hall⟩ := List.forall_mem_cons.mp hall
        exact ⟨[c], piece, [], [], rfl, rfl, .one hc,
          takes_times.mpr ⟨Nat.succ.inj hlength, hall, rfl⟩⟩

/-- A run of at least one character of a kind is taken. -/
theorem takes_atLeastOne {accepts : Char → Bool} {before piece rest : Text}
    {groups : List Span} : Takes (atLeastOne accepts) before piece rest groups ↔
      piece ≠ [] ∧ (∀ c ∈ piece, accepts c = true) ∧ groups = [] := by
  rw [atLeastOne, takes_seq]
  constructor
  · rintro ⟨left, right, more, fewer, rfl, rfl, hleft, hright⟩
    cases hleft with
    | one hc =>
        cases hright with
        | run hall => exact ⟨List.cons_ne_nil _ _, List.forall_mem_cons.mpr ⟨hc, hall⟩, rfl⟩
  · rintro ⟨hne, hall, rfl⟩
    obtain ⟨c, piece, rfl⟩ := List.exists_cons_of_ne_nil hne
    obtain ⟨hc, hall⟩ := List.forall_mem_cons.mp hall
    exact ⟨[c], piece, [], [], rfl, rfl, .one hc, .run hall⟩

/-- One of several patterns is taken. -/
theorem takes_firstOf {otherwise : Pattern} {before piece rest : Text} {groups : List Span} :
    ∀ {patterns : List Pattern}, Takes (firstOf patterns otherwise) before piece rest groups ↔
      (∃ pattern ∈ patterns, Takes pattern before piece rest groups) ∨
        Takes otherwise before piece rest groups
  | [] => by simp [firstOf]
  | first :: patterns => by
      rw [firstOf, takes_either, takes_firstOf, List.exists_mem_cons_iff, or_assoc]

theorem takes_inOrder_nil {before piece rest : Text} {groups : List Span} :
    Takes (inOrder []) before piece rest groups ↔ piece = [] ∧ groups = [] := by
  constructor
  · intro h
    cases h
    exact ⟨rfl, rfl⟩
  · rintro ⟨rfl, rfl⟩
    exact .empty

theorem takes_inOrder_cons {first : Pattern} {patterns : List Pattern}
    {before piece rest : Text} {groups : List Span} :
    Takes (inOrder (first :: patterns)) before piece rest groups ↔
      ∃ left right more fewer, piece = left ++ right ∧ groups = fewer ++ more ∧
        Takes first before left (right ++ rest) fewer ∧
        Takes (inOrder patterns) (before ++ left) right rest more := by
  rw [inOrder, takes_seq]

theorem takes_inOrder_append {later : List Pattern} :
    ∀ {patterns : List Pattern} {before piece rest : Text} {groups : List Span},
      Takes (inOrder (patterns ++ later)) before piece rest groups ↔
        ∃ left right more fewer, piece = left ++ right ∧ groups = fewer ++ more ∧
          Takes (inOrder patterns) before left (right ++ rest) fewer ∧
          Takes (inOrder later) (before ++ left) right rest more
  | [], before, piece, rest, groups => by
      simp only [takes_inOrder_nil]
      constructor
      · intro h
        exact ⟨[], piece, groups, [], rfl, rfl, ⟨rfl, rfl⟩, by simpa using h⟩
      · rintro ⟨left, right, more, fewer, rfl, rfl, ⟨rfl, rfl⟩, h⟩
        simpa using h
  | first :: patterns, before, piece, rest, groups => by
      rw [List.cons_append]
      simp only [takes_inOrder_cons, takes_inOrder_append]
      constructor
      · rintro ⟨left, _, _, fewer, rfl, rfl, hfirst, middle, right, more, some, rfl, rfl, hin,
          hlater⟩
        exact ⟨left ++ middle, right, more, fewer ++ some, by simp, by simp,
          ⟨left, middle, some, fewer, rfl, rfl, by simpa using hfirst, hin⟩, by simpa using hlater⟩
      · rintro ⟨_, right, more, _, rfl, rfl, ⟨left, middle, some, fewer, rfl, rfl, hfirst, hin⟩,
          hlater⟩
        exact ⟨left, middle ++ right, some ++ more, fewer, by simp, by simp, by simpa using hfirst,
          middle, right, more, some, rfl, rfl, hin, by simpa using hlater⟩

end Pattern

end LiteralAudit
