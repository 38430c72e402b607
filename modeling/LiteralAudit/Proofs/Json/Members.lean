import LiteralAudit.Json
import Mathlib.Data.List.Lex
import Mathlib.Data.String.Basic

/-!
# Named values in order

The members of an object are kept in the order of their names.  `nameBefore` is the strict
lexicographic order of texts (`nameBefore_iff`), so it is transitive and any two different names
are in order one way or the other.

A list of named values is *ascending* if each name comes before all later ones.  `insertMember`
keeps such a list ascending, and what it holds afterwards is the new pair and the old pairs with
other names (`mem_insertMember`).  The second fact needs the first: below the place where the
new name belongs nothing looks for an old value of that name.
-/

namespace LiteralAudit.Json

variable {α : Type}

/-! ## The order of names -/

/-- Names are ordered lexicographically. -/
theorem nameBefore_iff : ∀ a b : Text, nameBefore a b = true ↔ a < b
  | [], [] => by simp [nameBefore]
  | [], _ :: _ => by simp [nameBefore]
  | _ :: _, [] => by simp [nameBefore]
  | a :: as, b :: bs => by
      rw [nameBefore, List.cons_lt_cons_iff]
      rcases lt_trichotomy a b with h | h | h
      · simp [h]
      · subst h
        simp [nameBefore_iff as bs]
      · simp [h, not_lt_of_gt h, ne_of_gt h]

/-- The order of names is that of their bytes, so it is transitive. -/
theorem nameBefore_trans {a b c : Text} (hab : nameBefore a b = true)
    (hbc : nameBefore b c = true) : nameBefore a c = true := by
  rw [nameBefore_iff] at hab hbc ⊢
  exact lt_trans hab hbc

theorem ne_of_nameBefore {a b : Text} (h : nameBefore a b = true) : a ≠ b := by
  rw [nameBefore_iff] at h
  exact ne_of_lt h

/-- Of two different names one comes before the other. -/
theorem nameBefore_of_not {a b : Text} (hne : a ≠ b) (h : ¬nameBefore b a = true) :
    nameBefore a b = true := by
  rw [nameBefore_iff] at h ⊢
  exact lt_of_le_of_ne (not_lt.mp h) hne

/-! ## Ascending lists -/

/-- Each name comes before all later ones. -/
def Ascending (members : List (Text × α)) : Prop :=
  members.Pairwise fun a b => nameBefore a.1 b.1 = true

theorem ascending_nil : Ascending ([] : List (Text × α)) := List.Pairwise.nil

theorem ascending_cons {entry : Text × α} {members : List (Text × α)} :
    Ascending (entry :: members) ↔
      (∀ later ∈ members, nameBefore entry.1 later.1 = true) ∧ Ascending members :=
  List.pairwise_cons

/-- What an ascending list holds after an insertion. -/
theorem mem_insertMember {name : Text} {value : α} {entry : Text × α} :
    ∀ {members : List (Text × α)}, Ascending members →
      (entry ∈ insertMember name value members ↔
        entry = (name, value) ∨ entry.1 ≠ name ∧ entry ∈ members)
  | [], _ => by simp [insertMember]
  | (other, old) :: members, h => by
      obtain ⟨hfirst, hrest⟩ := ascending_cons.mp h
      rw [insertMember]
      split_ifs with heq hbefore
      · subst heq
        constructor
        · intro hmem
          cases List.mem_cons.mp hmem with
          | inl hnew => exact Or.inl hnew
          | inr hold =>
              exact Or.inr ⟨(ne_of_nameBefore (hfirst entry hold)).symm,
                List.mem_cons_of_mem _ hold⟩
        · rintro (rfl | ⟨hne, hmem⟩)
          · exact List.mem_cons_self ..
          · cases List.mem_cons.mp hmem with
            | inl hold => exact absurd (congrArg Prod.fst hold) hne
            | inr hold => exact List.mem_cons_of_mem _ hold
      · have hother : ∀ found ∈ (other, old) :: members, found.1 ≠ name := by
          intro found hmem
          cases List.mem_cons.mp hmem with
          | inl hhead => subst hhead; exact heq
          | inr hlater =>
              exact (ne_of_nameBefore (nameBefore_trans hbefore (hfirst found hlater))).symm
        rw [List.mem_cons]
        constructor
        · rintro (hnew | hold)
          · exact Or.inl hnew
          · exact Or.inr ⟨hother entry hold, hold⟩
        · rintro (hnew | ⟨-, hold⟩)
          · exact Or.inl hnew
          · exact Or.inr hold
      · rw [List.mem_cons, mem_insertMember hrest, List.mem_cons]
        constructor
        · rintro (rfl | hnew | ⟨hne, hold⟩)
          · exact Or.inr ⟨heq, Or.inl rfl⟩
          · exact Or.inl hnew
          · exact Or.inr ⟨hne, Or.inr hold⟩
        · rintro (hnew | ⟨hne, hhead | hold⟩)
          · exact Or.inr (Or.inl hnew)
          · exact Or.inl hhead
          · exact Or.inr (Or.inr ⟨hne, hold⟩)

/-- An insertion keeps a list ascending. -/
theorem ascending_insertMember {name : Text} {value : α} :
    ∀ {members : List (Text × α)}, Ascending members →
      Ascending (insertMember name value members)
  | [], _ => ascending_cons.mpr ⟨by simp, ascending_nil⟩
  | (other, old) :: members, h => by
      obtain ⟨hfirst, hrest⟩ := ascending_cons.mp h
      rw [insertMember]
      split_ifs with heq hbefore
      · subst heq
        exact ascending_cons.mpr ⟨hfirst, hrest⟩
      · refine ascending_cons.mpr ⟨?_, h⟩
        intro later hlater
        cases List.mem_cons.mp hlater with
        | inl hhead => subst hhead; exact hbefore
        | inr hmem => exact nameBefore_trans hbefore (hfirst later hmem)
      · refine ascending_cons.mpr ⟨?_, ascending_insertMember hrest⟩
        intro later hlater
        rcases (mem_insertMember hrest).mp hlater with rfl | ⟨-, hmem⟩
        · exact nameBefore_of_not heq hbefore
        · exact hfirst later hmem

end LiteralAudit.Json
