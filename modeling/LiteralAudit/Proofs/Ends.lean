import Mathlib.Data.List.Forall2

/-!
# What comes of steps that may fail

`Ends F P` says of a result that it satisfies `P`, and of a fault instead of it that it satisfies
`F`.  So a fact about every result and every fault goes from one step to the next.

Steps in a row succeed if each one does (`bind_eq_ok`, `mapM_eq_ok`).
-/

namespace LiteralAudit

/-- A result satisfies `P`, or the fault instead of it satisfies `F`. -/
def Ends {ε α : Type} (F : ε → Prop) (P : α → Prop) : Except ε α → Prop
  | .ok result => P result
  | .error fault => F fault

namespace Ends

variable {ε α β : Type} {F : ε → Prop} {P : α → Prop} {Q : β → Prop}

/-- What a step ends in, the next one may rely on. -/
theorem bind {first : Except ε α} {later : α → Except ε β} (hfirst : Ends F P first)
    (hlater : ∀ result, P result → Ends F Q (later result)) : Ends F Q (first >>= later) := by
  cases first with
  | error => exact hfirst
  | ok result => exact hlater result hfirst

/-- Nothing is said of a result. -/
theorem any (result : Except ε α) : Ends (fun _ => True) (fun _ => True) result := by
  cases result <;> trivial

theorem imp {R : α → Prop} {result : Except ε α} (h : Ends F P result)
    (himp : ∀ value, P value → R value) : Ends F R result := by
  cases result with
  | error => exact h
  | ok value => exact himp value h

theorem ite {p : Prop} [Decidable p] {yes no : Except ε α} (hyes : p → Ends F P yes)
    (hno : Ends F P no) : Ends F P (if p then yes else no) := by
  split
  · next h => exact hyes h
  · exact hno

theorem mapM {f : α → Except ε β} {items : List α}
    (hitems : ∀ item ∈ items, Ends F Q (f item)) :
    Ends F (fun results => ∀ result ∈ results, Q result) (items.mapM f) := by
  induction items with
  | nil => exact nofun
  | cons item items ih =>
      rw [List.forall_mem_cons] at hitems
      rw [List.mapM_cons]
      refine .bind hitems.1 fun result hresult => .bind (ih hitems.2) fun results hresults => ?_
      exact List.forall_mem_cons.mpr ⟨hresult, hresults⟩

/-- What holds at the start and is kept by every step holds at the end. -/
theorem foldlM {f : β → α → Except ε β} {items : List α} {start : β} (hstart : Q start)
    (hstep : ∀ result, Q result → ∀ item ∈ items, Ends F Q (f result item)) :
    Ends F Q (items.foldlM f start) := by
  induction items generalizing start with
  | nil => exact hstart
  | cons item items ih =>
      rw [List.foldlM_cons]
      refine .bind (hstep start hstart item List.mem_cons_self) fun next hnext => ih hnext ?_
      exact fun result hresult other hother =>
        hstep result hresult other (List.mem_cons_of_mem _ hother)

end Ends

/-! ## Success -/

section Success

variable {ε α β : Type}

/-- Two steps succeed if the first one does, and the second one with its result. -/
theorem bind_eq_ok {first : Except ε α} {later : α → Except ε β} {result : β} :
    (first >>= later) = .ok result ↔ ∃ value, first = .ok value ∧ later value = .ok result := by
  cases first with
  | error fault => simp [bind, Except.bind]
  | ok value => simp [bind, Except.bind]

theorem map_eq_ok {first : Except ε α} {f : α → β} {result : β} :
    first.map f = .ok result ↔ ∃ value, first = .ok value ∧ f value = result := by
  cases first with
  | error fault => simp [Except.map]
  | ok value => simp [Except.map]

/-- The results are those of the items, one by one. -/
theorem mapM_eq_ok {f : α → Except ε β} {items : List α} {results : List β} :
    items.mapM f = .ok results ↔
      List.Forall₂ (fun item result => f item = .ok result) items results := by
  induction items generalizing results with
  | nil => simp [pure, Except.pure, eq_comm]
  | cons item items ih =>
      simp only [List.mapM_cons, bind_eq_ok, ih, List.forall₂_cons_left_iff, pure, Except.pure,
        Except.ok.injEq]
      constructor
      · rintro ⟨result, hresult, results, hresults, rfl⟩
        exact ⟨result, results, hresult, hresults, rfl⟩
      · rintro ⟨result, results, hresult, hresults, rfl⟩
        exact ⟨result, hresult, results, hresults, rfl⟩

/-- Steps that all succeed give their results one by one. -/
theorem mapM_eq_ok_map {f : α → Except ε β} {value : α → β} {items : List α}
    (h : ∀ item ∈ items, f item = .ok (value item)) : items.mapM f = .ok (items.map value) := by
  rw [mapM_eq_ok, List.forall₂_map_right_iff, List.forall₂_same]
  exact h

/-- Steps in a row succeed if each one does, whatever it starts from. -/
theorem foldlM_succeeds {f : β → α → Except ε β} {P : α → Prop} {items : List α}
    (hstep : ∀ item ∈ items, ∀ start, (∃ next, f start item = .ok next) ↔ P item) (start : β) :
    (∃ result, items.foldlM f start = .ok result) ↔ ∀ item ∈ items, P item := by
  induction items generalizing start with
  | nil => simp [pure, Except.pure]
  | cons item items ih =>
      rw [List.forall_mem_cons] at hstep
      simp only [List.foldlM_cons, bind_eq_ok, List.forall_mem_cons, ← hstep.1 start]
      constructor
      · rintro ⟨result, next, hnext, hresult⟩
        exact ⟨⟨next, hnext⟩, (ih hstep.2 next).mp ⟨result, hresult⟩⟩
      · rintro ⟨⟨next, hnext⟩, hitems⟩
        obtain ⟨result, hresult⟩ := (ih hstep.2 next).mpr hitems
        exact ⟨result, next, hnext, hresult⟩

end Success

end LiteralAudit
