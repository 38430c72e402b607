import LiteralAudit.Audit.Outcome
import Mathlib.Data.List.Basic

/-!
# The findings of a file

The groups of an audit are *ordered* if each category has at most one group and the groups are in
the order of their categories.  Findings are added in the place of their group, so the groups stay
ordered (`Ordered.modifyGroup`), and of an ordered audit everything can be told by its categories:
adding findings appends to each category what belongs there (`get_pushAll`), and all findings
together are those of the categories one after the other (`Ordered.toList_eq`).
-/

namespace LiteralAudit

namespace Category

theorem ctorIdx_inj {a b : Category} : a.ctorIdx = b.ctorIdx ↔ a = b := by
  cases a <;> cases b <;> simp [Category.ctorIdx]

theorem mem_all (category : Category) : category ∈ all := by
  cases category <;> decide

/-- No two categories have the same name. -/
theorem name_injective {a b : Category} (h : a.name = b.name) : a = b := by
  revert h
  cases a <;> cases b <;> decide

theorem ne_of_lt {a b : Category} (h : a.ctorIdx < b.ctorIdx) : a ≠ b := by
  rintro rfl
  exact absurd h (Nat.lt_irrefl _)

end Category

namespace FileAudit

/-! ## Groups -/

/-- The groups are in the order of their categories, at most one for each. -/
def OrderedGroups (groups : List (Category × List Diagnostic)) : Prop :=
  groups.Pairwise fun a b => a.1.ctorIdx < b.1.ctorIdx

/-- The findings that some groups have for a category. -/
def lookup (category : Category) (groups : List (Category × List Diagnostic)) : List Diagnostic :=
  (⟨groups, none⟩ : FileAudit).get category

@[simp]
theorem lookup_nil (category : Category) : lookup category [] = [] := rfl

theorem lookup_cons (category other : Category) (found : List Diagnostic)
    (groups : List (Category × List Diagnostic)) :
    lookup category ((other, found) :: groups) =
      if other = category then found else lookup category groups := by
  by_cases hsame : other = category
  · simp [lookup, get, hsame]
  · simp [lookup, get, hsame]

theorem lookup_eq_nil {category : Category} {groups : List (Category × List Diagnostic)}
    (habsent : ∀ group ∈ groups, group.1 ≠ category) : lookup category groups = [] := by
  induction groups with
  | nil => rfl
  | cons group groups ih =>
      obtain ⟨other, found⟩ := group
      rw [lookup_cons, if_neg (habsent (other, found) (.head _))]
      exact ih fun group hmem => habsent group (.tail _ hmem)

/-- A change adds no group but that of its category. -/
theorem category_of_mem_modifyGroup {category : Category}
    {change : List Diagnostic → List Diagnostic} {groups : List (Category × List Diagnostic)}
    {group : Category × List Diagnostic} (hmem : group ∈ modifyGroup category change groups) :
    group.1 = category ∨ ∃ old ∈ groups, group.1 = old.1 := by
  induction groups with
  | nil =>
      simp only [modifyGroup, List.mem_singleton] at hmem
      exact Or.inl (congrArg Prod.fst hmem)
  | cons first groups ih =>
      simp only [modifyGroup] at hmem
      split at hmem
      next =>
        rcases List.mem_cons.mp hmem with rfl | hmem
        · exact Or.inl rfl
        · exact Or.inr ⟨group, hmem, rfl⟩
      next =>
        split at hmem
        next hsame =>
          rcases List.mem_cons.mp hmem with rfl | hmem
          · exact Or.inl hsame.symm
          · exact Or.inr ⟨group, .tail _ hmem, rfl⟩
        next =>
          rcases List.mem_cons.mp hmem with rfl | hmem
          · exact Or.inr ⟨_, .head _, rfl⟩
          · rcases ih hmem with hcategory | ⟨old, hold, hcategory⟩
            · exact Or.inl hcategory
            · exact Or.inr ⟨old, .tail _ hold, hcategory⟩

/-- Changing a group, or adding one, keeps the groups in order. -/
theorem OrderedGroups.modifyGroup {groups : List (Category × List Diagnostic)}
    (hordered : OrderedGroups groups) (category : Category)
    (change : List Diagnostic → List Diagnostic) :
    OrderedGroups (modifyGroup category change groups) := by
  induction groups with
  | nil => exact List.pairwise_singleton ..
  | cons first groups ih =>
      obtain ⟨other, found⟩ := first
      obtain ⟨hfirst, hrest⟩ := List.pairwise_cons.mp hordered
      simp only [FileAudit.modifyGroup]
      split
      next hbefore =>
        refine List.pairwise_cons.mpr ⟨?_, hordered⟩
        intro group hmem
        rcases List.mem_cons.mp hmem with rfl | hmem
        · exact hbefore
        · exact Nat.lt_trans hbefore (hfirst group hmem)
      next hbefore =>
        split
        next => exact List.pairwise_cons.mpr ⟨hfirst, hrest⟩
        next hother =>
          refine List.pairwise_cons.mpr ⟨?_, ih hrest⟩
          intro group hmem
          rcases category_of_mem_modifyGroup hmem with hcategory | ⟨old, hold, hcategory⟩
          · have hne : category.ctorIdx ≠ other.ctorIdx := mt Category.ctorIdx_inj.mp hother
            rw [hcategory]
            show other.ctorIdx < category.ctorIdx
            omega
          · rw [hcategory]
            exact hfirst old hold

/-- A change changes one category and leaves the others as they are. -/
theorem lookup_modifyGroup {groups : List (Category × List Diagnostic)}
    (hordered : OrderedGroups groups) (category other : Category)
    (change : List Diagnostic → List Diagnostic) :
    lookup other (modifyGroup category change groups) =
      if category = other then change (lookup other groups) else lookup other groups := by
  induction groups with
  | nil => simp [modifyGroup, lookup_cons]
  | cons first groups ih =>
      obtain ⟨head, found⟩ := first
      obtain ⟨hfirst, hrest⟩ := List.pairwise_cons.mp hordered
      simp only [modifyGroup]
      split
      next hbefore =>
        by_cases hsame : category = other
        · have habsent : ∀ group ∈ (head, found) :: groups, group.1 ≠ other := by
            intro group hmem heq
            have hle : head.ctorIdx ≤ group.1.ctorIdx := by
              rcases List.mem_cons.mp hmem with rfl | hmem
              · exact Nat.le_refl _
              · exact Nat.le_of_lt (hfirst group hmem)
            rw [heq, ← hsame] at hle
            exact absurd hbefore (Nat.not_lt.mpr hle)
          rw [lookup_cons, if_pos hsame, if_pos hsame, lookup_eq_nil habsent]
        · rw [lookup_cons, if_neg hsame, if_neg hsame]
      next =>
        split
        next hhead =>
          subst hhead
          by_cases hsame : category = other
          · simp [lookup_cons, hsame]
          · simp [lookup_cons, hsame]
        next hhead =>
          rw [lookup_cons, lookup_cons, ih hrest]
          by_cases hsame : head = other
          · have hne : category ≠ other := fun heq => hhead (heq.trans hsame.symm)
            simp [hsame, hne]
          · simp [hsame]

/-! ## Audits -/

/-- The groups of an audit are ordered. -/
def Ordered (audit : FileAudit) : Prop := OrderedGroups audit.groups

theorem ordered_empty : empty.Ordered := List.Pairwise.nil

theorem Ordered.push {audit : FileAudit} (hordered : audit.Ordered) (found : Diagnostic) :
    (audit.push found).Ordered := OrderedGroups.modifyGroup hordered ..

theorem Ordered.pushAll {audit : FileAudit} (hordered : audit.Ordered) (found : List Diagnostic) :
    (audit.pushAll found).Ordered := by
  induction found generalizing audit with
  | nil => exact hordered
  | cons first found ih => exact ih (hordered.push first)

@[simp]
theorem get_empty (category : Category) : empty.get category = [] := rfl

/-- A finding is added behind those of its own category, and the others stay as they are. -/
theorem Ordered.get_push {audit : FileAudit} (hordered : audit.Ordered) (found : Diagnostic)
    (category : Category) :
    (audit.push found).get category =
      if found.category = category then audit.get category ++ [found] else audit.get category :=
  lookup_modifyGroup hordered ..

/-- Findings that are added go behind those of their category. -/
theorem Ordered.get_pushAll {audit : FileAudit} (hordered : audit.Ordered)
    (found : List Diagnostic) (category : Category) :
    (audit.pushAll found).get category =
      audit.get category ++ found.filter (·.category = category) := by
  induction found generalizing audit with
  | nil => simp [FileAudit.pushAll]
  | cons first found ih =>
      have hpush := ih (hordered.push first)
      rw [hordered.get_push] at hpush
      show ((audit.push first).pushAll found).get category = _
      rw [hpush]
      by_cases hcategory : first.category = category
      · simp [hcategory]
      · simp [hcategory]

/-! ## All findings -/

/-- The total of an audit is the number of all its findings. -/
theorem total_eq_length (audit : FileAudit) : audit.total = audit.toList.length := by
  rw [total, toList, List.length_flatMap]
  rfl

/-- Ordered groups are those of any ascending list of categories that has theirs. -/
theorem flatMap_lookup {groups : List (Category × List Diagnostic)} {categories : List Category}
    (hordered : OrderedGroups groups)
    (hcategories : categories.Pairwise fun a b => a.ctorIdx < b.ctorIdx)
    (hall : ∀ group ∈ groups, group.1 ∈ categories) :
    groups.flatMap Prod.snd = categories.flatMap fun category => lookup category groups := by
  induction categories generalizing groups with
  | nil =>
      cases groups with
      | nil => rfl
      | cons group groups => exact absurd (hall group (.head _)) List.not_mem_nil
  | cons category categories ih =>
      obtain ⟨hfirst, hrest⟩ := List.pairwise_cons.mp hcategories
      cases groups with
      | nil => simp
      | cons group groups =>
          obtain ⟨other, found⟩ := group
          obtain ⟨hgroup, hgroups⟩ := List.pairwise_cons.mp hordered
          rw [List.flatMap_cons (f := fun category => lookup category _)]
          by_cases hsame : other = category
          · subst hsame
            have hlater : ∀ group ∈ groups, group.1 ∈ categories := fun group hmem =>
              List.mem_of_ne_of_mem (Category.ne_of_lt (hgroup group hmem)).symm
                (hall group (.tail _ hmem))
            have hskip : ∀ category ∈ categories,
                lookup category ((other, found) :: groups) = lookup category groups := by
              intro category hmem
              rw [lookup_cons, if_neg (Category.ne_of_lt (hfirst category hmem))]
            rw [lookup_cons, if_pos rfl, List.flatMap_congr hskip, List.flatMap_cons,
              ih hgroups hrest hlater]
          · have hother : other ∈ categories :=
              List.mem_of_ne_of_mem hsame (hall (other, found) (.head _))
            have hbehind : ∀ group ∈ (other, found) :: groups, group.1 ≠ category := by
              intro group hmem
              rcases List.mem_cons.mp hmem with rfl | hmem
              · exact hsame
              · exact (Category.ne_of_lt
                  (Nat.lt_trans (hfirst other hother) (hgroup group hmem))).symm
            rw [lookup_eq_nil hbehind, List.nil_append]
            exact ih hordered hrest fun group hmem =>
              List.mem_of_ne_of_mem (hbehind group hmem) (hall group hmem)

/-- The findings of an audit are those of its categories, one after the other. -/
theorem Ordered.toList_eq {audit : FileAudit} (hordered : audit.Ordered) :
    audit.toList = Category.all.flatMap audit.get := by
  refine flatMap_lookup hordered (by decide) ?_
  intro group _
  cases group.1 <;> decide

/-! ## Findings of one category -/

section OneCategory

variable {found : List Diagnostic} {category : Category}

theorem get_pushAll_empty (hcategory : ∀ finding ∈ found, finding.category = category)
    (other : Category) :
    (empty.pushAll found).get other = if other = category then found else [] := by
  rw [ordered_empty.get_pushAll, get_empty, List.nil_append]
  split
  next hsame =>
    refine List.filter_eq_self.mpr fun finding hmem => decide_eq_true ?_
    rw [hcategory finding hmem, hsame]
  next hother =>
    refine List.filter_eq_nil_iff.mpr fun finding hmem hfinding => hother ?_
    rw [← of_decide_eq_true hfinding, hcategory finding hmem]

/-- Findings of one category are kept as they are. -/
theorem toList_pushAll_empty (hcategory : ∀ finding ∈ found, finding.category = category) :
    (empty.pushAll found).toList = found := by
  rw [(ordered_empty.pushAll found).toList_eq]
  cases category <;> simp [Category.all, get_pushAll_empty hcategory]

end OneCategory

end FileAudit

/-- The findings of an outcome.  A file that could not be audited has none. -/
def Outcome.findings (outcome : Outcome) : List Diagnostic :=
  match outcome.result with
  | .ok audit => audit.toList
  | .error _ => []

end LiteralAudit
