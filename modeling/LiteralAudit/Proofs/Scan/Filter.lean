import LiteralAudit.Proofs.Ends
import LiteralAudit.Scan.Filter

/-!
# Making filters

A filter is made if each text for a glob is one and the globs are not refused together
(`FileFilter.ofLists_eq_ok`).  If they are refused, the filter fails with the reason
(`FileFilter.ofLists_of_refused`).
-/

namespace LiteralAudit.FileFilter

/-- The globs are those of the texts, one by one. -/
def AreGlobs : List Text → List Glob → Prop :=
  List.Forall₂ fun text glob => Glob.read text = .ok glob

variable {texts : List Text} {globs : List Glob} {limit : GlobLimit}
  {extensions excludedNames excludes : List Text}

/-- Globs are read one by one, and each of them must be well formed. -/
theorem readGlobs_eq_ok : readGlobs texts = .ok globs ↔ AreGlobs texts globs := by
  rw [AreGlobs]
  induction texts generalizing globs with
  | nil => simp [readGlobs, eq_comm]
  | cons text texts ih =>
      rw [readGlobs, List.forall₂_cons_left_iff]
      cases hglob : Glob.read text with
      | error fault => simp
      | ok first =>
          simp only [map_eq_ok, ih, Except.ok.injEq]
          constructor
          · rintro ⟨rest, hrest, rfl⟩
            exact ⟨first, rest, rfl, hrest, rfl⟩
          · rintro ⟨_, rest, rfl, hrest, rfl⟩
            exact ⟨rest, hrest, rfl⟩

/-- Texts can be read as globs if each of them can. -/
theorem readGlobs_succeeds :
    (∃ globs, readGlobs texts = .ok globs) ↔ ∀ text ∈ texts, ∃ glob, Glob.read text = .ok glob := by
  induction texts with
  | nil => simp [readGlobs]
  | cons text texts ih =>
      rw [List.forall_mem_cons, ← ih, readGlobs]
      cases Glob.read text with
      | error fault => simp
      | ok glob => simp [map_eq_ok]

/-- There is one glob for each text, so no text has another one. -/
theorem AreGlobs.mem_iff (h : AreGlobs texts globs) {glob : Glob} :
    glob ∈ globs ↔ ∃ text ∈ texts, Glob.read text = .ok glob := by
  induction h with
  | nil => simp
  | cons hfirst _ ih => simp [ih, hfirst, eq_comm]

/-- Reading globs fails because of a pattern only. -/
theorem kind_of_readGlobs {failure : Failure} (h : readGlobs texts = .error failure) :
    failure.kind = "Pattern" := by
  induction texts with
  | nil => cases h
  | cons text texts ih =>
      rw [readGlobs] at h
      split at h
      · cases h
        rfl
      · cases hrest : readGlobs texts with
        | error other =>
            rw [hrest] at h
            cases h
            exact ih hrest
        | ok globs =>
            rw [hrest] at h
            cases h

theorem combine_eq_ok {combined : List Glob} :
    combine limit globs = .ok combined ↔ limit globs = none ∧ globs = combined := by
  rw [combine]
  split
  next h => simp [h]
  next h => simp [h]

/-- The settings of a filter are those that it was made from, and its globs are not refused. -/
theorem ofLists_eq_ok {filter : FileFilter} :
    ofLists extensions excludedNames excludes limit = .ok filter ↔
      ∃ globs, AreGlobs excludes globs ∧ limit globs = none ∧
        ⟨extensions.map (·.dropWhile (· = '.')), excludedNames, globs⟩ = filter := by
  simp only [ofLists, map_eq_ok, bind_eq_ok, combine_eq_ok, readGlobs_eq_ok]
  constructor
  · rintro ⟨_, ⟨globs, hglobs, hlimit, rfl⟩, hfilter⟩
    exact ⟨globs, hglobs, hlimit, hfilter⟩
  · rintro ⟨globs, hglobs, hlimit, hfilter⟩
    exact ⟨globs, ⟨globs, hglobs, hlimit, rfl⟩, hfilter⟩

/-- What the machine for the globs says is the reason why there is no filter. -/
theorem ofLists_of_refused {reason : Text} (hglobs : AreGlobs excludes globs)
    (hlimit : limit globs = some reason) :
    ofLists extensions excludedNames excludes limit = .error (.refusedGlobs reason) := by
  rw [ofLists, readGlobs_eq_ok.mpr hglobs]
  show (combine limit globs).map _ = _
  rw [combine, hlimit]
  rfl

end LiteralAudit.FileFilter
