import LiteralAudit.Config
import LiteralAudit.Proofs.Scan.Filter

/-!
# Sensible settings

`Config.check` lets settings pass exactly if they can do something (`check_eq_ok`), and it refuses
others with a fault of the configuration or of a pattern (`kind_of_check`).
-/

namespace LiteralAudit

/-- Settings that can do something: there are extensions, entries are listed, and every glob is
well formed. -/
structure Config.Sensible (config : Config) : Prop where
  /-- Some files are audited. -/
  extensions : config.audit.extensions ≠ []
  /-- Some files are checked. -/
  yamlExtensions : config.yaml.extensions ≠ []
  /-- Some entries are listed. -/
  maxListed : config.audit.maxListed ≠ 0
  /-- The globs of what is left out can be read. -/
  exclude : ∀ text ∈ config.scanner.exclude, ∃ glob, Glob.read text = .ok glob

/-- The globs of what is left out can be read, but not matched together.  `Config.check` does not
look at this. -/
def Config.Refused (limit : GlobLimit) (config : Config) : Prop :=
  ∃ globs reason, FileFilter.AreGlobs config.scanner.exclude globs ∧ limit globs = some reason

/-- The kinds of failures that settings can have. -/
def Failure.settingKinds : List Text := ["Config", "IO", "Pattern"]

namespace Config

/-- The check lets exactly the sensible configurations pass. -/
theorem check_eq_ok {config : Config} : config.check = .ok () ↔ config.Sensible := by
  rw [check]
  split
  · next h =>
      simp only [reduceCtorEq, false_iff]
      exact fun hsensible => hsensible.extensions (List.isEmpty_iff.mp h)
  · next hextensions =>
      split
      · next h =>
          simp only [reduceCtorEq, false_iff]
          exact fun hsensible => hsensible.yamlExtensions (List.isEmpty_iff.mp h)
      · next hyaml =>
          split
          · next h =>
              simp only [reduceCtorEq, false_iff]
              exact fun hsensible => hsensible.maxListed h
          · next hlisted =>
              simp only [map_eq_ok, and_true, FileFilter.readGlobs_succeeds]
              rw [List.isEmpty_iff] at hextensions hyaml
              exact ⟨fun h => ⟨hextensions, hyaml, hlisted, h⟩, fun h => h.exclude⟩

theorem not_sensible_of_check {config : Config} {failure : Failure}
    (h : config.check = .error failure) : ¬config.Sensible := by
  intro hsensible
  cases (check_eq_ok.mpr hsensible).symm.trans h

/-- A refusal is of one of the kinds that concern settings. -/
theorem kind_of_check {config : Config} {failure : Failure} (h : config.check = .error failure) :
    failure.kind ∈ Failure.settingKinds := by
  rw [check] at h
  split at h
  · cases h
    decide
  · split at h
    · cases h
      decide
    · split at h
      · cases h
        decide
      · cases hglobs : FileFilter.readGlobs config.scanner.exclude with
        | ok globs =>
            rw [hglobs] at h
            cases h
        | error other =>
            rw [hglobs] at h
            cases h
            rw [FileFilter.kind_of_readGlobs hglobs]
            decide

theorem not_refused_unlimited {config : Config} : ¬config.Refused .unlimited :=
  fun ⟨_, _, _, hlimit⟩ => nomatch hlimit

/-- The defaults pass their own check. -/
theorem sensible_default : Config.default.Sensible := by
  rw [← check_eq_ok]
  rfl

end Config

end LiteralAudit
