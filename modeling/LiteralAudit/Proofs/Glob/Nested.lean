import LiteralAudit.Scan.Filter
import Mathlib.Logic.Function.Iterate

/-!
# Choices inside each other

Braces may be nested as deep as one likes: each pair is a choice, and the text is a glob
(`Glob.read_nested`).  A machine for globs does not take them all.  One that is bounded in its depth
refuses the globs with more choices inside each other (`GlobLimit.ofDepth`).
-/

namespace LiteralAudit

open GlobReader

/-- A choice between one glob. -/
def GlobToken.wrap (token : GlobToken) : GlobToken := .choice [[token]]

/-- Whether a token begins with choices inside each other. -/
def GlobToken.nests : (depth : Nat) → GlobToken → Bool
  | 0, _ => true
  | depth + 1, .choice ((token :: _) :: _) => nests depth token
  | _ + 1, _ => false

/-- Refuses globs that begin with as many choices inside each other. -/
def GlobLimit.ofDepth (depth : Nat) (reason : Text) : GlobLimit := fun globs =>
  if globs.any (·.tokens.any (GlobToken.nests depth)) then some reason else none

/-- A letter in braces. -/
def nestedText (depth : Nat) : Text :=
  List.replicate depth '\x7b' ++ 'a' :: List.replicate depth '\x7d'

/-- The glob of this text. -/
def nestedGlob (depth : Nat) : Glob := ⟨[GlobToken.wrap^[depth] (.char 'a')]⟩

/-- A token that is wrapped some times has choices that deep. -/
theorem GlobToken.nests_iterate_wrap (token : GlobToken) (depth : Nat) :
    nests depth (wrap^[depth] token) = true := by
  induction depth with
  | zero => rfl
  | succ depth ih =>
      rw [Function.iterate_succ_apply']
      exact ih

/-- A glob with choices inside each other is refused at each depth up to theirs. -/
theorem GlobLimit.ofDepth_nestedGlob {depth deeper : Nat} (h : depth ≤ deeper) (reason : Text) :
    ofDepth depth reason [nestedGlob deeper] = some reason := by
  have hnests := GlobToken.nests_iterate_wrap (GlobToken.wrap^[deeper - depth] (.char 'a')) depth
  rw [← Function.iterate_add_apply, Nat.add_sub_cancel' h] at hnests
  refine if_pos ?_
  simp only [nestedGlob, List.any_cons, hnests, Bool.true_or]

namespace GlobReader

/-- Opening braces before anything else is read. -/
theorem read_open (depth opened : Nat) (previous : Option Char) (text : Text) : ∃ last,
    read false ⟨[], List.replicate opened ⟨[], []⟩, previous, false⟩
        (List.replicate depth '\x7b' ++ text) =
      read false ⟨[], List.replicate (opened + depth) ⟨[], []⟩, last, false⟩ text := by
  induction depth generalizing opened previous with
  | zero => exact ⟨previous, rfl⟩
  | succ depth ih =>
      rw [List.replicate_succ, List.cons_append, read, ← Nat.succ_add_eq_add_succ]
      exact ih (opened + 1) (some '\x7b')

/-- Closing braces around a token. -/
theorem read_close (depth : Nat) (token : GlobToken) (previous : Option Char) :
    read false ⟨[token], List.replicate depth ⟨[], []⟩, previous, false⟩
      (List.replicate depth '\x7d') = .ok [GlobToken.wrap^[depth] token] := by
  induction depth generalizing token previous with
  | zero =>
      rw [List.replicate_zero, List.replicate_zero, read]
      rfl
  | succ depth ih =>
      rw [List.replicate_succ, List.replicate_succ, read, Function.iterate_succ_apply]
      exact ih token.wrap (some '\x7d')

end GlobReader

/-- Braces inside each other are a glob. -/
theorem Glob.read_nested (depth : Nat) : read (nestedText depth) = .ok (nestedGlob depth) := by
  obtain ⟨last, hopen⟩ := read_open depth 0 none ('a' :: List.replicate depth '\x7d')
  have hletter : GlobReader.read false ⟨[], List.replicate (0 + depth) ⟨[], []⟩, last, false⟩
      ('a' :: List.replicate depth '\x7d') =
        GlobReader.read false ⟨[.char 'a'], List.replicate depth ⟨[], []⟩, some 'a', false⟩
          (List.replicate depth '\x7d') := by
    rw [GlobReader.read, Nat.zero_add]
    · simp [GlobReader.push]
    all_goals simp
  rw [hletter, read_close] at hopen
  rw [read, nestedText]
  exact congrArg (Except.map Glob.mk) hopen

end LiteralAudit
