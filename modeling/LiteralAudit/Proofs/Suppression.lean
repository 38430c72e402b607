import LiteralAudit.Proofs.Detector.Report
import LiteralAudit.Proofs.Pattern.Radius
import Mathlib.Algebra.Ring.Parity
import Mathlib.Tactic.Common

/-!
# Strings on a line

A reader of strings goes through a line from left to right: a quote outside strings opens one, the
same quote closes it, and all else inside it is text (`openQuote`).  Counting quotes is not the
same.  A quote that is text of a string of the other kind is a *stray*, and it is counted like any
other.

How many quotes of a kind there are is even or odd as the strays of this kind are, unless a string
of this kind is open (`even_count_iff`).  So counting tells where strings are exactly if the strays
do no harm (`insideQuotes_iff_inString`), in particular if one kind of quotes is absent.
-/

namespace LiteralAudit

open Text (Part)

/-! ## Reading strings -/

namespace Text

/-- The quote of the open string behind a character, given that before it. -/
def readQuote (opened : Option Char) (c : Char) : Option Char :=
  match opened with
  | none => if isQuote c then some c else none
  | some quote => if c = quote then none else some quote

/-- The quote of the string that a text leaves open, if it leaves one open. -/
def openQuote (text : Text) : Option Char := text.foldl readQuote none

/-- How many quotes of a kind are met inside strings of another kind, from a place in a text on. -/
def straysFrom (quote : Char) : (opened : Option Char) → Text → Nat
  | _, [] => 0
  | opened, c :: text =>
      (if c = quote && opened.any (· ≠ quote) then 1 else 0) +
        straysFrom quote (readQuote opened c) text

/-- How many quotes of a kind stand inside strings of another kind. -/
def strays (quote : Char) (text : Text) : Nat := straysFrom quote none text

/-- One character changes the number of quotes as it changes that of the strays, but for quotes that
open or close a string. -/
theorem readQuote_parity {quote : Char} (hquote : isQuote quote = true) (opened : Option Char)
    (c : Char) :
    ((if c = quote then 1 else 0) + if opened = some quote then 1 else 0) % 2 =
      ((if c = quote && opened.any (· ≠ quote) then 1 else 0) +
        if readQuote opened c = some quote then 1 else 0) % 2 := by
  cases opened with
  | none =>
      by_cases hc : c = quote
      · simp [readQuote, hc, hquote]
      · by_cases hother : isQuote c = true <;> simp [readQuote, hc, hother]
  | some other =>
      by_cases hother : other = quote
      · by_cases hc : c = quote
        · simp [readQuote, hc, hother]
        · simp [readQuote, hc, hother]
      · by_cases hclose : c = other
        · simp [readQuote, hclose, hother]
        · simp [readQuote, hclose, hother]

/-- Reading a text keeps the parity: the quotes of a kind are those that open or close a string of
this kind, and the strays. -/
theorem count_parity {quote : Char} (hquote : isQuote quote = true) (opened : Option Char)
    (text : Text) :
    (text.count quote + if opened = some quote then 1 else 0) % 2 =
      (straysFrom quote opened text +
        if text.foldl readQuote opened = some quote then 1 else 0) % 2 := by
  induction text generalizing opened with
  | nil => rfl
  | cons c text ih =>
      have hstep := readQuote_parity hquote opened c
      have hrest := ih (readQuote opened c)
      rw [List.count_cons, List.foldl_cons, straysFrom]
      simp only [beq_iff_eq]
      omega

/-- The quotes of a kind are even in number if their strays are, unless a string of their kind is
open. -/
theorem even_count_iff {quote : Char} (hquote : isQuote quote = true) (text : Text) :
    Even (text.count quote) ↔ (Even (strays quote text) ↔ openQuote text ≠ some quote) := by
  have hparity := count_parity hquote none text
  rw [if_neg nofun, Nat.add_zero, ← strays, ← openQuote] at hparity
  rw [Nat.even_iff, Nat.even_iff]
  by_cases hopen : openQuote text = some quote
  · rw [if_pos hopen] at hparity
    simp only [hopen, ne_eq, not_true_eq_false, iff_false]
    omega
  · rw [if_neg hopen, Nat.add_zero] at hparity
    simp only [hopen, ne_eq, not_false_eq_true, iff_true, hparity]

theorem isQuote_of_readQuote {opened : Option Char} {c quote : Char}
    (hopened : opened.all isQuote = true) (h : readQuote opened c = some quote) :
    isQuote quote = true := by
  cases opened with
  | none =>
      rw [readQuote] at h
      split at h
      next hc => exact Option.some.inj h ▸ hc
      next => cases h
  | some other =>
      rw [readQuote] at h
      split at h
      next => cases h
      next => exact Option.some.inj h ▸ hopened

/-- Only a quote can be open. -/
theorem isQuote_of_openQuote {text : Text} {quote : Char} (h : openQuote text = some quote) :
    isQuote quote = true := by
  have hall : (openQuote text).all isQuote = true := by
    refine List.foldlRecOn (motive := fun opened => opened.all isQuote = true) text readQuote
      (show Option.all isQuote none = true from rfl) ?_
    intro opened hopened c _
    cases hread : readQuote opened c with
    | none => rfl
    | some other => exact isQuote_of_readQuote hopened hread
  rwa [h] at hall

/-- Where there are quotes of one kind only, none of them is a stray. -/
theorem straysFrom_eq_zero {only quote : Char} {opened : Option Char} {text : Text}
    (honly : ∀ c ∈ text, isQuote c = true → c = only) (hquote : isQuote quote = true)
    (hopened : opened = none ∨ opened = some only) : straysFrom quote opened text = 0 := by
  induction text generalizing opened with
  | nil => rfl
  | cons c text ih =>
      rw [List.forall_mem_cons] at honly
      have hnext : readQuote opened c = none ∨ readQuote opened c = some only := by
        rcases hopened with rfl | rfl
        · by_cases hc : isQuote c = true
          · rw [readQuote, if_pos hc, honly.1 hc]
            exact .inr rfl
          · exact .inl (if_neg hc)
        · rw [readQuote]
          split
          next => exact .inl rfl
          next => exact .inr rfl
      have hstray : (c = quote && opened.any (· ≠ quote)) = false := by
        rcases hopened with rfl | rfl
        · exact Bool.and_false _
        · by_cases hc : c = quote
          · subst hc
            simp [honly.1 hquote]
          · simp [hc]
      rw [straysFrom, hstray, ih honly.2 hnext]
      rfl

end Text

/-! ## Counting quotes -/

/-- A part begins inside a string. -/
def Text.Part.IsInString (part : Part) : Prop := Text.openQuote part.before ≠ none

/-- The strays of a text do not matter to who counts quotes. -/
def Text.StraysCancel (text : Text) : Prop :=
  match openQuote text with
  | none => ∀ quote, isQuote quote = true → Even (strays quote text)
  | some quote => Even (strays quote text) ∨
      ∃ other, isQuote other = true ∧ other ≠ quote ∧ ¬Even (strays other text)

/-- Counting quotes is right exactly if the strays do not matter. -/
theorem insideQuotes_iff_of_stray (part : Part) :
    (insideQuotes part.whole part.span = true ↔ part.IsInString) ↔ part.before.StraysCancel := by
  have hsingle := Text.even_count_iff (show isQuote '\'' = true from rfl) part.before
  have hdouble := Text.even_count_iff (show isQuote '"' = true from rfl) part.before
  rw [insideQuotes_span, Part.OutsideQuotes, Part.IsInString, Text.StraysCancel, hsingle, hdouble]
  -- Both counts go by their strays, but for the kind of the open string, which is off by one.
  cases hopen : Text.openQuote part.before with
  | none => simp [isQuote]
  | some quote =>
      rcases Text.isQuote_iff.mp (Text.isQuote_of_openQuote hopen) with rfl | rfl
      · simpa [isQuote, -Nat.not_even_iff_odd] using or_iff_not_imp_left.symm
      · simp [isQuote, imp_iff_or_not, -Nat.not_even_iff_odd]

/-- Where one kind of quotes is absent, the others are not strays. -/
theorem straysCancel_of_absent {absent : Char} {text : Text} (hquote : isQuote absent = true)
    (habsent : absent ∉ text) : text.StraysCancel := by
  obtain ⟨only, hkinds⟩ : ∃ only, ∀ c, isQuote c = true → c = absent ∨ c = only := by
    rcases Text.isQuote_iff.mp hquote with rfl | rfl
    · exact ⟨'"', fun c hc => Text.isQuote_iff.mp hc⟩
    · exact ⟨'\'', fun c hc => (Text.isQuote_iff.mp hc).symm⟩
  have honly : ∀ c ∈ text, isQuote c = true → c = only := by
    intro c hc hquote
    refine (hkinds c hquote).resolve_left ?_
    rintro rfl
    exact habsent hc
  have hnone : ∀ quote, isQuote quote = true → Even (Text.strays quote text) := by
    intro quote hquote
    rw [Text.strays, Text.straysFrom_eq_zero honly hquote (.inl rfl)]
    exact Even.zero
  rw [Text.StraysCancel]
  split
  next => exact hnone
  next hopen => exact .inl (hnone _ (Text.isQuote_of_openQuote hopen))

/-- Counting quotes tells whether a part begins inside a string exactly if strays do not matter, as
they do not where one kind of quotes is absent. -/
theorem insideQuotes_iff_inString (part : Part) :
    ((insideQuotes part.whole part.span = true ↔ part.IsInString) ↔ part.before.StraysCancel) ∧
      ∀ absent, isQuote absent = true → absent ∉ part.before →
        (insideQuotes part.whole part.span = true ↔ part.IsInString) := by
  have hstray := insideQuotes_iff_of_stray part
  exact ⟨hstray, fun absent hquote habsent => hstray.mpr (straysCancel_of_absent hquote habsent)⟩

/-- A word behind a string that has a quote of the same kind in it, written twice. -/
def behindDoubled : Part := ⟨"a: 'it''s' ", "yes", []⟩

theorem insideQuotes_iff_inString_doubled :
    '"' ∉ behindDoubled.before ∧
      (insideQuotes behindDoubled.whole behindDoubled.span = true ↔ behindDoubled.IsInString) ∧
      insideQuotes behindDoubled.whole behindDoubled.span = false := by
  have habsent : '"' ∉ behindDoubled.before := by decide
  exact ⟨habsent, (insideQuotes_iff_inString behindDoubled).2 '"' rfl habsent, by decide⟩

/-- A word behind a string with an apostrophe in it. -/
def behindApostrophe : Part := ⟨"\"it's\" ", "yes", []⟩

/-- Without backslashes counting still does not tell what is inside a string. -/
theorem not_forall_insideQuotes_iff_inString :
    ¬∀ part : Part, '\\' ∉ part.whole →
      (insideQuotes part.whole part.span = true ↔ part.IsInString) := by
  intro h
  have hcounted : insideQuotes behindApostrophe.whole behindApostrophe.span = true := by decide
  exact (h behindApostrophe (by decide)).mp hcounted (by decide)

end LiteralAudit
