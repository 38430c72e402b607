import LiteralAudit.Proofs.Text.Trim
import Mathlib.Data.List.Induction

/-!
# Decimal digits

A number that is written in decimal and read again is the same (`value_ofNat`).  A run of digits
that is read and written again has lost its leading zeros and nothing else (`ofNat_value_suffix`).
Digits are no white space, so trimming leaves a run of digits as it is.
-/

namespace LiteralAudit.Text

theorem isDigit_iff {c : Char} : isDigit c = true ↔ 48 ≤ c.toNat ∧ c.toNat ≤ 57 := by
  simp only [isDigit, Bool.and_eq_true, decide_eq_true_eq, Char.le_def, UInt32.le_iff_toNat_le]
  rfl

theorem isBlank_of_isDigit {c : Char} (h : isDigit c = true) : isBlank c = false := by
  have hrange := isDigit_iff.mp h
  simp [isBlank, inRanges, blankRanges]
  omega

/-- A text is a run of digits. -/
structure IsNumeral (text : Text) : Prop where
  /-- There is a digit. -/
  nonempty : text ≠ []
  /-- There are only digits. -/
  all : ∀ c ∈ text, isDigit c = true

theorem IsNumeral.isDigit_head {digits : Text} (h : IsNumeral digits) (rest : Text) :
    ∀ c, (digits ++ rest).head? = some c → isDigit c = true := by
  intro c hc
  obtain ⟨d, digits, rfl⟩ := List.exists_cons_of_ne_nil h.nonempty
  cases hc
  exact h.all c (List.mem_cons_self ..)

theorem IsNumeral.startsInk {digits : Text} (h : IsNumeral digits) (rest : Text) :
    StartsInk (digits ++ rest) :=
  fun c hc => isBlank_of_isDigit (h.isDigit_head rest c hc)

theorem IsNumeral.endsInk {digits : Text} (h : IsNumeral digits) : EndsInk digits :=
  fun c hc => isBlank_of_isDigit (h.all c (List.mem_of_getLast? hc))

/-! ## Values -/

theorem digitValue_of_isDigit {c : Char} (h : isDigit c = true) : digitValue c = c.toNat - 48 := by
  rw [digitValue, if_pos h]
  rfl

/-- The value of digits is that of the library. -/
theorem value_eq_ofDigitChars {digits : Text} (h : ∀ c ∈ digits, isDigit c = true) :
    value digits = Nat.ofDigitChars 10 digits 0 := by
  rw [value, valueIn, Nat.ofDigitChars_eq_foldl]
  refine List.foldl_ext _ _ 0 ?_
  intro sum c hc
  rw [digitValue_of_isDigit (h c hc), Nat.mul_comm]
  rfl

/-- A natural number is written as a numeral. -/
theorem isNumeral_ofNat (n : Nat) : IsNumeral (ofNat n) := by
  refine ⟨Nat.toDigits_ne_nil, ?_⟩
  intro c hc
  exact Nat.isDigit_of_mem_toDigits (by decide) (by decide) hc

/-- A number that is written and read is the same. -/
theorem value_ofNat (n : Nat) : value (ofNat n) = n := by
  rw [value_eq_ofDigitChars (isNumeral_ofNat n).all]
  exact Nat.ofDigitChars_ten_toDigits

theorem digitValue_lt {c : Char} (h : isDigit c = true) : digitValue c < 10 := by
  have hrange := isDigit_iff.mp h
  rw [digitValue_of_isDigit h]
  omega

theorem digitChar_digitValue {c : Char} (h : isDigit c = true) :
    Nat.digitChar (digitValue c) = c := by
  have hall : ∀ n < 58, 48 ≤ n → Nat.digitChar (n - 48) = Char.ofNat n := by decide
  obtain ⟨hfirst, hlast⟩ := isDigit_iff.mp h
  rw [digitValue_of_isDigit h, hall c.toNat (Nat.lt_succ_of_le hlast) hfirst, Char.ofNat_toNat]

/-- One digit more makes ten times the value and the digit. -/
theorem value_concat (digits : Text) (c : Char) :
    value (digits ++ [c]) = value digits * 10 + digitValue c := by
  rw [value, valueIn, List.foldl_append]
  rfl

/-- What is left of a run of digits if it is written without leading zeros. -/
theorem ofNat_value_suffix {digits : Text} (h : IsNumeral digits) :
    ofNat (value digits) <:+ digits := by
  induction digits using List.reverseRecOn with
  | nil => exact absurd rfl h.nonempty
  | append_singleton digits c ih =>
      have hc : isDigit c = true := h.all c (List.mem_append_right _ (.head _))
      have hlast := digitValue_lt hc
      rw [value_concat, ofNat, Nat.toDigits_eq_if (by decide)]
      split
      next hsmall =>
        have hzero : value digits * 10 + digitValue c = digitValue c := by omega
        rw [hzero, digitChar_digitValue hc]
        exact List.suffix_append ..
      next hlarge =>
        have hdiv : (value digits * 10 + digitValue c) / 10 = value digits := by omega
        have hmod : (value digits * 10 + digitValue c) % 10 = digitValue c := by omega
        have hdigits : IsNumeral digits := by
          refine ⟨?_, fun d hd => h.all d (List.mem_append_left _ hd)⟩
          rintro rfl
          exact hlarge (by simpa [value, valueIn] using hlast)
        obtain ⟨zeros, hzeros⟩ := ih hdigits
        rw [hdiv, hmod, digitChar_digitValue hc]
        exact ⟨zeros, by rw [← List.append_assoc]; exact congrArg (· ++ [c]) hzeros⟩

end LiteralAudit.Text
