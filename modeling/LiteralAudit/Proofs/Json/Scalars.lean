import LiteralAudit.Json.Reader
import LiteralAudit.Json.Writer
import LiteralAudit.Proofs.Text.Digits
import LiteralAudit.Proofs.Text.Part
import Mathlib.Algebra.Group.Nat.Even

/-!
# Reading numbers and strings that were written

A whole number is read from its digits if it fits (`reads_number`), and a string is read from its
characters as they are written between quotes, whatever they are (`reads_quoted`).

What a part of the text is read as does not depend on where it stands, so offsets are left out:
`Reads reader text value rest` says that the reader takes a value from the text and leaves the rest,
at any offset.
-/

namespace LiteralAudit.Json

open Text (IsNumeral ofNat)

/-! ## Reading at any offset -/

/-- A reader takes a value from a text and leaves the rest. -/
def Reads {α : Type} (reader : Cursor → Except Error (α × Cursor)) (text : Text) (value : α)
    (rest : Text) : Prop :=
  ∀ offset, ∃ behind, reader ⟨offset, text⟩ = .ok (value, ⟨behind, rest⟩)

/-- The place behind the beginning of a text. -/
theorem skip_append (offset : Nat) (start rest : Text) :
    (Cursor.mk offset (start ++ rest)).skip start.length =
      ⟨offset + Text.byteSize start, rest⟩ := by
  rw [Cursor.skip, List.take_left, List.drop_left]

/-! ## Numbers -/

/-- The whole numbers that are read exactly. -/
def Number.Fits : Number → Prop
  | .natural n => n < 2 ^ 64
  | .negative n => n < 2 ^ 63
  | .binary _ => False

/-- The characters that a number may go on with. -/
def extendsNumber (c : Char) : Bool := Text.isDigit c || c = '.' || c = 'e' || c = 'E'

/-- A text does not go on with the number in front of it. -/
def EndsNumber (rest : Text) : Prop := ∀ c, rest.head? = some c → extendsNumber c = false

theorem le_foldl_digits (digits : Text) (start : Nat) :
    start ≤ digits.foldl (fun value digit => value * 10 + Text.digitValue digit) start := by
  induction digits generalizing start with
  | nil => exact Nat.le_refl _
  | cons digit digits ih =>
      have hrest := ih (start * 10 + Text.digitValue digit)
      rw [List.foldl_cons]
      omega

/-- Digits of a number that is kept exactly are all taken. -/
theorem takeDigits_eq (digits : Text) (start : Nat)
    (hfits : digits.foldl (fun value digit => value * 10 + Text.digitValue digit) start ≤
      greatestNatural) :
    takeDigits start digits =
      (digits.foldl (fun value digit => value * 10 + Text.digitValue digit) start,
        digits.length, 0) := by
  induction digits generalizing start with
  | nil => rfl
  | cons digit digits ih =>
      rw [List.foldl_cons] at hfits ⊢
      have hnext := Nat.le_trans (le_foldl_digits digits _) hfits
      rw [takeDigits, ih _ hfits]
      simp [Nat.not_lt.mpr hnext]

/-- A positive number is not written with a zero in front. -/
theorem head?_ofNat_ne {n : Nat} (hn : 0 < n) : (ofNat n).head? ≠ some '0' := by
  induction n using Nat.strongRecOn with
  | ind n ih =>
      rw [ofNat, Nat.toDigits_eq_if (by decide)]
      split
      next hsmall =>
        have hdigit : ∀ n < 10, 0 < n → [Nat.digitChar n].head? ≠ some '0' := by decide
        exact hdigit n hsmall hn
      next hlarge =>
        rw [List.head?_append_of_ne_nil _ Nat.toDigits_ne_nil]
        exact ih (n / 10) (by omega) (by omega)

/-- The number with digits in front of which a sign was read. -/
def Number.ofSign (isNegative : Bool) (n : Nat) : Number :=
  if isNegative then .negative (n - 1) else .natural n

/-- The numbers that a sign and digits may stand for. -/
def SignFits (isNegative : Bool) (n : Nat) : Prop :=
  if isNegative then 0 < n ∧ n ≤ 2 ^ 63 else n < 2 ^ 64

theorem SignFits.le {isNegative : Bool} {n : Nat} (h : SignFits isNegative n) :
    n ≤ greatestNatural := by
  have hgreatest : greatestNatural = 2 ^ 64 - 1 := rfl
  cases isNegative with
  | true =>
      have hle : n ≤ 2 ^ 63 := h.2
      omega
  | false =>
      have hlt : n < 2 ^ 64 := h
      omega

section Number

variable {isNegative : Bool} {n : Nat} {rest : Text} (hfits : SignFits isNegative n)
variable (hrest : EndsNumber rest)

include hfits hrest

theorem readNumberFrom_whole (offset : Nat) :
    readNumberFrom isNegative n 0 ⟨offset, rest⟩ =
      .ok (.ofSign isNegative n, ⟨offset, rest⟩) := by
  have hstop : ∀ c, extendsNumber c = true → rest.head? ≠ some c := by
    intro c hc hhead
    rw [hrest c hhead] at hc
    cases hc
  have hpeek : (Cursor.mk offset rest).peek = rest.head? := rfl
  cases isNegative with
  | true =>
      obtain ⟨hpos, hle⟩ : 0 < n ∧ n ≤ 2 ^ 63 := hfits
      simp [readNumberFrom, hpeek, hstop '.' (by decide), hstop 'e' (by decide),
        hstop 'E' (by decide), Number.ofSign, hpos]
      exact hle
  | false =>
      simp [readNumberFrom, hpeek, hstop '.' (by decide), hstop 'e' (by decide),
        hstop 'E' (by decide), Number.ofSign]

/-- A natural number is read back from its digits, with its sign. -/
theorem reads_number :
    Reads (readNumber isNegative) (ofNat n ++ rest) (.ofSign isNegative n) rest := by
  intro offset
  have hdigit : ∀ c, rest.head? = some c → Text.isDigit c = false := by
    intro c hc
    have hnot := hrest c hc
    simp only [extendsNumber, Bool.or_eq_false_iff] at hnot
    exact hnot.1.1.1
  have hvalue : (ofNat n).foldl (fun value digit => value * 10 + Text.digitValue digit) 0 = n :=
    Text.value_ofNat n
  have htake := (Text.takeWhile_append_of_stop (Text.isNumeral_ofNat n).all hdigit).1
  have hdigits := takeDigits_eq (ofNat n) 0 (hvalue.symm ▸ hfits.le)
  have hbehind := skip_append offset (ofNat n) rest
  refine ⟨offset + Text.byteSize (ofNat n), ?_⟩
  rw [readNumber.eq_def]
  dsimp only
  split
  next hempty => simp [ofNat, Nat.toDigits_ne_nil] at hempty
  next others hothers =>
    -- Only zero is written with a zero in front.
    have hzero : n = 0 := by
      by_contra hne
      have hhead := congrArg List.head? hothers
      rw [List.head?_append_of_ne_nil _ (Text.isNumeral_ofNat n).nonempty] at hhead
      exact head?_ofNat_ne (Nat.pos_of_ne_zero hne) hhead
    subst hzero
    obtain rfl : rest = others := (List.cons.inj hothers).2
    have hnext : rest.head?.any Text.isDigit = false := by
      cases hhead : rest.head? with
      | none => rfl
      | some c => exact hdigit c hhead
    rw [if_neg (by simp [hnext])]
    exact (congrArg _ hbehind).trans (readNumberFrom_whole hfits hrest _)
  next c others hnot hothers =>
    have hc : Text.isDigit c = true :=
      (Text.isNumeral_ofNat n).isDigit_head rest c (congrArg List.head? hothers)
    rw [if_pos hc, htake, hdigits, hvalue]
    exact (congrArg _ hbehind).trans (readNumberFrom_whole hfits hrest _)

end Number

/-! ## Strings -/

theorem escapeLetter?_eq_some {c letter : Char} (h : escapeLetter? c = some letter) :
    letter ≠ 'u' ∧ escaped? letter = some c := by
  unfold escapeLetter? at h
  split at h <;> cases h <;> decide

theorem escapeLetter?_eq_none {c : Char} (h : escapeLetter? c = none) : c ≠ '"' ∧ c ≠ '\\' := by
  constructor
  · rintro rfl
    cases h
  · rintro rfl
    cases h

theorem length_le_byteSize (text : Text) : text.length ≤ Text.byteSize text := by
  induction text with
  | nil => exact Nat.le_refl _
  | cons c text ih =>
      have hsize := c.utf8Size_pos
      rw [List.length_cons, Text.byteSize]
      omega

theorem readUnit_append (offset : Nat) {digits : Text} (hlength : digits.length = 4)
    (hhex : digits.all Text.isHexDigit = true) (rest : Text) :
    readUnit ⟨offset, digits ++ rest⟩ =
      .ok (Text.valueIn 16 digits, ⟨offset + Text.byteSize digits, rest⟩) := by
  have hsize := length_le_byteSize (digits ++ rest)
  have henough : ¬Text.byteSize (digits ++ rest) < 4 := by
    rw [List.length_append] at hsize
    omega
  have hskip := skip_append offset digits rest
  rw [hlength] at hskip
  rw [readUnit]
  simp only [← hlength, List.take_left] at henough hskip ⊢
  rw [if_neg henough, if_pos hhex, hskip]

/-- The digits of the code point of a control character, behind those that are zero. -/
def controlDigits (c : Char) : Text := ['0', '0', hexDigit (c.toNat / 16), hexDigit c.toNat]

theorem readCodePoint_control (offset : Nat) {c : Char} (hcontrol : c.toNat < 0x20) (rest : Text) :
    readCodePoint ⟨offset, controlDigits c ++ rest⟩ =
      .ok (c, ⟨offset + Text.byteSize (controlDigits c), rest⟩) := by
  have hdigits : ∀ n < 0x20,
      (['0', '0', hexDigit (n / 16), hexDigit n].all Text.isHexDigit) = true ∧
        Text.valueIn 16 ['0', '0', hexDigit (n / 16), hexDigit n] = n := by decide
  obtain ⟨hhex, hvalue⟩ : (controlDigits c).all Text.isHexDigit = true ∧
      Text.valueIn 16 (controlDigits c) = c.toNat := hdigits c.toNat hcontrol
  rw [readCodePoint, readUnit_append offset rfl hhex rest, hvalue]
  simp only [bind, Except.bind]
  rw [if_neg (by simp; omega), if_pos (by simp; omega), Char.ofNat_toNat]

/-- The next character of a string is read, whatever comes of the others. -/
def ReadsChar (written : Text) (c : Char) : Prop :=
  ∀ steps offset rest, ∃ behind, readString (steps + 1) ⟨offset, written ++ rest⟩ =
    (readString steps ⟨behind, rest⟩).bind fun found => .ok (c :: found.1, found.2)

theorem readsChar_letter {letter c : Char} (hletter : letter ≠ 'u')
    (hc : escaped? letter = some c) : ReadsChar ['\\', letter] c := by
  intro steps offset rest
  refine ⟨offset + Text.byteSize ['\\', letter], ?_⟩
  unfold escaped? at hc
  split at hc <;> cases hc <;> rfl

theorem readsChar_control {c : Char} (hcontrol : c.toNat < 0x20) :
    ReadsChar ('\\' :: 'u' :: controlDigits c) c := by
  intro steps offset rest
  refine ⟨offset + Text.byteSize ['\\', 'u'] + Text.byteSize (controlDigits c), ?_⟩
  have hstep : readString (steps + 1) ⟨offset, '\\' :: 'u' :: (controlDigits c ++ rest)⟩ =
      (readCodePoint ⟨offset + Text.byteSize ['\\', 'u'], controlDigits c ++ rest⟩).bind fun unit =>
        (readString steps unit.2).bind fun found => .ok (unit.1 :: found.1, found.2) := rfl
  rw [List.cons_append, List.cons_append, hstep, readCodePoint_control _ hcontrol]
  rfl

/-- A character that needs no escape is read as itself. -/
theorem readsChar_plain {c : Char} (hquote : c ≠ '"') (hslash : c ≠ '\\')
    (hprints : ¬c.toNat < 0x20) : ReadsChar [c] c := by
  intro steps offset rest
  refine ⟨offset + Text.byteSize [c], ?_⟩
  rw [readString.eq_def]
  dsimp only [List.singleton_append]
  split
  next hempty => cases hempty
  next hfirst => exact absurd (List.cons.inj hfirst).1 hquote
  next hfirst => exact absurd (List.cons.inj hfirst).1 hslash
  next other others _ _ hother =>
    obtain ⟨rfl, rfl⟩ := List.cons.inj hother
    rw [if_neg hprints]
    rfl

/-- A character is read from what is written for it. -/
theorem readsChar_escapeChar (c : Char) : ReadsChar (escapeChar c) c := by
  rw [escapeChar]
  cases hletter : escapeLetter? c with
  | some letter =>
      obtain ⟨hunit, hc⟩ := escapeLetter?_eq_some hletter
      exact readsChar_letter hunit hc
  | none =>
      obtain ⟨hquote, hslash⟩ := escapeLetter?_eq_none hletter
      dsimp only
      split
      next hcontrol => exact readsChar_control hcontrol
      next hprints => exact readsChar_plain hquote hslash hprints

/-- A string is read from its characters, if there are enough steps. -/
theorem reads_string {text : Text} {steps : Nat} (hsteps : text.length < steps) (rest : Text) :
    Reads (readString steps) (text.flatMap escapeChar ++ '"' :: rest) text rest := by
  induction text generalizing steps with
  | nil =>
      obtain ⟨steps, rfl⟩ := Nat.exists_eq_add_one_of_ne_zero (Nat.ne_of_gt hsteps)
      exact fun offset => ⟨_, rfl⟩
  | cons c text ih =>
      obtain ⟨steps, rfl⟩ :=
        Nat.exists_eq_add_one_of_ne_zero (Nat.ne_of_gt (Nat.lt_of_le_of_lt (Nat.zero_le _) hsteps))
      intro offset
      rw [List.flatMap_cons, List.append_assoc]
      obtain ⟨between, hchar⟩ := readsChar_escapeChar c steps offset
        (text.flatMap escapeChar ++ '"' :: rest)
      obtain ⟨behind, htext⟩ := ih (Nat.lt_of_succ_lt_succ hsteps) between
      exact ⟨behind, by rw [hchar, htext]; rfl⟩

theorem length_le_flatMap_escapeChar (text : Text) :
    text.length ≤ (text.flatMap escapeChar).length := by
  induction text with
  | nil => exact Nat.le_refl _
  | cons c text ih =>
      have hc : 0 < (escapeChar c).length := by
        rw [escapeChar]
        split
        · exact Nat.succ_pos _
        · split <;> exact Nat.succ_pos _
      rw [List.flatMap_cons, List.length_append, List.length_cons]
      omega

/-- The characters of a string and its closing quote are read behind its opening quote. -/
theorem reads_quoted (text rest : Text) (offset : Nat) :
    ∃ behind, readString (quote text ++ rest).length
      ((Cursor.mk offset (quote text ++ rest)).skip 1) = .ok (text, ⟨behind, rest⟩) := by
  have hlength := length_le_flatMap_escapeChar text
  have hquote : quote text ++ rest = '"' :: (text.flatMap escapeChar ++ '"' :: rest) := by
    simp [quote]
  rw [hquote]
  refine reads_string ?_ rest (offset + Text.byteSize ['"'])
  simp only [List.length_cons, List.length_append]
  omega

end LiteralAudit.Json
