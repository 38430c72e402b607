import LiteralAudit.Text.Utf8
import Mathlib.Algebra.Group.Nat.Even
import Mathlib.Data.List.Basic

/-!
# Texts and their bytes

The reader goes byte by byte and remembers what is owed.  What it takes for a character is exactly
what is written for one (`first_ends_iff`), so it reads a text from the bytes of that text and from
no others (`decode?_eq_some`).  From these bytes the reader that replaces what is broken takes the
same text (`decodeLossy_encode`).

The last bytes of a character hold six bits of its code point each.  Bytes that are owed are these
for any code point with the bits read so far (`ends_more_iff`, by induction on how many are owed);
the bounds on the next byte leave out what is written with fewer bytes and what is no character.
-/

namespace LiteralAudit.Text.Utf8

/-! ## Bytes that end a character -/

/-- Bytes that end a character of which some bytes may have been read. -/
def Step.Ends : Step → List UInt8 → Char → Prop
  | .done d, bytes, c => bytes = [] ∧ d = c
  | .broken, _, _ => False
  | .more _, [], _ => False
  | .more begun, byte :: bytes, c => (begun.next byte).Ends bytes c

@[simp] theorem ends_done {d c : Char} {bytes : List UInt8} :
    (Step.done d).Ends bytes c ↔ bytes = [] ∧ d = c := by
  cases bytes <;> rfl

@[simp] theorem ends_broken {c : Char} {bytes : List UInt8} : ¬Step.broken.Ends bytes c := by
  cases bytes <;> exact id

@[simp] theorem ends_more_nil {begun : Begun} {c : Char} : ¬(Step.more begun).Ends [] c := id

@[simp] theorem ends_more_cons {begun : Begun} {byte : UInt8} {bytes : List UInt8} {c : Char} :
    (Step.more begun).Ends (byte :: bytes) c ↔ (begun.next byte).Ends bytes c := Iff.rfl

/-- The six bits of a code point at some place, as a byte behind the first one. -/
def sixBits (n point : Nat) : UInt8 := UInt8.ofNat (point / 64 ^ n % 64 + 0x80)

/-- The last bytes of a code point. -/
def trail : Nat → Nat → List UInt8
  | 0, _ => []
  | n + 1, point => sixBits n point :: trail n point

theorem eq_ofNat_iff {n : Nat} (h : n < 256) {byte : UInt8} :
    byte = UInt8.ofNat n ↔ byte.toNat = n := by
  constructor
  · rintro rfl
    exact UInt8.toNat_ofNat_of_lt' h
  · rintro rfl
    exact UInt8.ofNat_toNat.symm

theorem eq_sixBits_iff {n point : Nat} {byte : UInt8} :
    byte = sixBits n point ↔ byte.toNat = point / 64 ^ n % 64 + 0x80 := by
  refine eq_ofNat_iff ?_
  have hmod : point / 64 ^ n % 64 < 64 := Nat.mod_lt _ (by decide)
  omega

section Next

variable {owed bits : Nat} {low high byte : UInt8}

/-- A byte in the range that is owed goes into the character, and the last one completes it. -/
theorem next_of_mem (h : low.toNat ≤ byte.toNat ∧ byte.toNat ≤ high.toNat) :
    Begun.next ⟨owed, low, high, bits⟩ byte =
      if owed ≤ 1 then .done (Char.ofNat (bits * 64 + (byte.toNat - 0x80)))
      else .more ⟨owed - 1, 0x80, 0xbf, bits * 64 + (byte.toNat - 0x80)⟩ := by
  simp [Begun.next, UInt8.le_iff_toNat_le, h]

theorem next_of_not_mem (h : ¬(low.toNat ≤ byte.toNat ∧ byte.toNat ≤ high.toNat)) :
    Begun.next ⟨owed, low, high, bits⟩ byte = .broken := by
  simp [Begun.next, UInt8.le_iff_toNat_le]
  omega

end Next

/-- What is owed are the last bytes of a code point that begins with the bits read so far. -/
theorem ends_more_iff {low high : UInt8} (least most : Nat) (hlow : low.toNat = least)
    (hhigh : high.toNat = most) (hleast : 0x80 ≤ least) (hmost : most ≤ 0xbf)
    {bytes : List UInt8} {c : Char} (n bits : Nat) :
    (Step.more ⟨n + 1, low, high, bits⟩).Ends bytes c ↔
      ∃ point, point / 64 ^ n / 64 = bits ∧ least ≤ point / 64 ^ n % 64 + 0x80 ∧
        point / 64 ^ n % 64 + 0x80 ≤ most ∧ bytes = sixBits n point :: trail n point ∧
        Char.ofNat point = c := by
  induction n generalizing low high least most bits bytes with
  | zero =>
      cases bytes with
      | nil => simp
      | cons byte bytes =>
          simp only [ends_more_cons, trail, List.cons.injEq, eq_sixBits_iff, Nat.pow_zero,
            Nat.div_one]
          by_cases hrange : least ≤ byte.toNat ∧ byte.toNat ≤ most
          · rw [next_of_mem (hlow ▸ hhigh ▸ hrange), if_pos (Nat.le_refl 1), ends_done]
            constructor
            · rintro ⟨rfl, rfl⟩
              exact ⟨bits * 64 + (byte.toNat - 0x80), by omega, by omega, by omega,
                ⟨by omega, rfl⟩, rfl⟩
            · rintro ⟨point, hbits, -, -, ⟨hbyte, rfl⟩, rfl⟩
              refine ⟨rfl, congrArg Char.ofNat ?_⟩
              omega
          · rw [next_of_not_mem (hlow ▸ hhigh ▸ hrange)]
            refine iff_of_false ends_broken ?_
            rintro ⟨point, -, hl, hh, ⟨hbyte, -⟩, -⟩
            omega
  | succ n ih =>
      cases bytes with
      | nil => simp
      | cons byte bytes =>
          have hpow : ∀ point, point / 64 ^ (n + 1) = point / 64 ^ n / 64 := by
            intro point
            rw [Nat.pow_succ, Nat.div_div_eq_div_mul]
          simp only [ends_more_cons, trail, List.cons.injEq, eq_sixBits_iff, hpow]
          by_cases hrange : least ≤ byte.toNat ∧ byte.toNat ≤ most
          · rw [next_of_mem (hlow ▸ hhigh ▸ hrange), if_neg (by omega)]
            show (Step.more ⟨n + 1, 0x80, 0xbf, _⟩).Ends bytes c ↔ _
            rw [ih 0x80 0xbf rfl rfl (by decide) (by decide)]
            constructor
            · rintro ⟨point, hbits, -, -, rfl, rfl⟩
              exact ⟨point, by omega, by omega, by omega, ⟨by omega, rfl⟩, rfl⟩
            · rintro ⟨point, hbits, hl, hh, ⟨hbyte, rfl⟩, rfl⟩
              have hmod : point / 64 ^ n % 64 < 64 := Nat.mod_lt _ (by decide)
              refine ⟨point, by omega, Nat.le_add_left .., ?_, rfl, rfl⟩
              show point / 64 ^ n % 64 + 0x80 ≤ 0xbf
              omega
          · rw [next_of_not_mem (hlow ▸ hhigh ▸ hrange)]
            refine iff_of_false ends_broken ?_
            rintro ⟨point, -, hl, hh, ⟨hbyte, -⟩, -⟩
            omega

/-! ## Characters -/

theorem toNat_ofNat {point : Nat} (h : point < 0xd800 ∨ 0xdfff < point ∧ point < 0x110000) :
    (Char.ofNat point).toNat = point := by
  rw [Char.ofNat, dif_pos h]
  rfl

/-- No character is half of a surrogate pair. -/
theorem toNat_not_surrogate (c : Char) :
    c.toNat < 0xd800 ∨ 0xdfff < c.toNat ∧ c.toNat < 0x110000 := c.valid

theorem utf8EncodeChar_eq (c : Char) :
    String.utf8EncodeChar c =
      if c.toNat ≤ 0x7f then [UInt8.ofNat c.toNat]
      else if c.toNat ≤ 0x7ff then UInt8.ofNat (c.toNat / 64 + 0xc0) :: trail 1 c.toNat
      else if c.toNat ≤ 0xffff then UInt8.ofNat (c.toNat / 4096 + 0xe0) :: trail 2 c.toNat
      else UInt8.ofNat (c.toNat / 262144 + 0xf0) :: trail 3 c.toNat := by
  have hvalid := toNat_not_surrogate c
  have hval : c.val.toNat = c.toNat := rfl
  rw [String.utf8EncodeChar]
  simp only [hval, trail, sixBits, Nat.reducePow, Nat.div_one]
  split_ifs with h1 h2 h3
  · rfl
  · rw [Nat.mod_eq_of_lt (a := c.toNat / 64) (by omega)]
  · rw [Nat.mod_eq_of_lt (a := c.toNat / 4096) (by omega)]
  · rw [Nat.mod_eq_of_lt (a := c.toNat / 262144) (by omega)]

/-- What a first byte begins, by its range. -/
theorem first_eq (byte : UInt8) :
    first byte =
      if byte.toNat ≤ 0x7f then .done (Char.ofNat byte.toNat)
      else if 0xc2 ≤ byte.toNat ∧ byte.toNat ≤ 0xdf then .more ⟨1, 0x80, 0xbf, byte.toNat - 0xc0⟩
      else if byte.toNat = 0xe0 then .more ⟨2, 0xa0, 0xbf, 0⟩
      else if byte.toNat = 0xed then .more ⟨2, 0x80, 0x9f, 0xd⟩
      else if 0xe1 ≤ byte.toNat ∧ byte.toNat ≤ 0xef then .more ⟨2, 0x80, 0xbf, byte.toNat - 0xe0⟩
      else if byte.toNat = 0xf0 then .more ⟨3, 0x90, 0xbf, 0⟩
      else if 0xf1 ≤ byte.toNat ∧ byte.toNat ≤ 0xf3 then .more ⟨3, 0x80, 0xbf, byte.toNat - 0xf0⟩
      else if byte.toNat = 0xf4 then .more ⟨3, 0x80, 0x8f, 4⟩
      else .broken := by
  simp [first, UInt8.le_iff_toNat_le, ← UInt8.toNat_inj]

section Size

variable {point : Nat} {byte : UInt8}

theorem encode_of_two (hpoint : 0x80 ≤ point ∧ point ≤ 0x7ff)
    (hbyte : byte.toNat = point / 64 + 0xc0) :
    String.utf8EncodeChar (Char.ofNat point) = byte :: trail 1 point := by
  rw [utf8EncodeChar_eq, toNat_ofNat (by omega), if_neg (by omega), if_pos hpoint.2, ← hbyte,
    UInt8.ofNat_toNat]

theorem encode_of_three
    (hpoint : 0x800 ≤ point ∧ point ≤ 0xffff ∧ ¬(0xd800 ≤ point ∧ point ≤ 0xdfff))
    (hbyte : byte.toNat = point / 4096 + 0xe0) :
    String.utf8EncodeChar (Char.ofNat point) = byte :: trail 2 point := by
  rw [utf8EncodeChar_eq, toNat_ofNat (by omega), if_neg (by omega), if_neg (by omega),
    if_pos hpoint.2.1, ← hbyte, UInt8.ofNat_toNat]

theorem encode_of_four (hpoint : 0x10000 ≤ point ∧ point < 0x110000)
    (hbyte : byte.toNat = point / 262144 + 0xf0) :
    String.utf8EncodeChar (Char.ofNat point) = byte :: trail 3 point := by
  rw [utf8EncodeChar_eq, toNat_ofNat (by omega), if_neg (by omega), if_neg (by omega),
    if_neg (by omega), ← hbyte, UInt8.ofNat_toNat]

end Size

/-- What is read as a character is what is written for it. -/
theorem first_ends_iff {byte : UInt8} {bytes : List UInt8} {c : Char} :
    (first byte).Ends bytes c ↔ String.utf8EncodeChar c = byte :: bytes := by
  rw [first_eq]
  constructor
  · intro h
    split_ifs at h with h1 h2 h3 h4 h5 h6 h7 h8
    · obtain ⟨rfl, rfl⟩ := ends_done.mp h
      rw [utf8EncodeChar_eq, toNat_ofNat (by omega), if_pos h1, UInt8.ofNat_toNat]
    · obtain ⟨point, hbits, hl, hh, rfl, rfl⟩ :=
        (ends_more_iff 0x80 0xbf rfl rfl (by decide) (by decide) ..).mp h
      exact encode_of_two (by omega) (by omega)
    · obtain ⟨point, hbits, hl, hh, rfl, rfl⟩ :=
        (ends_more_iff 0xa0 0xbf rfl rfl (by decide) (by decide) ..).mp h
      exact encode_of_three (by omega) (by omega)
    · obtain ⟨point, hbits, hl, hh, rfl, rfl⟩ :=
        (ends_more_iff 0x80 0x9f rfl rfl (by decide) (by decide) ..).mp h
      exact encode_of_three (by omega) (by omega)
    · obtain ⟨point, hbits, hl, hh, rfl, rfl⟩ :=
        (ends_more_iff 0x80 0xbf rfl rfl (by decide) (by decide) ..).mp h
      exact encode_of_three (by omega) (by omega)
    · obtain ⟨point, hbits, hl, hh, rfl, rfl⟩ :=
        (ends_more_iff 0x90 0xbf rfl rfl (by decide) (by decide) ..).mp h
      exact encode_of_four (by omega) (by omega)
    · obtain ⟨point, hbits, hl, hh, rfl, rfl⟩ :=
        (ends_more_iff 0x80 0xbf rfl rfl (by decide) (by decide) ..).mp h
      exact encode_of_four (by omega) (by omega)
    · obtain ⟨point, hbits, hl, hh, rfl, rfl⟩ :=
        (ends_more_iff 0x80 0x8f rfl rfl (by decide) (by decide) ..).mp h
      exact encode_of_four (by omega) (by omega)
    · exact absurd h ends_broken
  · intro h
    have hvalid := toNat_not_surrogate c
    have hself := Char.ofNat_toNat c
    rw [utf8EncodeChar_eq] at h
    split_ifs at h with h1 h2 h3
    · obtain ⟨hbyte, rfl⟩ := List.cons.inj h
      rw [eq_comm, eq_ofNat_iff (by omega)] at hbyte
      rw [if_pos (by omega), ends_done, hbyte]
      exact ⟨rfl, hself⟩
    · obtain ⟨hbyte, rfl⟩ := List.cons.inj h
      rw [eq_comm, eq_ofNat_iff (by omega)] at hbyte
      rw [if_neg (by omega), if_pos (by omega),
        ends_more_iff 0x80 0xbf rfl rfl (by decide) (by decide)]
      exact ⟨c.toNat, by omega, by omega, by omega, rfl, hself⟩
    · obtain ⟨hbyte, rfl⟩ := List.cons.inj h
      rw [eq_comm, eq_ofNat_iff (by omega)] at hbyte
      rw [if_neg (by omega), if_neg (by omega)]
      split_ifs with he0 hed hrest
      · exact (ends_more_iff 0xa0 0xbf rfl rfl (by decide) (by decide) ..).mpr
          ⟨c.toNat, by omega, by omega, by omega, rfl, hself⟩
      · exact (ends_more_iff 0x80 0x9f rfl rfl (by decide) (by decide) ..).mpr
          ⟨c.toNat, by omega, by omega, by omega, rfl, hself⟩
      · exact (ends_more_iff 0x80 0xbf rfl rfl (by decide) (by decide) ..).mpr
          ⟨c.toNat, by omega, by omega, by omega, rfl, hself⟩
      all_goals omega
    · obtain ⟨hbyte, rfl⟩ := List.cons.inj h
      rw [eq_comm, eq_ofNat_iff (by omega)] at hbyte
      rw [if_neg (by omega), if_neg (by omega), if_neg (by omega), if_neg (by omega),
        if_neg (by omega)]
      split_ifs with hf0 hrest hf4
      · exact (ends_more_iff 0x90 0xbf rfl rfl (by decide) (by decide) ..).mpr
          ⟨c.toNat, by omega, by omega, by omega, rfl, hself⟩
      · exact (ends_more_iff 0x80 0xbf rfl rfl (by decide) (by decide) ..).mpr
          ⟨c.toNat, by omega, by omega, by omega, rfl, hself⟩
      · exact (ends_more_iff 0x80 0x8f rfl rfl (by decide) (by decide) ..).mpr
          ⟨c.toNat, by omega, by omega, by omega, rfl, hself⟩
      · omega

/-! ## Texts -/

/-- Reading on after a step. -/
def resume? : Step → List UInt8 → Option Text
  | .done c, bytes => (decodeFrom? none bytes).map (c :: ·)
  | .more begun, bytes => decodeFrom? (some begun) bytes
  | .broken, _ => none

theorem decodeFrom?_cons (begun : Option Begun) (byte : UInt8) (bytes : List UInt8) :
    decodeFrom? begun (byte :: bytes) = resume? (begun.elim (first byte) (·.next byte)) bytes := by
  rw [decodeFrom?]
  cases begun.elim (first byte) (·.next byte) <;> rfl

/-- Reading on ends the character that was begun and reads the rest by itself. -/
theorem resume?_eq_some {bytes : List UInt8} {text : Text} {step : Step} :
    resume? step bytes = some text ↔
      ∃ last rest c others, bytes = last ++ rest ∧ step.Ends last c ∧ decode? rest = some others ∧
        text = c :: others := by
  induction bytes generalizing step with
  | nil =>
      cases step with
      | done d =>
          rw [resume?, Option.map_eq_some_iff]
          simp [decode?, eq_comm]
      | more begun => simp [resume?, decodeFrom?]
      | broken => simp [resume?]
  | cons byte bytes ih =>
      cases step with
      | done d =>
          rw [resume?, Option.map_eq_some_iff]
          simp [decode?, eq_comm]
      | more begun =>
          show decodeFrom? (some begun) (byte :: bytes) = some text ↔ _
          rw [decodeFrom?_cons]
          show resume? (begun.next byte) bytes = some text ↔ _
          rw [ih]
          constructor
          · rintro ⟨last, rest, c, others, rfl, hends, hrest, rfl⟩
            exact ⟨byte :: last, rest, c, others, rfl, hends, hrest, rfl⟩
          · rintro ⟨last, rest, c, others, hbytes, hends, hrest, rfl⟩
            cases last with
            | nil => exact absurd hends ends_more_nil
            | cons first last =>
                obtain ⟨rfl, rfl⟩ := List.cons.inj hbytes
                exact ⟨last, rest, c, others, rfl, hends, hrest, rfl⟩
      | broken => simp [resume?]

/-- The bytes of a text are read as this text, and no others are. -/
theorem decode?_eq_some {bytes : List UInt8} {text : Text} :
    decode? bytes = some text ↔ bytes = encode text := by
  induction text generalizing bytes with
  | nil =>
      cases bytes with
      | nil => simp [decode?, decodeFrom?, encode]
      | cons byte bytes =>
          rw [decode?, decodeFrom?_cons, resume?_eq_some]
          simp [encode]
  | cons c text ih =>
      rw [encode, List.flatMap_cons, ← encode]
      cases bytes with
      | nil =>
          have hne : String.utf8EncodeChar c ++ encode text ≠ [] := by
            simp [String.utf8EncodeChar_ne_nil]
          simp [decode?, decodeFrom?, hne.symm]
      | cons byte bytes =>
          rw [decode?, decodeFrom?_cons, resume?_eq_some]
          constructor
          · rintro ⟨last, rest, d, others, rfl, hends, hrest, htext⟩
            obtain ⟨rfl, rfl⟩ := List.cons.inj htext
            rw [first_ends_iff.mp hends, ih.mp hrest]
            rfl
          · intro h
            obtain ⟨first, last, hchar⟩ :=
              List.exists_cons_of_ne_nil (String.utf8EncodeChar_ne_nil (c := c))
            rw [hchar, List.cons_append] at h
            obtain ⟨rfl, rfl⟩ := List.cons.inj h
            exact ⟨last, encode text, c, text, rfl, first_ends_iff.mpr hchar, ih.mpr rfl, rfl⟩

/-! ## Nothing to replace -/

/-- Decoding with losses loses nothing of a text. -/
theorem decodeLossyFrom_eq {begun : Option Begun} {bytes : List UInt8} {text : Text}
    (h : decodeFrom? begun bytes = some text) : decodeLossyFrom begun bytes = text := by
  induction bytes generalizing begun text with
  | nil =>
      cases begun with
      | none => exact Option.some.inj h
      | some begun => cases h
  | cons byte bytes ih =>
      rw [decodeFrom?_cons] at h
      cases hstep : begun.elim (first byte) (·.next byte) with
      | done c =>
          rw [hstep, resume?, Option.map_eq_some_iff] at h
          obtain ⟨rest, hrest, rfl⟩ := h
          rw [← ih hrest]
          cases begun <;> simp only [Option.elim] at hstep <;> simp only [decodeLossyFrom, hstep]
      | more next =>
          rw [hstep] at h
          rw [← ih h]
          cases begun <;> simp only [Option.elim] at hstep <;> simp only [decodeLossyFrom, hstep]
      | broken =>
          rw [hstep] at h
          cases h

@[simp]
theorem decodeLossy_encode (text : Text) : decodeLossy (encode text) = text :=
  decodeLossyFrom_eq (decode?_eq_some.mpr rfl)

end LiteralAudit.Text.Utf8
