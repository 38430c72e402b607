import LiteralAudit.Proofs.Text.Break
import LiteralAudit.Proofs.Text.Utf8

/-!
# Lines of bytes

Bytes have lines whether or not they are a text: the bytes of a line feed and of a carriage return
break them as the characters do (`byteLines`).  A text is read from bytes, with what is broken
replaced, line by line: its lines are what is read from the lines of the bytes, each on its own
(`splitLines_decodeLossy`).

The reader is seen as a machine: a byte adds characters to the text and leaves a character begun, or
none (`advance`).  A character of which some bytes have been read is no break and owes no byte of a
break (`Begun.IsLong`), so a break ends it, and no other byte adds a break.  The induction is on the
bytes, from one break or other byte to the next, for every character that may have been begun.
-/

namespace LiteralAudit.Text.Utf8

/-! ## Lines -/

/-- Lines of bytes with a byte at the front of the first one. -/
def consByte (byte : UInt8) : List (List UInt8) → List (List UInt8)
  | [] => [[byte]]
  | line :: lines => (byte :: line) :: lines

/-- The lines of some bytes, without their breaks.  A break is a line feed, a carriage return, or
the two together, and there is no line behind a final break. -/
def byteLines : List UInt8 → List (List UInt8)
  | [] => []
  | 0x0d :: 0x0a :: bytes => [] :: byteLines bytes
  | byte :: bytes =>
      if byte = 0x0a ∨ byte = 0x0d then [] :: byteLines bytes
      else consByte byte (byteLines bytes)

theorem byteLines_pair (bytes : List UInt8) :
    byteLines (0x0d :: 0x0a :: bytes) = [] :: byteLines bytes := rfl

theorem byteLines_feed (bytes : List UInt8) :
    byteLines (0x0a :: bytes) = [] :: byteLines bytes := by
  rw [byteLines, if_pos (Or.inl rfl)]
  intro rest h
  cases h

theorem byteLines_return {bytes : List UInt8} (h : bytes.head? ≠ some 0x0a) :
    byteLines (0x0d :: bytes) = [] :: byteLines bytes := by
  rw [byteLines, if_pos (Or.inr rfl)]
  rintro rest - rfl
  exact h rfl

theorem byteLines_cons {byte : UInt8} (hfeed : byte ≠ 0x0a) (hreturn : byte ≠ 0x0d)
    (bytes : List UInt8) : byteLines (byte :: bytes) = consByte byte (byteLines bytes) := by
  rw [byteLines, if_neg (not_or.mpr ⟨hfeed, hreturn⟩)]
  intro rest h
  exact absurd h hreturn

/-- Bytes are gone through one by one, but for a carriage return and the line feed behind it. -/
theorem byte_induction {motive : List UInt8 → Prop} (nil : motive [])
    (feed : ∀ bytes, motive bytes → motive (0x0a :: bytes))
    (pair : ∀ bytes, motive bytes → motive (0x0d :: 0x0a :: bytes))
    (lone : ∀ bytes, bytes.head? ≠ some 0x0a → motive bytes → motive (0x0d :: bytes))
    (other : ∀ byte bytes, byte ≠ 0x0a → byte ≠ 0x0d → motive bytes → motive (byte :: bytes)) :
    ∀ bytes, motive bytes
  | [] => nil
  | byte :: bytes => by
      have ih := byte_induction nil feed pair lone other bytes
      by_cases hfeed : byte = 0x0a
      · subst hfeed
        exact feed bytes ih
      by_cases hreturn : byte = 0x0d
      · subst hreturn
        by_cases hhead : bytes.head? = some 0x0a
        · cases bytes with
          | nil => cases hhead
          | cons next rest =>
              cases hhead
              exact pair rest (byte_induction nil feed pair lone other rest)
        · exact lone bytes hhead ih
      · exact other byte bytes hfeed hreturn ih

/-! ## Characters of more than one byte -/

/-- What has been begun is a character of more than one byte. -/
structure Begun.IsLong (begun : Begun) : Prop where
  /-- The next byte is none that can stand alone. -/
  low : 0x80 ≤ begun.low.toNat
  /-- Bits enough have been read before the last byte. -/
  last : begun.owed ≤ 1 → 2 ≤ begun.bits
  /-- Bits enough will have been read with the next byte. -/
  bits : 2 ≤ begun.bits * 64 + (begun.low.toNat - 0x80)

theorem isLong_of_first {byte : UInt8} {begun : Begun} (h : first byte = .more begun) :
    begun.IsLong := by
  rw [first_eq] at h
  split_ifs at h <;> cases h <;> constructor <;> simp <;> omega

theorem eq_ofNat_of_first {byte : UInt8} {c : Char} (h : first byte = .done c) :
    byte.toNat ≤ 0x7f ∧ c.toNat = byte.toNat := by
  rw [first_eq] at h
  split_ifs at h with hshort
  cases h
  exact ⟨hshort, toNat_ofNat (by omega)⟩

theorem ofNat_not_break {point : Nat} (h : 0x80 ≤ point) :
    Char.ofNat point ≠ '\n' ∧ Char.ofNat point ≠ '\r' := by
  have hpoint : (Char.ofNat point).toNat = point ∨ (Char.ofNat point).toNat = 0 := by
    by_cases hvalid : point.isValidChar
    · exact .inl (toNat_ofNat hvalid)
    · rw [Char.ofNat, dif_neg hvalid]
      exact .inr rfl
  constructor
  · intro heq
    have hfeed : (Char.ofNat point).toNat = 10 := congrArg Char.toNat heq
    omega
  · intro heq
    have hreturn : (Char.ofNat point).toNat = 13 := congrArg Char.toNat heq
    omega

namespace Begun.IsLong

variable {begun : Begun} {byte : UInt8}

/-- The character stays one of more than one byte. -/
theorem next (hlong : begun.IsLong) {later : Begun} (h : begun.next byte = .more later) :
    later.IsLong := by
  obtain ⟨owed, low, high, bits⟩ := begun
  have hbits : 2 ≤ bits * 64 + (low.toNat - 0x80) := hlong.bits
  by_cases hrange : low.toNat ≤ byte.toNat ∧ byte.toNat ≤ high.toNat
  · rw [next_of_mem hrange] at h
    split at h
    next => cases h
    next =>
      cases h
      constructor <;> simp <;> omega
  · rw [next_of_not_mem hrange] at h
    cases h

/-- The character is no break. -/
theorem not_break (hlong : begun.IsLong) {c : Char} (h : begun.next byte = .done c) :
    c ≠ '\n' ∧ c ≠ '\r' := by
  obtain ⟨owed, low, high, bits⟩ := begun
  have hlast : owed ≤ 1 → 2 ≤ bits := hlong.last
  by_cases hrange : low.toNat ≤ byte.toNat ∧ byte.toNat ≤ high.toNat
  · rw [next_of_mem hrange] at h
    split at h
    next howed =>
      have hbits := hlast howed
      rw [← Step.done.inj h]
      exact ofNat_not_break (by omega)
    next => cases h
  · rw [next_of_not_mem hrange] at h
    cases h

/-- A byte that stands alone does not belong to the character. -/
theorem next_broken (hlong : begun.IsLong) (h : byte.toNat ≤ 0x7f) :
    begun.next byte = .broken := by
  obtain ⟨owed, low, high, bits⟩ := begun
  have hlow : 0x80 ≤ low.toNat := hlong.low
  exact next_of_not_mem (by omega)

end Begun.IsLong

/-! ## The reader as a machine -/

/-- What a step adds to the text, and the character that is begun behind it. -/
def Step.outcome : Step → Text × Option Begun
  | .done c => ([c], none)
  | .more begun => ([], some begun)
  | .broken => ([replacement], none)

/-- What a byte adds to the text, and the character that is begun behind it. -/
def advance (begun : Option Begun) (byte : UInt8) : Text × Option Begun :=
  match begun with
  | none => (first byte).outcome
  | some begun =>
      if begun.next byte = .broken then
        (replacement :: (first byte).outcome.1, (first byte).outcome.2)
      else (begun.next byte).outcome

/-- What is read from the end of the bytes: a character that was begun is broken. -/
def atEnd (begun : Option Begun) : Text := begun.elim [] fun _ => [replacement]

theorem decodeLossyFrom_nil (begun : Option Begun) : decodeLossyFrom begun [] = atEnd begun := by
  cases begun <;> rfl

/-- Decoding goes on byte by byte, with what was begun in between. -/
theorem decodeLossyFrom_cons (begun : Option Begun) (byte : UInt8) (bytes : List UInt8) :
    decodeLossyFrom begun (byte :: bytes) =
      (advance begun byte).1 ++ decodeLossyFrom (advance begun byte).2 bytes := by
  cases begun with
  | none => cases hfirst : first byte <;> simp [decodeLossyFrom, advance, Step.outcome, hfirst]
  | some begun =>
      cases hnext : begun.next byte with
      | done c => simp [decodeLossyFrom, advance, Step.outcome, hnext]
      | more later => simp [decodeLossyFrom, advance, Step.outcome, hnext]
      | broken =>
          cases hfirst : first byte <;>
            simp [decodeLossyFrom, advance, Step.outcome, hnext, hfirst]

/-- Nothing has been begun, or a character of more than one byte. -/
def AreLong (begun : Option Begun) : Prop := ∀ b ∈ begun, b.IsLong

theorem areLong_none : AreLong none := nofun

/-- A byte that is no break adds none, whatever was begun. -/
theorem advance_unbroken {begun : Option Begun} (hlong : AreLong begun) {byte : UInt8}
    (hfeed : byte ≠ 0x0a) (hreturn : byte ≠ 0x0d) :
    IsUnbroken (advance begun byte).1 ∧ AreLong (advance begun byte).2 := by
  have hchar : ∀ c, c ≠ '\n' → c ≠ '\r' → IsUnbroken [c] := by
    intro c hc hc'
    simp [IsUnbroken, hc.symm, hc'.symm]
  have hfirst : IsUnbroken (first byte).outcome.1 ∧ AreLong (first byte).outcome.2 := by
    cases hstep : first byte with
    | done c =>
        obtain ⟨-, hpoint⟩ := eq_ofNat_of_first hstep
        refine ⟨hchar c ?_ ?_, areLong_none⟩
        · rintro rfl
          exact hfeed (UInt8.toNat_inj.mp hpoint.symm)
        · rintro rfl
          exact hreturn (UInt8.toNat_inj.mp hpoint.symm)
    | more begun =>
        refine ⟨by simp [Step.outcome, IsUnbroken], ?_⟩
        rintro b ⟨⟩
        exact isLong_of_first hstep
    | broken => exact ⟨hchar replacement (by decide) (by decide), areLong_none⟩
  cases begun with
  | none => exact hfirst
  | some begun =>
      have hbegun : begun.IsLong := hlong begun rfl
      cases hstep : begun.next byte with
      | done c =>
          obtain ⟨hc, hc'⟩ := hbegun.not_break hstep
          simp only [advance, hstep, reduceCtorEq, if_false, Step.outcome]
          exact ⟨hchar c hc hc', areLong_none⟩
      | more later =>
          simp only [advance, hstep, reduceCtorEq, if_false, Step.outcome]
          refine ⟨by simp [IsUnbroken], ?_⟩
          rintro b ⟨⟩
          exact hbegun.next hstep
      | broken =>
          simp only [advance, hstep, if_true]
          refine ⟨?_, hfirst.2⟩
          exact ⟨List.not_mem_cons_of_ne_of_not_mem (by decide) hfirst.1.1,
            List.not_mem_cons_of_ne_of_not_mem (by decide) hfirst.1.2⟩

/-- The byte of a break stands alone: it ends what was begun, and the reader starts anew then. -/
theorem decodeLossyFrom_break {begun : Option Begun} (hlong : AreLong begun) {byte : UInt8}
    {c : Char}
    (hbyte : first byte = .done c) (bytes : List UInt8) :
    decodeLossyFrom begun (byte :: bytes) = atEnd begun ++ c :: decodeLossy bytes := by
  rw [decodeLossyFrom_cons]
  cases begun with
  | none => simp [advance, Step.outcome, hbyte, atEnd, decodeLossy]
  | some begun =>
      have hnext := (hlong begun rfl).next_broken (eq_ofNat_of_first hbyte).1
      simp [advance, Step.outcome, hnext, hbyte, atEnd, decodeLossy]

/-- What has been begun does not turn into a line feed. -/
theorem Begun.IsLong.head?_decodeLossyFrom {begun : Begun} (hlong : begun.IsLong)
    (bytes : List UInt8) : (decodeLossyFrom (some begun) bytes).head? ≠ some '\n' := by
  induction bytes generalizing begun with
  | nil => simp [decodeLossyFrom, replacement]
  | cons byte bytes ih =>
      rw [decodeLossyFrom_cons]
      cases hstep : begun.next byte with
      | done c => simp [advance, Step.outcome, hstep, (hlong.not_break hstep).1]
      | more later => simpa [advance, Step.outcome, hstep] using ih (hlong.next hstep)
      | broken => simp [advance, Step.outcome, hstep, replacement]

/-- A line feed is read at the front only from its byte. -/
theorem head?_decodeLossy {bytes : List UInt8} (h : bytes.head? ≠ some 0x0a) :
    (decodeLossy bytes).head? ≠ some '\n' := by
  cases bytes with
  | nil => simp [decodeLossy, decodeLossyFrom]
  | cons byte bytes =>
      rw [decodeLossy, decodeLossyFrom_cons]
      cases hstep : first byte with
      | done c =>
          have hpoint := (eq_ofNat_of_first hstep).2
          simp only [advance, Step.outcome, hstep, List.singleton_append, List.head?_cons]
          intro hc
          rw [Option.some.inj hc] at hpoint
          exact h (congrArg some (UInt8.toNat_inj.mp hpoint.symm))
      | more begun =>
          simpa [advance, Step.outcome, hstep] using
            (isLong_of_first hstep).head?_decodeLossyFrom bytes
      | broken => simp [advance, Step.outcome, hstep, replacement]

/-! ## Reading line by line -/

theorem isUnbroken_atEnd (begun : Option Begun) : IsUnbroken (atEnd begun) := by
  cases begun with
  | none => simp [atEnd, IsUnbroken]
  | some begun => simp [atEnd, IsUnbroken, replacement]

theorem outcome_ne_nil (step : Step) : step.outcome.1 ++ atEnd step.outcome.2 ≠ [] := by
  cases step <;> simp [Step.outcome, atEnd]

/-- No byte is read as nothing, if it is the last one. -/
theorem advance_ne_nil (begun : Option Begun) (byte : UInt8) :
    (advance begun byte).1 ++ atEnd (advance begun byte).2 ≠ [] := by
  cases begun with
  | none => exact outcome_ne_nil (first byte)
  | some begun =>
      simp only [advance]
      split
      next => simp
      next => exact outcome_ne_nil (begun.next byte)

theorem eq_nil_of_byteLines {bytes : List UInt8} (h : byteLines bytes = []) : bytes = [] := by
  induction bytes using byte_induction with
  | nil => rfl
  | feed bytes ih => simp [byteLines_feed] at h
  | pair bytes ih => simp [byteLines_pair] at h
  | lone bytes hhead ih => simp [byteLines_return hhead] at h
  | other byte bytes hfeed hreturn ih =>
      rw [byteLines_cons hfeed hreturn] at h
      cases hlines : byteLines bytes <;> simp [hlines, consByte] at h

/-- What is read from lines of bytes.  The first line goes on from what was begun, and each later
line is read on its own. -/
def readLines (begun : Option Begun) : List (List UInt8) → List Text
  | [] => splitLines (atEnd begun)
  | line :: lines => decodeLossyFrom begun line :: lines.map decodeLossy

theorem readLines_none (lines : List (List UInt8)) :
    readLines none lines = lines.map decodeLossy := by
  cases lines <;> rfl

/-- At a break the line ends with what was begun. -/
theorem splitLines_decodeLossyFrom_break {begun : Option Begun} (hlong : AreLong begun)
    {byte : UInt8} {c : Char} (hbyte : first byte = .done c) {bytes : List UInt8}
    {lines : List Text} (hlines : splitLines (c :: decodeLossy bytes) = [] :: lines) :
    splitLines (decodeLossyFrom begun (byte :: bytes)) = decodeLossyFrom begun [] :: lines := by
  rw [decodeLossyFrom_break hlong hbyte, splitLines_unbroken_append (isUnbroken_atEnd begun) hlines,
    List.append_nil, decodeLossyFrom_nil]

/-- Splitting behind decoding gives the decoded lines.  A break never belongs to a longer
sequence. -/
theorem splitLines_decodeLossyFrom {begun : Option Begun} (hlong : AreLong begun)
    (bytes : List UInt8) :
    splitLines (decodeLossyFrom begun bytes) = readLines begun (byteLines bytes) := by
  have hfeed : first 0x0a = .done '\n' := rfl
  have hreturn : first 0x0d = .done '\r' := rfl
  induction bytes using byte_induction generalizing begun with
  | nil =>
      rw [decodeLossyFrom_nil]
      rfl
  | feed bytes ih =>
      have hrest := (ih areLong_none).trans (readLines_none _)
      rw [byteLines_feed]
      exact splitLines_decodeLossyFrom_break hlong hfeed
        ((splitLines_feed _).trans (congrArg _ hrest))
  | pair bytes ih =>
      have hrest := (ih areLong_none).trans (readLines_none _)
      rw [byteLines_pair]
      exact splitLines_decodeLossyFrom_break hlong hreturn
        ((splitLines_pair _).trans (congrArg _ hrest))
  | lone bytes hhead ih =>
      have hrest := (ih areLong_none).trans (readLines_none _)
      rw [byteLines_return hhead]
      exact splitLines_decodeLossyFrom_break hlong hreturn
        ((splitLines_return (head?_decodeLossy hhead)).trans (congrArg _ hrest))
  | other byte bytes hfeed hreturn ih =>
      obtain ⟨hunbroken, hlater⟩ := advance_unbroken hlong hfeed hreturn
      have hrest := ih hlater
      rw [decodeLossyFrom_cons, byteLines_cons hfeed hreturn]
      cases hlines : byteLines bytes with
      | nil =>
          have hlast := isUnbroken_atEnd (advance begun byte).2
          rw [eq_nil_of_byteLines hlines, decodeLossyFrom_nil, consByte, readLines,
            decodeLossyFrom_cons, decodeLossyFrom_nil]
          refine splitLines_unbroken (advance_ne_nil begun byte) ?_
          simpa [IsUnbroken, List.mem_append, not_or] using
            ⟨⟨hunbroken.1, hlast.1⟩, hunbroken.2, hlast.2⟩
      | cons line lines =>
          rw [hlines] at hrest
          rw [splitLines_unbroken_append hunbroken hrest, consByte, readLines, decodeLossyFrom_cons]

/-- The lines of a text that is read from bytes are what is read from each line of the bytes. -/
theorem splitLines_decodeLossy (bytes : List UInt8) :
    splitLines (decodeLossy bytes) = (byteLines bytes).map decodeLossy :=
  (splitLines_decodeLossyFrom areLong_none bytes).trans (readLines_none _)

example : splitLines (decodeLossy [0x61, 0xe2, 0x82, 0x0d, 0x0a, 0xff, 0x0d, 0x62]) =
    ["a\ufffd", "\ufffd", "b"] := by decide

/-! ## Lines put together -/

/-- The bytes of some lines, each with a line feed behind it. -/
def feedLines (lines : List (List UInt8)) : List UInt8 := lines.flatMap (· ++ [0x0a])

/-- There is no byte of a break in a line. -/
def IsUnbrokenBytes (line : List UInt8) : Prop := 0x0a ∉ line ∧ 0x0d ∉ line

/-- No line of bytes has a break in it. -/
theorem isUnbroken_of_mem_byteLines {bytes line : List UInt8} (h : line ∈ byteLines bytes) :
    IsUnbrokenBytes line := by
  have hnil : IsUnbrokenBytes [] := by simp [IsUnbrokenBytes]
  induction bytes using byte_induction generalizing line with
  | nil => simp [byteLines] at h
  | feed bytes ih =>
      rw [byteLines_feed, List.mem_cons] at h
      rcases h with rfl | h
      · exact hnil
      · exact ih h
  | pair bytes ih =>
      rw [byteLines_pair, List.mem_cons] at h
      rcases h with rfl | h
      · exact hnil
      · exact ih h
  | lone bytes hhead ih =>
      rw [byteLines_return hhead, List.mem_cons] at h
      rcases h with rfl | h
      · exact hnil
      · exact ih h
  | other byte bytes hfeed hreturn ih =>
      have hbyte : ∀ rest, IsUnbrokenBytes rest → IsUnbrokenBytes (byte :: rest) := by
        intro rest hrest
        simpa [IsUnbrokenBytes, hfeed.symm, hreturn.symm] using hrest
      rw [byteLines_cons hfeed hreturn] at h
      cases hlines : byteLines bytes with
      | nil =>
          simp only [hlines, consByte, List.mem_singleton] at h
          subst h
          exact hbyte [] hnil
      | cons first rest =>
          simp only [hlines, consByte, List.mem_cons] at h
          rcases h with rfl | h
          · exact hbyte first (ih (by simp [hlines]))
          · exact ih (by simp [hlines, h])

theorem byteLines_unbroken {line : List UInt8} (hline : IsUnbrokenBytes line) (bytes : List UInt8) :
    byteLines (line ++ 0x0a :: bytes) = line :: byteLines bytes := by
  induction line with
  | nil => exact byteLines_feed bytes
  | cons byte line ih =>
      simp only [IsUnbrokenBytes, List.mem_cons, not_or] at hline
      obtain ⟨⟨hfeed, hfeeds⟩, hreturn, hreturns⟩ := hline
      rw [List.cons_append, byteLines_cons (Ne.symm hfeed) (Ne.symm hreturn), ih ⟨hfeeds, hreturns⟩,
        consByte]

/-- Lines that are put together are the lines of what comes of it. -/
theorem byteLines_feedLines {lines : List (List UInt8)}
    (hlines : ∀ line ∈ lines, IsUnbrokenBytes line) : byteLines (feedLines lines) = lines := by
  induction lines with
  | nil => rfl
  | cons line lines ih =>
      obtain ⟨hline, hrest⟩ := List.forall_mem_cons.mp hlines
      rw [feedLines, List.flatMap_cons, ← feedLines, List.append_assoc, List.singleton_append,
        byteLines_unbroken hline, ih hrest]

end LiteralAudit.Text.Utf8
