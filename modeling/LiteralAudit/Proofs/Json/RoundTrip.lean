import LiteralAudit.Proofs.Json.Canonical
import LiteralAudit.Proofs.Json.Scalars

/-!
# Reading what was written

A value that is written and read again is the same, with the members of its objects in the order of
their names (`read_write`).  Its strings may hold any characters.  Its numbers must be whole and fit
64 bits, and it must not be nested deeper than the reader goes (`Readable`).

Each step of the reader has a lemma that says what it takes from a text and what it leaves.  The
main result follows the writer, whose parts are what the steps take, and three steps for each
character are enough.
-/

namespace LiteralAudit.Json

/-! ## Steps of the reader -/

/-- Blanks in front of a text that begins with something else. -/
structure Blanks (blanks text : Text) : Prop where
  all : ∀ c ∈ blanks, isSpace c = true
  stop : ∀ c, text.head? = some c → isSpace c = false

theorem Blanks.skipSpace {blanks text : Text} (h : Blanks blanks text) (offset : Nat) :
    skipSpace ⟨offset, blanks ++ text⟩ = ⟨offset + Text.byteSize blanks, text⟩ := by
  rw [Json.skipSpace]
  show (Cursor.mk offset (blanks ++ text)).skip ((blanks ++ text).takeWhile isSpace).length = _
  rw [(Text.takeWhile_append_of_stop h.all h.stop).1, skip_append]

theorem Blanks.cons {blanks : Text} (hblanks : ∀ c ∈ blanks, isSpace c = true) {c : Char}
    (hc : isSpace c = false) (text : Text) : Blanks blanks (c :: text) :=
  ⟨hblanks, fun _ hhead => Option.some.inj hhead ▸ hc⟩

theorem isSpace_nil : ∀ c ∈ ([] : Text), isSpace c = true := List.forall_mem_nil _

theorem skipSpace_cons (offset : Nat) {c : Char} (hc : isSpace c = false) (text : Text) :
    skipSpace ⟨offset, c :: text⟩ = ⟨offset, c :: text⟩ :=
  (Blanks.cons isSpace_nil hc text).skipSpace offset

theorem expectName_append (name rest : Text) (offset : Nat) :
    ∃ behind, expectName name ⟨offset, name ++ rest⟩ = .ok ⟨behind, rest⟩ := by
  induction name generalizing offset with
  | nil => exact ⟨offset, rfl⟩
  | cons c name ih =>
      obtain ⟨behind, hname⟩ := ih (offset + Text.byteSize [c])
      exact ⟨behind, (if_pos rfl).trans hname⟩

/-- The characters that no item of a list begins with. -/
def startsNoItem (c : Char) : Bool := isSpace c || c = ']'

/-- A text begins like an item of a list. -/
def StartsItem (text : Text) : Prop := ∃ c others, text = c :: others ∧ startsNoItem c = false

section Steps

variable {steps limit : Nat} {blanks text mid rest : Text}

/-! ### Values -/

/-- White space in front of a value does not matter. -/
theorem reads_blanks {value : Json} (hblanks : Blanks blanks text)
    (hvalue : Reads (readValue (steps + 1) limit) text value rest) :
    Reads (readValue (steps + 1) limit) (blanks ++ text) value rest := by
  intro offset
  obtain ⟨behind, htext⟩ := hvalue (offset + Text.byteSize blanks)
  have hskip : Blanks [] text := ⟨isSpace_nil, hblanks.stop⟩
  have hsame : skipSpace ⟨offset, blanks ++ text⟩ =
      skipSpace ⟨offset + Text.byteSize blanks, text⟩ :=
    (hblanks.skipSpace offset).trans (hskip.skipSpace _).symm
  refine ⟨behind, ?_⟩
  rw [← htext, readValue, readValue, hsame]

/-- A value is read from its name, if its first letter tells which name it is. -/
theorem reads_name (first : Char) {name : Text} {value : Json}
    (hfirst : ∀ offset text, readValue (steps + 1) limit ⟨offset, first :: text⟩ =
      (expectName name ⟨offset + Text.byteSize [first], text⟩).bind
        fun cursor => .ok (value, cursor)) (rest : Text) :
    Reads (readValue (steps + 1) limit) (first :: (name ++ rest)) value rest := by
  intro offset
  obtain ⟨behind, hname⟩ := expectName_append name rest (offset + Text.byteSize [first])
  exact ⟨behind, by rw [hfirst, hname]; rfl⟩

theorem reads_null (rest : Text) :
    Reads (readValue (steps + 1) limit) ("null" ++ rest) .null rest := by
  refine reads_name 'n' (fun offset text => ?_) rest
  rw [readValue, skipSpace_cons offset (by decide)]
  rfl

theorem reads_true (rest : Text) :
    Reads (readValue (steps + 1) limit) ("true" ++ rest) (.bool true) rest := by
  refine reads_name 't' (fun offset text => ?_) rest
  rw [readValue, skipSpace_cons offset (by decide)]
  rfl

theorem reads_false (rest : Text) :
    Reads (readValue (steps + 1) limit) ("false" ++ rest) (.bool false) rest := by
  refine reads_name 'f' (fun offset text => ?_) rest
  rw [readValue, skipSpace_cons offset (by decide)]
  rfl

theorem startsNoItem_of_isDigit {c : Char} (hdigit : Text.isDigit c = true) :
    startsNoItem c = false := by
  have hrange := Text.isDigit_iff.mp hdigit
  simp only [startsNoItem, isSpace, Bool.or_eq_false_iff, decide_eq_false_iff_not]
  refine ⟨⟨⟨⟨?_, ?_⟩, ?_⟩, ?_⟩, ?_⟩ <;> rintro rfl <;> simp at hrange

theorem readValue_digit {digit : Char} (hdigit : Text.isDigit digit = true) (offset : Nat)
    (text : Text) : readValue (steps + 1) limit ⟨offset, digit :: text⟩ =
      (readNumber false ⟨offset, digit :: text⟩).bind fun found => .ok (.num found.1, found.2) := by
  have hspace := (Bool.or_eq_false_iff.mp (startsNoItem_of_isDigit hdigit)).1
  have hother : ∀ c others, Text.isDigit c = false → digit :: text ≠ c :: others := by
    rintro c others hc heq
    rw [(List.cons.inj heq).1, hc] at hdigit
    cases hdigit
  rw [readValue, skipSpace_cons offset hspace]
  split
  case h_1 hempty => cases hempty
  case h_9 c others _ _ _ _ _ _ _ hfirst =>
    obtain rfl : digit = c := (List.cons.inj hfirst).1
    rw [if_pos hdigit]
    rfl
  all_goals exact absurd ‹_› (hother _ _ (by decide))

/-- A number is read back if no character behind it could belong to it. -/
theorem reads_num {number : Number} (hfits : number.Fits)
    (hrest : EndsNumber rest) :
    Reads (readValue (steps + 1) limit) (number.text ++ rest) (.num number) rest := by
  intro offset
  cases number with
  | natural n =>
      have hsign : SignFits false n := hfits
      obtain ⟨behind, hnumber⟩ := reads_number hsign hrest offset
      refine ⟨behind, ?_⟩
      obtain ⟨digit, digits, hn⟩ := List.exists_cons_of_ne_nil (Text.isNumeral_ofNat n).nonempty
      have hdigit := (Text.isNumeral_ofNat n).all digit (hn ▸ List.mem_cons_self ..)
      rw [hn, List.cons_append] at hnumber
      rw [Number.text, hn, List.cons_append, readValue_digit hdigit, hnumber]
      rfl
  | negative n =>
      have hsign : SignFits true (n + 1) := ⟨Nat.succ_pos n, hfits⟩
      obtain ⟨behind, hnumber⟩ := reads_number hsign hrest (offset + Text.byteSize ['-'])
      refine ⟨behind, ?_⟩
      rw [Number.text, List.cons_append, readValue, skipSpace_cons offset (by decide)]
      exact congrArg (fun found => found.bind fun found => .ok (Json.num found.1, found.2)) hnumber
  | binary bits => exact hfits.elim

/-- A quoted text is read back, whatever is behind it. -/
theorem reads_str (text rest : Text) :
    Reads (readValue (steps + 1) limit) (quote text ++ rest) (.str text) rest := by
  intro offset
  obtain ⟨behind, htext⟩ := reads_quoted text rest offset
  refine ⟨behind, ?_⟩
  show readValue _ _ ⟨offset, '"' :: _⟩ = _
  rw [readValue, skipSpace_cons offset (by decide)]
  exact congrArg (fun found => found.bind fun found => .ok (Json.str found.1, found.2)) htext

theorem reads_array {items : List Json} (hlimit : 1 < limit)
    (hitems : Reads (readItems steps (limit - 1) true) text items rest) :
    Reads (readValue (steps + 1) limit) ('[' :: text) (.array items) rest := by
  intro offset
  obtain ⟨behind, htext⟩ := hitems (offset + Text.byteSize ['['])
  refine ⟨behind, ?_⟩
  rw [readValue, skipSpace_cons offset (by decide)]
  refine (if_neg (Nat.not_le.mpr hlimit)).trans ?_
  exact congrArg (fun found => found.bind fun found => .ok (Json.array found.1, found.2)) htext

theorem reads_object {members : List (Text × Json)} (hlimit : 1 < limit)
    (hmembers : Reads (readMembers steps (limit - 1) true []) text members rest) :
    Reads (readValue (steps + 1) limit) ('\x7b' :: text) (.object members) rest := by
  intro offset
  obtain ⟨behind, htext⟩ := hmembers (offset + Text.byteSize ['\x7b'])
  refine ⟨behind, ?_⟩
  rw [readValue, skipSpace_cons offset (by decide)]
  refine (if_neg (Nat.not_le.mpr hlimit)).trans ?_
  exact congrArg (fun found => found.bind fun found => .ok (Json.object found.1, found.2)) htext

/-! ### Items -/

theorem reads_items_end {isFirst : Bool} (hblanks : ∀ c ∈ blanks, isSpace c = true) :
    Reads (readItems (steps + 1) limit isFirst) (blanks ++ ']' :: rest) [] rest := by
  intro offset
  rw [readItems, (Blanks.cons hblanks (by decide) rest).skipSpace]
  exact ⟨_, rfl⟩

theorem Blanks.item (hblanks : ∀ c ∈ blanks, isSpace c = true) (h : StartsItem text) :
    Blanks blanks text := by
  obtain ⟨c, others, rfl, hc⟩ := h
  exact .cons hblanks (Bool.or_eq_false_iff.mp hc).1 others

section Item

variable {item : Json} {items : List Json}
variable (hblanks : ∀ c ∈ blanks, isSpace c = true) (htext : StartsItem text)
variable (hitem : Reads (readValue steps limit) text item mid)
variable (hitems : Reads (readItems steps limit false) mid items rest)

include hblanks htext hitem hitems

theorem reads_items_first :
    Reads (readItems (steps + 1) limit true) (blanks ++ text) (item :: items) rest := by
  intro offset
  obtain ⟨between, hvalue⟩ := hitem (offset + Text.byteSize blanks)
  obtain ⟨behind, hothers⟩ := hitems between
  refine ⟨behind, ?_⟩
  rw [readItems, (Blanks.item hblanks htext).skipSpace]
  obtain ⟨c, others, rfl, hc⟩ := htext
  split
  case h_1 hempty => cases hempty
  case h_2 hfirst => simp [startsNoItem, (List.cons.inj hfirst).1] at hc
  case h_3 => simp [hvalue, hothers, bind, Except.bind]

theorem reads_items_comma :
    Reads (readItems (steps + 1) limit false) (',' :: (blanks ++ text)) (item :: items) rest := by
  intro offset
  obtain ⟨between, hvalue⟩ := hitem (offset + Text.byteSize [','] + Text.byteSize blanks)
  obtain ⟨behind, hothers⟩ := hitems between
  refine ⟨behind, ?_⟩
  have hskip : skipSpace ((Cursor.mk offset (',' :: (blanks ++ text))).skip 1) = _ :=
    (Blanks.item hblanks htext).skipSpace (offset + Text.byteSize [','])
  rw [readItems, skipSpace_cons offset (by decide)]
  simp only [Bool.false_eq_true, if_false, hskip]
  split
  case h_1 hempty => cases hempty
  case h_2 hclose => exact absurd (List.cons.inj hclose).1 (by decide)
  case h_3 hcomma =>
    rw [if_pos (List.cons.inj hcomma).1.symm]
    obtain ⟨c, others, rfl, hc⟩ := htext
    split
    case h_1 hempty => cases hempty
    case h_2 hfirst => simp [startsNoItem, (List.cons.inj hfirst).1] at hc
    case h_3 => simp [hvalue, hothers, bind, Except.bind]

end Item

/-! ### Members -/

section Member

variable {isFirst : Bool} {known members : List (Text × Json)}

theorem reads_members_end (hblanks : ∀ c ∈ blanks, isSpace c = true) :
    Reads (readMembers (steps + 1) limit isFirst known) (blanks ++ '\x7d' :: rest) known rest := by
  intro offset
  rw [readMembers, (Blanks.cons hblanks (by decide) rest).skipSpace]
  exact ⟨_, rfl⟩

theorem reads_members_first (hblanks : ∀ c ∈ blanks, isSpace c = true)
    (hmember : Reads (readMember steps limit known) ('"' :: text) members rest) :
    Reads (readMembers (steps + 1) limit true known) (blanks ++ '"' :: text) members rest := by
  intro offset
  obtain ⟨behind, htext⟩ := hmember (offset + Text.byteSize blanks)
  refine ⟨behind, ?_⟩
  rw [readMembers, (Blanks.cons hblanks (by decide) text).skipSpace]
  exact htext

theorem reads_members_comma (hblanks : ∀ c ∈ blanks, isSpace c = true)
    (hmember : Reads (readMember steps limit known) ('"' :: text) members rest) :
    Reads (readMembers (steps + 1) limit false known) (',' :: (blanks ++ '"' :: text)) members
      rest := by
  intro offset
  obtain ⟨behind, htext⟩ := hmember (offset + Text.byteSize [','] + Text.byteSize blanks)
  refine ⟨behind, ?_⟩
  have hskip : skipSpace ((Cursor.mk offset (',' :: (blanks ++ '"' :: text))).skip 1) = _ :=
    (Blanks.cons hblanks (by decide) text).skipSpace (offset + Text.byteSize [','])
  rw [readMembers, skipSpace_cons offset (by decide)]
  simp only [Bool.false_eq_true, if_false, hskip]
  exact htext

/-- A member is its quoted name, a colon and its value, and then come the others. -/
theorem reads_member {name : Text} {value : Json}
    (hvalue : Reads (readValue steps limit) (' ' :: text) value mid)
    (hmembers : Reads (readMembers steps limit false (insertMember name value known)) mid members
      rest) :
    Reads (readMember (steps + 1) limit known) (quote name ++ (": " ++ text)) members rest := by
  intro offset
  obtain ⟨before, hname⟩ := reads_quoted name (": " ++ text) offset
  obtain ⟨between, hinner⟩ := hvalue (before + Text.byteSize [':'])
  obtain ⟨behind, hothers⟩ := hmembers between
  refine ⟨behind, ?_⟩
  have hcolon : skipSpace ⟨before, ": " ++ text⟩ = ⟨before, ':' :: ' ' :: text⟩ :=
    skipSpace_cons before (by decide) _
  have hskip : (Cursor.mk before (':' :: ' ' :: text)).skip 1 =
      ⟨before + Text.byteSize [':'], ' ' :: text⟩ := rfl
  rw [readMember, hname]
  simp only [bind, Except.bind, hcolon, hskip, hinner, hothers]

end Member

end Steps

/-! ## Values that are read as they were written -/

mutual

/-- The value is nested less deep than the limit, and its numbers are whole and fit. -/
def Readable (limit : Nat) : Json → Prop
  | .null => True
  | .bool _ => True
  | .num number => number.Fits
  | .str _ => True
  | .array items => 1 < limit ∧ ReadableItems (limit - 1) items
  | .object members => 1 < limit ∧ ReadableMembers (limit - 1) members

/-- All items are readable. -/
def ReadableItems (limit : Nat) : List Json → Prop
  | [] => True
  | item :: items => item.Readable limit ∧ ReadableItems limit items

/-- The values of all members are readable. -/
def ReadableMembers (limit : Nat) : List (Text × Json) → Prop
  | [] => True
  | (_, value) :: members => value.Readable limit ∧ ReadableMembers limit members

end

theorem readableItems_iff {limit : Nat} {items : List Json} :
    ReadableItems limit items ↔ ∀ item ∈ items, item.Readable limit := by
  induction items with
  | nil => simp [ReadableItems]
  | cons item items ih => rw [ReadableItems, ih, List.forall_mem_cons]

theorem readableMembers_iff {limit : Nat} {members : List (Text × Json)} :
    ReadableMembers limit members ↔ ∀ member ∈ members, member.2.Readable limit := by
  induction members with
  | nil => simp [ReadableMembers]
  | cons member members ih => rw [ReadableMembers, ih, List.forall_mem_cons]

/-- No value is written with a character that could end a list. -/
theorem startsItem_writeAt {limit depth : Nat} {value : Json} (h : value.Readable limit)
    (rest : Text) : StartsItem (writeAt depth value ++ rest) := by
  cases value with
  | null => exact ⟨'n', _, rfl, by decide⟩
  | bool value => cases value <;> exact ⟨_, _, rfl, by decide⟩
  | num number =>
      cases number with
      | natural n =>
          obtain ⟨digit, digits, hn⟩ := List.exists_cons_of_ne_nil (Text.isNumeral_ofNat n).nonempty
          have hdigit := (Text.isNumeral_ofNat n).all digit (hn ▸ List.mem_cons_self ..)
          exact ⟨digit, digits ++ rest, by rw [writeAt, Number.text, hn, List.cons_append],
            startsNoItem_of_isDigit hdigit⟩
      | negative n => exact ⟨'-', _, rfl, by decide⟩
      | binary bits => exact h.elim
  | str text => exact ⟨'"', _, rfl, by decide⟩
  | array items => cases items <;> exact ⟨'[', _, rfl, by decide⟩
  | object members => cases members <;> exact ⟨'\x7b', _, rfl, by decide⟩

/-! ## Reading what was written -/

theorem isSpace_newLine (depth : Nat) : ∀ c ∈ newLine depth, isSpace c = true := by
  intro c hc
  rcases List.mem_cons.mp hc with rfl | hspace
  · rfl
  · rw [(List.mem_replicate.mp hspace).2]
    rfl

theorem isSpace_space : ∀ c ∈ [' '], isSpace c = true := List.forall_mem_singleton.mpr rfl

theorem endsNumber_writeItems (depth outer : Nat) (items : List Json) (rest : Text) :
    EndsNumber (writeItems depth items ++ (newLine outer ++ rest)) := by
  cases items <;> rintro c ⟨⟩ <;> decide

theorem endsNumber_writeMembers (depth outer : Nat) (members : List (Text × Json)) (rest : Text) :
    EndsNumber (writeMembers depth members ++ (newLine outer ++ rest)) := by
  cases members <;> rintro c ⟨⟩ <;> decide

-- By induction on the value.  Each open list or object adds its own brackets, names and new lines
-- to the text, and these pay for the steps it takes: the most are those of a member, which leads
-- from the members over the member to its value.
mutual

/-- A value is read from what is written for it, if no number goes on behind it. -/
theorem reads_writeAt (depth : Nat) : ∀ (value : Json) {steps limit : Nat} {rest : Text},
    value.Readable limit → EndsNumber rest → 3 * (writeAt depth value).length ≤ steps →
      Reads (readValue (steps + 1) limit) (writeAt depth value ++ rest) value.canonical rest
  | .null, _, _, rest, _, _, _ => reads_null rest
  | .bool true, _, _, rest, _, _, _ => reads_true rest
  | .bool false, _, _, rest, _, _, _ => reads_false rest
  | .num _, _, _, _, hread, hrest, _ => reads_num hread hrest
  | .str text, _, _, rest, _, _, _ => reads_str text rest
  | .array [], steps, _, rest, hread, _, hsteps => by
      have hbrackets : 3 * 2 ≤ steps := hsteps
      obtain ⟨steps, rfl⟩ : ∃ left, steps = left + 1 := ⟨steps - 1, by omega⟩
      exact reads_array hread.1 (reads_items_end isSpace_nil)
  | .array (item :: items), steps, limit, rest, hread, _, hsteps => by
      have htext : writeAt depth (.array (item :: items)) ++ rest =
          '[' :: (newLine (depth + 1) ++ (writeAt (depth + 1) item ++
            (writeItems (depth + 1) items ++ (newLine depth ++ ']' :: rest)))) := by
        simp [writeAt]
      simp only [writeAt, List.length_append, List.length_cons] at hsteps
      obtain ⟨steps, rfl⟩ : ∃ left, steps = left + 1 + 1 := ⟨steps - 2, by omega⟩
      obtain ⟨hlimit, hitem, hitems⟩ := hread
      rw [htext]
      exact reads_array hlimit (reads_items_first (isSpace_newLine _)
        (startsItem_writeAt hitem _)
        (reads_writeAt (depth + 1) item hitem (endsNumber_writeItems _ _ _ _) (by omega))
        (reads_writeItems (depth + 1) depth items hitems (by omega)))
  | .object [], steps, _, rest, hread, _, hsteps => by
      have hbrackets : 3 * 2 ≤ steps := hsteps
      obtain ⟨steps, rfl⟩ : ∃ left, steps = left + 1 := ⟨steps - 1, by omega⟩
      exact reads_object hread.1 (reads_members_end isSpace_nil)
  | .object ((name, value) :: members), steps, limit, rest, hread, _, hsteps => by
      have htext : writeAt depth (.object ((name, value) :: members)) ++ rest =
          '\x7b' :: (newLine (depth + 1) ++ (quote name ++ (": " ++ (writeAt (depth + 1) value ++
            (writeMembers (depth + 1) members ++ (newLine depth ++ '\x7d' :: rest)))))) := by
        simp [writeAt]
      simp only [writeAt, List.length_append, List.length_cons] at hsteps
      obtain ⟨steps, rfl⟩ : ∃ left, steps = left + 1 + 1 + 1 := ⟨steps - 3, by omega⟩
      obtain ⟨hlimit, hvalue, hmembers⟩ := hread
      rw [htext]
      exact reads_object hlimit (reads_members_first (isSpace_newLine _)
        (reads_member (reads_blanks (.item isSpace_space (startsItem_writeAt hvalue _))
          (reads_writeAt (depth + 1) value hvalue (endsNumber_writeMembers _ _ _ _) (by omega)))
          (reads_writeMembers (depth + 1) depth members hmembers (by omega))))

theorem reads_writeItems (depth outer : Nat) : ∀ (items : List Json) {steps limit : Nat}
    {rest : Text}, ReadableItems limit items → 3 * (writeItems depth items).length ≤ steps →
      Reads (readItems (steps + 1) limit false)
        (writeItems depth items ++ (newLine outer ++ ']' :: rest)) (canonicalItems items) rest
  | [], _, _, _, _, _ => reads_items_end (isSpace_newLine outer)
  | item :: items, steps, limit, rest, ⟨hitem, hitems⟩, hsteps => by
      have htext : writeItems depth (item :: items) ++ (newLine outer ++ ']' :: rest) =
          ',' :: (newLine depth ++ (writeAt depth item ++
            (writeItems depth items ++ (newLine outer ++ ']' :: rest)))) := by
        simp [writeItems]
      simp only [writeItems, List.length_append, List.length_cons] at hsteps
      obtain ⟨steps, rfl⟩ : ∃ left, steps = left + 1 := ⟨steps - 1, by omega⟩
      rw [htext]
      exact reads_items_comma (isSpace_newLine depth) (startsItem_writeAt hitem _)
        (reads_writeAt depth item hitem (endsNumber_writeItems _ _ _ _) (by omega))
        (reads_writeItems depth outer items hitems (by omega))

theorem reads_writeMembers (depth outer : Nat) : ∀ (members : List (Text × Json))
    {steps limit : Nat} {known : List (Text × Json)} {rest : Text},
    ReadableMembers limit members → 3 * (writeMembers depth members).length ≤ steps →
      Reads (readMembers (steps + 1) limit false known)
        (writeMembers depth members ++ (newLine outer ++ '\x7d' :: rest))
        (canonicalMembers known members) rest
  | [], _, _, _, _, _, _ => reads_members_end (isSpace_newLine outer)
  | (name, value) :: members, steps, limit, _, rest, ⟨hvalue, hmembers⟩, hsteps => by
      have htext : writeMembers depth ((name, value) :: members) ++
            (newLine outer ++ '\x7d' :: rest) =
          ',' :: (newLine depth ++ (quote name ++ (": " ++ (writeAt depth value ++
            (writeMembers depth members ++ (newLine outer ++ '\x7d' :: rest)))))) := by
        simp [writeMembers]
      simp only [writeMembers, List.length_append, List.length_cons] at hsteps
      obtain ⟨steps, rfl⟩ : ∃ left, steps = left + 1 + 1 := ⟨steps - 2, by omega⟩
      rw [htext]
      exact reads_members_comma (isSpace_newLine depth)
        (reads_member (reads_blanks (.item isSpace_space (startsItem_writeAt hvalue _))
          (reads_writeAt depth value hvalue (endsNumber_writeMembers _ _ _ _) (by omega)))
          (reads_writeMembers depth outer members hmembers (by omega)))

end

/-- A value that is written and read is the same, with its members in order. -/
theorem read_write {value : Json} (h : value.Readable depthLimit) :
    read value.write = .ok value.canonical := by
  have hsteps : 3 * (writeAt 0 value).length ≤ 3 * (writeAt 0 value).length + 2 := by omega
  have hrest : EndsNumber [] := fun _ hhead => nomatch hhead
  obtain ⟨behind, hvalue⟩ := reads_writeAt 0 value h hrest hsteps 0
  rw [List.append_nil] at hvalue
  have henough : 3 * (writeAt 0 value).length + 3 = 3 * (writeAt 0 value).length + 2 + 1 := rfl
  rw [read, write, henough, hvalue]
  rfl

end LiteralAudit.Json
