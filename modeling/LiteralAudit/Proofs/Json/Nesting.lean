import LiteralAudit.Json.Reader
import LiteralAudit.Proofs.Ends

/-!
# Nesting

A reader of brackets goes through a text character by character.  Outside strings brackets and
braces open and close lists and objects, and in a string they are text (`Stand.after`).  The nesting
of a text is the greatest number of lists and objects that are open at once (`nesting`), be the text
a document or not.

A document is nested less deep than the limit (`nesting_lt_of_read`).  Each step of the reader
passes what it reads, and in between there are no more lists and objects open than a bound allows
(`Passes`).  The bound is the same for all steps: one more is open wherever one less may be opened.
-/

namespace LiteralAudit.Json

/-! ## Brackets -/

/-- Where a reader of brackets is, and how many lists and objects are open there. -/
inductive Stand where
  /-- Outside strings. -/
  | outside (opened : Nat)
  /-- In a string. -/
  | string (opened : Nat)
  /-- In a string, behind a backslash. -/
  | escape (opened : Nat)

namespace Stand

/-- How many lists and objects are open. -/
def opened : Stand → Nat
  | outside opened => opened
  | string opened => opened
  | escape opened => opened

/-- Where the reader is behind a character. -/
def after : Stand → Char → Stand
  | outside opened, c =>
      if c = '"' then string opened
      else if c = '[' || c = '\x7b' then outside (opened + 1)
      else if c = ']' || c = '\x7d' then outside (opened - 1)
      else outside opened
  | string opened, c =>
      if c = '"' then outside opened
      else if c = '\\' then escape opened
      else string opened
  | escape opened, _ => string opened

end Stand

/-- The greatest number of lists and objects that are open at once from a place in a text on. -/
def deepest : Stand → Text → Nat
  | stand, [] => stand.opened
  | stand, c :: text => max stand.opened (deepest (stand.after c) text)

/-- The greatest number of lists and objects that are open at once in a text. -/
def nesting (text : Text) : Nat := deepest (.outside 0) text

/-- The lists and objects that are open already count too. -/
theorem opened_le_deepest (stand : Stand) (text : Text) : stand.opened ≤ deepest stand text := by
  cases text with
  | nil => exact Nat.le_refl _
  | cons c text => exact Nat.le_max_left _ _

theorem deepest_append {stand : Stand} {front : Text} (rest : Text)
    (hfront : ∀ c ∈ front, stand.after c = stand) :
    deepest stand (front ++ rest) = deepest stand rest := by
  induction front with
  | nil => rfl
  | cons c front ih =>
      rw [List.forall_mem_cons] at hfront
      rw [List.cons_append, deepest, hfront.1, ih hfront.2]
      exact Nat.max_eq_right (opened_le_deepest stand rest)

/-! ## Passing -/

/-- Between two places no more than some number of lists and objects are open at once. -/
def Passes (bound : Nat) (stand : Stand) (cursor : Cursor) (later : Stand) (next : Cursor) : Prop :=
  deepest stand cursor.rest ≤ max bound (deepest later next.rest)

/-- A reader that gets through passes what it reads. -/
def Through {α : Type} (bound : Nat) (stand : Stand) (cursor : Cursor) (later : Stand)
    (result : Except Error (α × Cursor)) : Prop :=
  Ends (fun _ => True) (fun read => Passes bound stand cursor later read.2) result

section

variable {α β : Type} {bound : Nat} {stand middle later : Stand} {cursor next stop : Cursor}

theorem Passes.refl : Passes bound stand cursor stand cursor := Nat.le_max_right _ _

theorem Passes.trans (h : Passes bound stand cursor middle next)
    (hlater : Passes bound middle next later stop) : Passes bound stand cursor later stop := by
  rw [Passes] at *
  omega

/-- A character that closes nothing is passed, and one that does if not too many are open. -/
theorem passes_char {c : Char} {rest : Text} (hrest : cursor.rest = c :: rest)
    (hopened : stand.opened ≤ max bound (stand.after c).opened) :
    Passes bound stand cursor (stand.after c) (cursor.skip 1) := by
  have hskip : (cursor.skip 1).rest = rest := by rw [Cursor.skip, hrest]; rfl
  have hle := opened_le_deepest (stand.after c) rest
  rw [Passes, hskip, hrest, deepest]
  omega

theorem passes_skip {count : Nat} (hskip : ∀ c ∈ cursor.rest.take count, stand.after c = stand) :
    Passes bound stand cursor stand (cursor.skip count) := by
  have hsame := deepest_append (cursor.rest.drop count) hskip
  rw [List.take_append_drop] at hsame
  rw [Passes, hsame]
  exact Nat.le_max_right _ _

theorem passes_takeWhile {p : Char → Bool} (hskip : ∀ c, p c = true → stand.after c = stand) :
    Passes bound stand cursor stand (cursor.skip (cursor.rest.takeWhile p).length) := by
  refine passes_skip fun c hc => hskip c ?_
  rw [← List.prefix_iff_eq_take.mp (List.takeWhile_prefix p)] at hc
  exact List.all_eq_true.mp List.all_takeWhile c hc

theorem passes_peek {c : Char} (hpeek : cursor.peek = some c) (hc : stand.after c = stand) :
    Passes bound stand cursor stand (cursor.skip 1) := by
  obtain ⟨rest, hrest⟩ := List.head?_eq_some_iff.mp hpeek
  have hpass := @passes_char bound stand cursor c rest hrest
  rw [hc] at hpass
  exact hpass (Nat.le_max_right _ _)

namespace Through

theorem after {result : Except Error (α × Cursor)} (h : Passes bound stand cursor middle next)
    (hresult : Through bound middle next later result) :
    Through bound stand cursor later result :=
  Ends.imp hresult fun _ hread => h.trans hread

theorem bind {first : Except Error (α × Cursor)} {reader : α × Cursor → Except Error (β × Cursor)}
    (hfirst : Through bound stand cursor middle first)
    (hlater : ∀ value next, Through bound middle next later (reader (value, next))) :
    Through bound stand cursor later (first >>= reader) :=
  Ends.bind hfirst fun read hread => after hread (hlater read.1 read.2)

theorem ite {p : Prop} [Decidable p] {yes no : Except Error (α × Cursor)}
    (hyes : p → Through bound stand cursor later yes) (hno : Through bound stand cursor later no) :
    Through bound stand cursor later (if p then yes else no) :=
  Ends.ite hyes hno

end Through

end

/-! ## Names and numbers -/

section

variable {bound opened : Nat} {cursor : Cursor}

/-- The characters that matter outside strings. -/
def isMark (c : Char) : Bool := c = '"' || c = '[' || c = ']' || c = '\x7b' || c = '\x7d'

theorem after_outside {c : Char} (hc : isMark c = false) :
    (Stand.outside opened).after c = .outside opened := by
  simp only [isMark, Bool.or_eq_false_iff, decide_eq_false_iff_not] at hc
  simp [Stand.after, hc]

theorem isMark_of_isSpace {c : Char} (hc : isSpace c = true) : isMark c = false := by
  simp only [isSpace, Bool.or_eq_true, decide_eq_true_eq] at hc
  rcases hc with ((rfl | rfl) | rfl) | rfl <;> rfl

theorem isMark_of_isDigit {c : Char} (hc : Text.isDigit c = true) : isMark c = false := by
  by_contra h
  simp only [isMark, Bool.not_eq_false, Bool.or_eq_true, decide_eq_true_eq] at h
  rcases h with (((rfl | rfl) | rfl) | rfl) | rfl <;> cases hc

theorem passes_skipSpace :
    Passes bound (.outside opened) cursor (.outside opened) (skipSpace cursor) :=
  passes_takeWhile fun _ hc => after_outside (isMark_of_isSpace hc)

theorem passes_digits : Passes bound (.outside opened) cursor (.outside opened)
    (cursor.skip (cursor.rest.takeWhile Text.isDigit).length) :=
  passes_takeWhile fun _ hc => after_outside (isMark_of_isDigit hc)

theorem ends_expectName {name : Text} (hname : (name.all fun c => !isMark c) = true) :
    Ends (fun _ => True) (Passes bound (.outside opened) cursor (.outside opened))
      (expectName name cursor) := by
  induction name generalizing cursor with
  | nil => exact .refl
  | cons c name ih =>
      rw [List.all_cons, Bool.and_eq_true, Bool.not_eq_true'] at hname
      rw [expectName]
      split
      next => trivial
      next d rest hrest =>
        refine .ite (fun hsame => ?_) trivial
        subst hsame
        refine (ih hname.2).imp fun next hnext => ?_
        exact (passes_peek (congrArg List.head? hrest) (after_outside hname.1)).trans hnext

/-- A value that is told by its name is passed. -/
theorem through_name {first : Char} {rest name : Text} (value : Json)
    (hrest : cursor.rest = first :: rest)
    (hname : ((first :: name).all fun c => !isMark c) = true) :
    Through bound (.outside opened) cursor (.outside opened) (do
      let cursor ← expectName name (cursor.skip 1)
      .ok (value, cursor)) := by
  rw [List.all_cons, Bool.and_eq_true, Bool.not_eq_true'] at hname
  have hfirst : Passes bound (.outside opened) cursor (.outside opened) (cursor.skip 1) :=
    passes_peek (congrArg List.head? hrest) (after_outside hname.1)
  exact Ends.bind (ends_expectName hname.2) fun next hnext => hfirst.trans hnext

theorem through_numberOfParts (isNegative : Bool) (significand : Nat) (exponent : Int) :
    Through bound (.outside opened) cursor (.outside opened)
      (numberOfParts isNegative significand exponent cursor) := by
  rw [numberOfParts]
  split
  next => exact Passes.refl
  next => trivial

theorem through_readExponent (isNegative : Bool) (significand : Nat) (start : Int)
    (hpeek : cursor.peek = some 'e' ∨ cursor.peek = some 'E') :
    Through bound (.outside opened) cursor (.outside opened)
      (readExponent isNegative significand start cursor) := by
  have hmark : Passes bound (.outside opened) cursor (.outside opened) (cursor.skip 1) := by
    rcases hpeek with hpeek | hpeek <;> exact passes_peek hpeek rfl
  rw [readExponent]
  refine .after hmark ?_
  generalize cursor.skip 1 = cursor
  obtain ⟨next, hnext, hsign⟩ : ∃ next,
      (if cursor.peek = some '-' || cursor.peek = some '+' then cursor.skip 1 else cursor) = next ∧
        Passes bound (.outside opened) cursor (.outside opened) next := by
    refine ⟨_, rfl, ?_⟩
    split
    next h =>
      rw [Bool.or_eq_true, decide_eq_true_eq, decide_eq_true_eq] at h
      rcases h with h | h <;> exact passes_peek h rfl
    next => exact .refl
  dsimp only
  rw [hnext]
  refine .after hsign ?_
  split
  next => trivial
  next =>
    refine .ite (fun _ => ?_) trivial
    have hdigits : Passes bound (.outside opened) next (.outside opened)
        (next.skip (next.rest.takeWhile Text.isDigit).length) :=
      passes_digits
    split
    next => exact .ite (fun _ => trivial) hdigits
    next => exact .after hdigits (through_numberOfParts ..)

theorem through_readScaled (isNegative : Bool) (significand : Nat) (exponent : Int) :
    Through bound (.outside opened) cursor (.outside opened)
      (readScaled isNegative significand exponent cursor) := by
  rw [readScaled]
  refine .ite (fun h => ?_) (through_numberOfParts ..)
  rw [Bool.or_eq_true, decide_eq_true_eq, decide_eq_true_eq] at h
  exact through_readExponent _ _ _ h

theorem through_readFraction (isNegative : Bool) (significand : Nat) (exponent : Int)
    (hpeek : cursor.peek = some '.') :
    Through bound (.outside opened) cursor (.outside opened)
      (readFraction isNegative significand exponent cursor) := by
  rw [readFraction]
  refine .after (passes_peek hpeek rfl) ?_
  refine .ite (fun _ => trivial) ?_
  exact .after passes_digits (through_readScaled ..)

theorem through_readNumberFrom (isNegative : Bool) (significand leftOver : Nat) :
    Through bound (.outside opened) cursor (.outside opened)
      (readNumberFrom isNegative significand leftOver cursor) := by
  rw [readNumberFrom]
  refine .ite (fun h => through_readFraction _ _ _ h) (.ite (fun h => ?_) ?_)
  · rw [Bool.or_eq_true, decide_eq_true_eq, decide_eq_true_eq] at h
    exact through_readExponent _ _ _ h
  · refine .ite (fun _ => through_numberOfParts ..) (.ite (fun _ => Passes.refl) ?_)
    exact .ite (fun _ => Passes.refl) Passes.refl

theorem through_readNumber (isNegative : Bool) :
    Through bound (.outside opened) cursor (.outside opened) (readNumber isNegative cursor) := by
  rw [readNumber]
  split
  next => trivial
  next rest hrest =>
    refine .ite (fun _ => trivial) ?_
    exact .after (passes_peek (congrArg List.head? hrest) rfl) (through_readNumberFrom ..)
  next =>
    refine .ite (fun _ => ?_) trivial
    exact .after passes_digits (through_readNumberFrom ..)

/-! ## Strings -/

theorem after_string {c : Char} (hquote : c ≠ '"') (hslash : c ≠ '\\') :
    (Stand.string opened).after c = .string opened := by
  rw [Stand.after, if_neg hquote, if_neg hslash]

/-- An escaped character does not end the string, not even if it is a quote. -/
theorem passes_escape {c : Char} {rest : Text} (hrest : cursor.rest = '\\' :: c :: rest) :
    Passes bound (.string opened) cursor (.string opened) (cursor.skip 2) := by
  have hskip : (cursor.skip 2).rest = rest := by rw [Cursor.skip, hrest]; rfl
  have hle : opened ≤ deepest (.string opened) rest := opened_le_deepest (.string opened) rest
  rw [Passes, hskip, hrest]
  show max opened (max opened (deepest (.string opened) rest)) ≤ _
  omega

theorem through_readUnit :
    Through bound (.string opened) cursor (.string opened) (readUnit cursor) := by
  rw [readUnit]
  refine .ite (fun _ => trivial) (.ite (fun h => ?_) trivial)
  refine passes_skip fun c hc => after_string ?_ ?_
  all_goals
    rintro rfl
    cases List.all_eq_true.mp h _ hc

theorem through_readCodePoint :
    Through bound (.string opened) cursor (.string opened) (readCodePoint cursor) := by
  rw [readCodePoint]
  refine .bind through_readUnit fun high next => ?_
  dsimp only
  refine .ite (fun _ => trivial) (.ite (fun _ => Passes.refl) ?_)
  split
  next => trivial
  next rest hrest =>
    split
    next => trivial
    next =>
      refine .after (passes_escape hrest) (.bind through_readUnit fun low last => ?_)
      exact .ite (fun _ => trivial) Passes.refl
    next => trivial
  next => trivial

/-- A string is left behind its closing quote, and no bracket in it counts. -/
theorem through_readString (steps : Nat) :
    Through bound (.string opened) cursor (.outside opened) (readString steps cursor) := by
  induction steps generalizing cursor with
  | zero => trivial
  | succ steps ih =>
      rw [readString]
      split
      next => trivial
      next rest hrest => exact passes_char hrest (Nat.le_max_right _ _)
      next rest hrest =>
        split
        next => trivial
        next =>
          refine .after (passes_escape hrest) ?_
          refine .bind through_readCodePoint fun c next => ?_
          exact .bind ih fun text last => Passes.refl
        next =>
          split
          next => exact .after (passes_escape hrest) (.bind ih fun text last => Passes.refl)
          next => trivial
      next c rest hquote hslash hrest =>
        have hchar : Passes bound (.string opened) cursor (.string opened) (cursor.skip 1) :=
          passes_peek (congrArg List.head? hrest) (after_string hquote hslash)
        exact .ite (fun _ => trivial) (.after hchar (.bind ih fun text last => Passes.refl))

end

/-! ## Values -/

/-- No more lists and objects may be opened than the bound allows. -/
structure Room (bound opened depth : Nat) : Prop where
  /-- The reader counts down to one. -/
  pos : 1 ≤ depth
  /-- Those that are open and those that may be opened are no more than the bound. -/
  le : opened + depth ≤ bound + 1

/-- The readers of values, lists, objects and members pass what they read. -/
structure Shallow (steps : Nat) : Prop where
  value {bound opened depth : Nat} (cursor : Cursor) : Room bound opened depth →
    Through bound (.outside opened) cursor (.outside opened) (readValue steps depth cursor)
  items {bound opened depth : Nat} (isFirst : Bool) (cursor : Cursor) : Room bound opened depth →
    Through bound (.outside opened) cursor (.outside (opened - 1))
      (readItems steps depth isFirst cursor)
  members {bound opened depth : Nat} (isFirst : Bool) (members : List (Text × Json))
    (cursor : Cursor) : Room bound opened depth →
    Through bound (.outside opened) cursor (.outside (opened - 1))
      (readMembers steps depth isFirst members cursor)
  member {bound opened depth : Nat} (members : List (Text × Json)) (cursor : Cursor) :
    cursor.peek = some '"' → Room bound opened depth →
    Through bound (.outside opened) cursor (.outside (opened - 1))
      (readMember steps depth members cursor)

theorem shallow_zero : Shallow 0 := by
  constructor
  case value => intros; rw [readValue]; trivial
  case items => intros; rw [readItems]; trivial
  case members => intros; rw [readMembers]; trivial
  case member => intros; rw [readMember]; trivial

section

variable {bound opened depth steps : Nat} {cursor : Cursor}

/-- One more is open, and one less may be opened. -/
theorem Room.inner (h : Room bound opened depth) (hdepth : ¬depth ≤ 1) :
    Room bound (opened + 1) (depth - 1) := by
  obtain ⟨-, hle⟩ := h
  constructor <;> omega

theorem Room.passes_close (h : Room bound opened depth) {c : Char} {rest : Text}
    (hrest : cursor.rest = c :: rest) (hc : c = ']' ∨ c = '\x7d') :
    Passes bound (.outside opened) cursor (.outside (opened - 1)) (cursor.skip 1) := by
  obtain ⟨hpos, hle⟩ := h
  have hopened : opened ≤ max bound (opened - 1) := by omega
  rcases hc with rfl | rfl <;> exact passes_char hrest hopened

theorem passes_open {c : Char} {rest : Text} (hrest : cursor.rest = c :: rest)
    (hc : c = '[' ∨ c = '\x7b') :
    Passes bound (.outside opened) cursor (.outside (opened + 1)) (cursor.skip 1) := by
  have hopened : opened ≤ max bound (opened + 1) := by omega
  rcases hc with rfl | rfl <;> exact passes_char hrest hopened

theorem passes_quote (hpeek : cursor.peek = some '"') :
    Passes bound (.outside opened) cursor (.string opened) (cursor.skip 1) := by
  obtain ⟨rest, hrest⟩ := List.head?_eq_some_iff.mp hpeek
  exact passes_char hrest (Nat.le_max_right _ _)

variable (ih : Shallow steps)

include ih

/-- A value leaves as many lists and objects open as there were. -/
theorem through_readValue (hroom : Room bound opened depth) :
    Through bound (.outside opened) cursor (.outside opened)
      (readValue (steps + 1) depth cursor) := by
  rw [readValue]
  refine .after passes_skipSpace ?_
  generalize skipSpace cursor = cursor
  dsimp only
  split
  next => trivial
  next rest hrest => exact through_name _ hrest rfl
  next rest hrest => exact through_name _ hrest rfl
  next rest hrest => exact through_name _ hrest rfl
  next rest hrest =>
    refine .after (passes_peek (congrArg List.head? hrest) rfl) ?_
    exact .bind (through_readNumber _) fun number next => Passes.refl
  next rest hrest =>
    refine .after (passes_quote (congrArg List.head? hrest)) ?_
    exact .bind (through_readString _) fun text next => Passes.refl
  next rest hrest =>
    split
    next => trivial
    next hdepth =>
      refine .after (passes_open hrest (.inl rfl)) ?_
      exact .bind (ih.items _ _ (hroom.inner hdepth)) fun items next => Passes.refl
  next rest hrest =>
    split
    next => trivial
    next hdepth =>
      refine .after (passes_open hrest (.inr rfl)) ?_
      exact .bind (ih.members _ _ _ (hroom.inner hdepth)) fun members next => Passes.refl
  next =>
    refine .ite (fun _ => ?_) trivial
    exact .bind (through_readNumber _) fun number next => Passes.refl

/-- The items of a list end with one list less open. -/
theorem through_readItems (isFirst : Bool) (hroom : Room bound opened depth) :
    Through bound (.outside opened) cursor (.outside (opened - 1))
      (readItems (steps + 1) depth isFirst cursor) := by
  have hitem : ∀ cursor, Through bound (.outside opened) cursor (.outside (opened - 1)) (do
      let item ← readValue steps depth cursor
      let items ← readItems steps depth false item.2
      .ok (item.1 :: items.1, items.2)) := by
    intro cursor
    refine .bind (ih.value _ hroom) fun item next => ?_
    exact .bind (ih.items _ _ hroom) fun items last => Passes.refl
  rw [readItems]
  refine .after passes_skipSpace ?_
  generalize skipSpace cursor = cursor
  dsimp only
  split
  next => trivial
  next rest hrest => exact hroom.passes_close hrest (.inl rfl)
  next c rest _ hrest =>
    refine .ite (fun _ => hitem cursor) ?_
    split
    next hcomma =>
      subst hcomma
      refine .after (passes_peek (congrArg List.head? hrest) rfl) (.after passes_skipSpace ?_)
      generalize skipSpace (cursor.skip 1) = cursor
      split
      next => trivial
      next => trivial
      next => exact hitem cursor
    next => trivial

/-- The members of an object end with one object less open. -/
theorem through_readMembers (isFirst : Bool) (members : List (Text × Json))
    (hroom : Room bound opened depth) :
    Through bound (.outside opened) cursor (.outside (opened - 1))
      (readMembers (steps + 1) depth isFirst members cursor) := by
  rw [readMembers]
  refine .after passes_skipSpace ?_
  generalize skipSpace cursor = cursor
  dsimp only
  split
  next => trivial
  next rest hrest => exact hroom.passes_close hrest (.inr rfl)
  next c rest _ hrest =>
    refine .ite (fun _ => .ite (fun hquote => ?_) trivial) ?_
    · subst hquote
      exact ih.member _ _ (congrArg List.head? hrest) hroom
    · split
      next hcomma =>
        subst hcomma
        refine .after (passes_peek (congrArg List.head? hrest) rfl) (.after passes_skipSpace ?_)
        generalize skipSpace (cursor.skip 1) = cursor
        split
        next => trivial
        next rest hrest => exact ih.member _ _ (congrArg List.head? hrest) hroom
        next => trivial
        next => trivial
      next => trivial

theorem through_readMember (members : List (Text × Json)) (hquote : cursor.peek = some '"')
    (hroom : Room bound opened depth) :
    Through bound (.outside opened) cursor (.outside (opened - 1))
      (readMember (steps + 1) depth members cursor) := by
  rw [readMember]
  refine .after (passes_quote hquote) (.bind (through_readString _) fun name next => ?_)
  dsimp only
  refine .after passes_skipSpace ?_
  generalize skipSpace next = behind
  split
  next => trivial
  next rest hrest =>
    refine .after (passes_peek (congrArg List.head? hrest) rfl) ?_
    exact .bind (ih.value _ hroom) fun value last => ih.members _ _ _ hroom
  next => trivial

end

/-- The readers call each other, so all of them are in one induction. -/
theorem shallow (steps : Nat) : Shallow steps := by
  induction steps with
  | zero => exact shallow_zero
  | succ steps ih =>
      exact ⟨fun _ => through_readValue ih, fun isFirst _ => through_readItems ih isFirst,
        fun isFirst members _ => through_readMembers ih isFirst members,
        fun members _ => through_readMember ih members⟩

/-- A document is nested less deep than the limit. -/
theorem nesting_lt_of_read {text : Text} {document : Json} (h : read text = .ok document) :
    nesting text < depthLimit := by
  rw [read] at h
  obtain ⟨⟨value, cursor⟩, hvalue, hend⟩ := bind_eq_ok.mp h
  -- Nothing is open in front of a document, so all that may be opened is the bound.
  have hroom : Room (depthLimit - 1) 0 depthLimit := by constructor <;> decide
  have hpassed := (shallow (3 * text.length + 3)).value ⟨0, text⟩ hroom
  rw [hvalue] at hpassed
  have hrest : (skipSpace cursor).rest = [] := by
    dsimp only at hend
    split at hend
    next hrest => exact hrest
    next => cases hend
  have hpassed : Passes (depthLimit - 1) (.outside 0) ⟨0, text⟩ (.outside 0) (skipSpace cursor) :=
    Passes.trans hpassed passes_skipSpace
  rw [Passes, hrest] at hpassed
  exact Nat.lt_succ_of_le hpassed

example : nesting "[[], \"[[\"]" = 2 := by decide

end LiteralAudit.Json
