import LiteralAudit.Text.Basic
import Mathlib.Data.List.Basic
import Mathlib.Data.List.Sort
import Mathlib.Data.List.TakeWhile

/-!
# Parts of a text

A *part* is a piece of a text with what stands before it and what stands behind it.  Its span is
given by the bytes of the two, so spans of parts always fall between characters: cutting the text
at one gives the part back (`slice?_span`).

`cuts` lists the ways to cut a text in two, from left to right.  What is looked for in a text is
described by asking at every cut whether something begins there, without regard to what was found
further left.

`Enumerates` says of a list of parts that it has all those with some property, each once and from
left to right, which leaves no choice (`Enumerates.unique`).  `maximalRuns` enumerates the runs of
characters of a kind that cannot be made longer (`enumerates_maximalRuns`).
-/

namespace LiteralAudit.Text

/-! ## Beginnings -/

theorem dropStart?_eq_some : ∀ {start text rest : Text},
    dropStart? start text = some rest ↔ text = start ++ rest
  | [], text, rest => by simp [dropStart?]
  | _ :: _, [], rest => by simp [dropStart?]
  | a :: start, c :: text, rest => by
      rw [dropStart?]
      split_ifs with h
      · subst h
        rw [dropStart?_eq_some, List.cons_append, List.cons_inj_right]
      · simp [Ne.symm h]

theorem startsWith_iff {start text : Text} :
    startsWith start text = true ↔ ∃ rest, text = start ++ rest := by
  rw [startsWith, Option.isSome_iff_exists]
  simp only [dropStart?_eq_some]

/-! ## Offsets -/

@[simp] theorem byteSize_nil : byteSize [] = 0 := rfl

@[simp] theorem byteSize_append : ∀ a b : Text, byteSize (a ++ b) = byteSize a + byteSize b
  | [], b => by simp
  | c :: a, b => by
      rw [List.cons_append, byteSize, byteSize, byteSize_append a b, Nat.add_assoc]

theorem byteSize_singleton (c : Char) : byteSize [c] = c.utf8Size := rfl

theorem byteSize_pos {text : Text} (h : text ≠ []) : 0 < byteSize text := by
  cases text with
  | nil => exact absurd rfl h
  | cons c text =>
      have hc := c.utf8Size_pos
      rw [byteSize]
      omega

/-- Cutting a text behind a beginning of it. -/
theorem splitAt?_append : ∀ a b : Text, splitAt? (a ++ b) (byteSize a) = some (a, b)
  | [], b => by cases b <;> rfl
  | c :: a, b => by
      obtain ⟨n, hn⟩ := Nat.exists_eq_add_of_lt (byteSize_pos (List.cons_ne_nil c a))
      rw [Nat.zero_add] at hn
      have hfits : c.utf8Size ≤ n + 1 := by
        rw [← hn, byteSize]
        exact Nat.le_add_right ..
      have hleft : n + 1 - c.utf8Size = byteSize a := by
        rw [← hn, byteSize]
        exact Nat.add_sub_cancel_left ..
      rw [List.cons_append, hn, splitAt?, if_pos hfits, hleft, splitAt?_append a b]
      rfl

/-- A text is cut at the offsets behind its beginnings and nowhere else. -/
theorem splitAt?_eq_some {text : Text} {offset : Nat} {a b : Text} :
    splitAt? text offset = some (a, b) ↔ text = a ++ b ∧ byteSize a = offset := by
  constructor
  · intro h
    fun_induction splitAt? text offset generalizing a b with
    | case1 text =>
        cases h
        exact ⟨rfl, rfl⟩
    | case2 => cases h
    | case3 c text offset hfits ih =>
        obtain ⟨⟨start, rest⟩, hsplit, hparts⟩ := Option.map_eq_some_iff.mp h
        cases hparts
        obtain ⟨rfl, hsize⟩ := ih hsplit
        refine ⟨rfl, ?_⟩
        rw [byteSize, hsize]
        omega
    | case4 => cases h
  · rintro ⟨rfl, rfl⟩
    exact splitAt?_append a b

/-! ## Parts -/

/-- A piece of a text and what is around it. -/
structure Part where
  /-- What stands before the piece. -/
  before : Text
  /-- The piece. -/
  piece : Text
  /-- What stands behind the piece. -/
  after : Text
  deriving DecidableEq, Repr

namespace Part

/-- The text that the part is of. -/
def whole (part : Part) : Text := part.before ++ (part.piece ++ part.after)

/-- The bytes of a piece that stands behind `before`. -/
def spanOf (before piece : Text) : Span := ⟨byteSize before, byteSize (before ++ piece)⟩

/-- Where the piece is. -/
def span (part : Part) : Span := spanOf part.before part.piece

theorem splitAt?_start (part : Part) :
    splitAt? part.whole part.span.start = some (part.before, part.piece ++ part.after) :=
  splitAt?_append ..

theorem splitAt?_stop (part : Part) :
    splitAt? part.whole part.span.stop = some (part.before ++ part.piece, part.after) := by
  rw [whole, ← List.append_assoc]
  exact splitAt?_append ..

/-- The slice at the span of a part is its piece. -/
theorem slice?_span (part : Part) : slice? part.whole part.span = some part.piece := by
  rw [slice?, splitAt?_stop]
  show (splitAt? (part.before ++ part.piece) (byteSize part.before)).map Prod.snd = _
  rw [splitAt?_append]
  rfl

/-- The piece consists of characters of a kind, and no character of that kind is next to it. -/
structure IsMaximalRun (kind : Char → Bool) (part : Part) : Prop where
  /-- The piece is not empty. -/
  nonempty : part.piece ≠ []
  /-- All its characters are of the kind. -/
  all : ∀ c ∈ part.piece, kind c = true
  /-- The character before it is not. -/
  before : ∀ c, part.before.getLast? = some c → kind c = false
  /-- The character behind it is not. -/
  after : ∀ c, part.after.head? = some c → kind c = false

end Part

/-! ## Cuts -/

/-- The ways to cut a text in two, from left to right, with `before` in front of each. -/
def cutsBehind (before : Text) : Text → List (Text × Text)
  | [] => [(before, [])]
  | c :: after => (before, c :: after) :: cutsBehind (before ++ [c]) after

/-- The ways to cut a text in two, from left to right. -/
def cuts (text : Text) : List (Text × Text) := cutsBehind [] text

theorem mem_cutsBehind {a b : Text} : ∀ {before text : Text},
    (a, b) ∈ cutsBehind before text ↔ ∃ start, a = before ++ start ∧ text = start ++ b
  | before, [] => by
      rw [cutsBehind, List.mem_singleton, Prod.mk.injEq]
      constructor
      · rintro ⟨rfl, rfl⟩
        exact ⟨[], by simp⟩
      · rintro ⟨start, rfl, h⟩
        obtain ⟨rfl, rfl⟩ := List.append_eq_nil_iff.mp h.symm
        exact ⟨List.append_nil _, rfl⟩
  | before, c :: after => by
      rw [cutsBehind, List.mem_cons, mem_cutsBehind, Prod.mk.injEq]
      constructor
      · rintro (⟨rfl, rfl⟩ | ⟨start, rfl, rfl⟩)
        · exact ⟨[], by simp⟩
        · exact ⟨c :: start, by simp⟩
      · rintro ⟨start, rfl, h⟩
        cases start with
        | nil => exact Or.inl ⟨List.append_nil _, h.symm⟩
        | cons d start =>
            obtain ⟨rfl, rfl⟩ := List.cons.inj h
            exact Or.inr ⟨start, by simp⟩

/-- The cuts of a text are all the ways to take it apart in two. -/
theorem mem_cuts {text a b : Text} : (a, b) ∈ cuts text ↔ text = a ++ b := by
  rw [cuts, mem_cutsBehind]
  constructor
  · rintro ⟨start, rfl, rfl⟩
    rfl
  · rintro rfl
    exact ⟨a, rfl, rfl⟩

/-- The cuts are ordered by how much stands in front. -/
theorem cutsBehind_ordered : ∀ before text : Text,
    (cutsBehind before text).Pairwise fun x y => x.1.length < y.1.length
  | before, [] => List.pairwise_singleton ..
  | before, c :: after => by
      rw [cutsBehind]
      refine List.pairwise_cons.mpr ⟨?_, cutsBehind_ordered (before ++ [c]) after⟩
      rintro ⟨a, b⟩ hmem
      obtain ⟨start, rfl, -⟩ := mem_cutsBehind.mp hmem
      simp

theorem cuts_ordered (text : Text) :
    (cuts text).Pairwise fun x y => x.1.length < y.1.length :=
  cutsBehind_ordered [] text

/-- Cuts inside a piece count for nothing if a test refuses all of them. -/
theorem filterMap_cutsBehind_append {β : Type} {test : Text × Text → Option β} :
    ∀ {before start rest : Text},
      (∀ left right, start = left ++ right → right ≠ [] →
        test (before ++ left, right ++ rest) = none) →
      (cutsBehind before (start ++ rest)).filterMap test =
        (cutsBehind (before ++ start) rest).filterMap test
  | before, [], rest, _ => by simp
  | before, c :: start, rest, h => by
      have hfirst : test (before, c :: (start ++ rest)) = none := by
        simpa using h [] (c :: start) rfl (List.cons_ne_nil _ _)
      have hlater : ∀ left right, start = left ++ right → right ≠ [] →
          test (before ++ [c] ++ left, right ++ rest) = none := by
        intro left right hstart hright
        simpa using h (c :: left) right (by rw [hstart, List.cons_append]) hright
      rw [List.cons_append, cutsBehind, List.filterMap_cons_none hfirst,
        filterMap_cutsBehind_append hlater, List.append_assoc, List.singleton_append]

/-- A word occurs in a text exactly if it is a part of it. -/
theorem occursIn_iff {word : Text} : ∀ {text : Text},
    occursIn word text = true ↔ ∃ part : Part, part.whole = text ∧ part.piece = word
  | [] => by
      rw [occursIn, List.isEmpty_iff]
      constructor
      · rintro rfl
        exact ⟨⟨[], [], []⟩, rfl, rfl⟩
      · rintro ⟨part, hwhole, rfl⟩
        exact (List.append_eq_nil_iff.mp (List.append_eq_nil_iff.mp hwhole).2).1
  | c :: text => by
      rw [occursIn, Bool.or_eq_true, startsWith_iff, occursIn_iff]
      constructor
      · rintro (⟨rest, hrest⟩ | ⟨part, hwhole, rfl⟩)
        · exact ⟨⟨[], word, rest⟩, hrest.symm, rfl⟩
        · exact ⟨⟨c :: part.before, part.piece, part.after⟩, congrArg (c :: ·) hwhole, rfl⟩
      · rintro ⟨⟨before, word, after⟩, hwhole, rfl⟩
        cases before with
        | nil => exact Or.inl ⟨after, hwhole.symm⟩
        | cons d before => exact Or.inr ⟨⟨before, word, after⟩, (List.cons.inj hwhole).2, rfl⟩

/-! ## Enumerations -/

/-- A list of the parts of a text with a property, each of them once and from left to right. -/
structure Enumerates (text : Text) (property : Part → Prop) (parts : List Part) : Prop where
  /-- The list has the parts with the property and no others. -/
  mem : ∀ part, part ∈ parts ↔ part.whole = text ∧ property part
  /-- Less stands before an earlier part than before a later one. -/
  ordered : parts.Pairwise fun a b => a.before.length < b.before.length

namespace Enumerates

variable {text : Text} {property : Part → Prop} {parts : List Part}

/-- There is only one such list. -/
theorem unique {others : List Part} (h : Enumerates text property parts)
    (hothers : Enumerates text property others) : parts = others := by
  have : Std.Irrefl fun a b : Part => a.before.length < b.before.length :=
    ⟨fun part => lt_irrefl part.before.length⟩
  have : Std.Antisymm fun a b : Part => a.before.length < b.before.length :=
    ⟨fun _ _ hlt hgt => absurd hgt hlt.asymm⟩
  refine h.ordered.eq_of_mem_iff hothers.ordered ?_
  intro part
  rw [h.mem, hothers.mem]

theorem congr {other : Part → Prop} (h : Enumerates text property parts)
    (hsame : ∀ part, property part ↔ other part) : Enumerates text other parts := by
  refine ⟨?_, h.ordered⟩
  intro part
  rw [h.mem, hsame]

theorem filter (h : Enumerates text property parts) (test : Part → Bool) :
    Enumerates text (fun part => property part ∧ test part = true) (parts.filter test) := by
  refine ⟨?_, h.ordered.filter test⟩
  intro part
  rw [List.mem_filter, h.mem, and_assoc]

end Enumerates

/-- Parts that are looked for at every cut are found from left to right. -/
theorem enumerates_cuts {test : Text × Text → Option Part} {property : Part → Prop} (text : Text)
    (h : ∀ before after part, test (before, after) = some part ↔
      part.before = before ∧ after = part.piece ++ part.after ∧ property part) :
    Enumerates text property ((cuts text).filterMap test) := by
  constructor
  case mem =>
    intro part
    rw [List.mem_filterMap]
    constructor
    · rintro ⟨⟨before, after⟩, hcut, htest⟩
      obtain ⟨rfl, rfl, hproperty⟩ := (h ..).mp htest
      exact ⟨(mem_cuts.mp hcut).symm, hproperty⟩
    · rintro ⟨rfl, hproperty⟩
      exact ⟨(part.before, part.piece ++ part.after), mem_cuts.mpr rfl,
        (h ..).mpr ⟨rfl, rfl, hproperty⟩⟩
  case ordered =>
    rw [List.pairwise_filterMap]
    refine (cuts_ordered text).imp ?_
    intro x y hxy a ha b hb
    obtain ⟨hax, -⟩ := (h ..).mp ha
    obtain ⟨hby, -⟩ := (h ..).mp hb
    rw [hax, hby]
    exact hxy

/-- A test asked at every cut finds what has a property, if there is at most one such thing where
a part begins and the test finds it there. -/
theorem exists_enumerates {β γ : Type} (test : Text × Text → Option β) (part : γ → Part)
    (view : γ → β) (property : γ → Prop) (text : Text)
    (hsound : ∀ before after b, test (before, after) = some b → ∃ c, property c ∧
      (part c).before = before ∧ after = (part c).piece ++ (part c).after ∧ view c = b)
    (hfound : ∀ c, property c → test ((part c).before, (part c).piece ++ (part c).after) ≠ none)
    (hunique : ∀ c d, property c → property d → (part c).before = (part d).before →
      (part c).whole = (part d).whole → c = d) :
    ∃ found : List γ, Enumerates text (fun piece => ∃ c, property c ∧ part c = piece)
        (found.map part) ∧
      (∀ c ∈ found, property c) ∧ (cuts text).filterMap test = found.map view := by
  have hat : ∀ cut, ∃ c? : Option γ, test cut = c?.map view ∧ ∀ c, c? = some c ↔
      property c ∧ (part c).before = cut.1 ∧ cut.2 = (part c).piece ++ (part c).after := by
    rintro ⟨before, after⟩
    cases htest : test (before, after) with
    | none =>
        refine ⟨none, rfl, ?_⟩
        intro c
        refine ⟨nofun, ?_⟩
        rintro ⟨hproperty, rfl, rfl⟩
        exact absurd htest (hfound c hproperty)
    | some b =>
        obtain ⟨c, hproperty, rfl, rfl, rfl⟩ := hsound before after b htest
        refine ⟨some c, rfl, ?_⟩
        intro d
        constructor
        · rintro h
          cases h
          exact ⟨hproperty, rfl, rfl⟩
        · rintro ⟨hproperty', hbefore, hafter⟩
          have hwhole : (part c).whole = (part d).whole := by
            rw [Part.whole, Part.whole, hbefore, ← hafter]
          rw [hunique c d hproperty hproperty' hbefore.symm hwhole]
  choose find hfind hiff using hat
  refine ⟨(cuts text).filterMap find, ?_, ?_, ?_⟩
  · rw [List.map_filterMap]
    refine enumerates_cuts text fun before after piece => ?_
    rw [Option.map_eq_some_iff]
    constructor
    · rintro ⟨c, hc, rfl⟩
      obtain ⟨hproperty, hbefore, hafter⟩ := (hiff ..).mp hc
      exact ⟨hbefore, hafter, c, hproperty, rfl⟩
    · rintro ⟨hbefore, hafter, c, hproperty, rfl⟩
      exact ⟨c, (hiff ..).mpr ⟨hproperty, hbefore, hafter⟩, rfl⟩
  · intro c hc
    obtain ⟨cut, -, hcut⟩ := List.mem_filterMap.mp hc
    exact ((hiff ..).mp hcut).1
  · rw [List.map_filterMap]
    exact List.filterMap_congr fun cut _ => hfind cut

/-! ## Maximal runs -/

/-- The maximal run of characters of a kind that begins at a cut, if one does. -/
def runAt? (kind : Char → Bool) (before after : Text) : Option Part :=
  if before.getLast?.any kind || !after.head?.any kind then none
  else some ⟨before, after.takeWhile kind, after.dropWhile kind⟩

/-- The maximal runs of characters of a kind, from left to right. -/
def maximalRuns (kind : Char → Bool) (text : Text) : List Part :=
  (cuts text).filterMap fun cut => runAt? kind cut.1 cut.2

/-- A run stops where a character of another kind comes next. -/
theorem takeWhile_append_of_stop {kind : Char → Bool} {run rest : Text}
    (hall : ∀ c ∈ run, kind c = true) (hstop : ∀ c, rest.head? = some c → kind c = false) :
    (run ++ rest).takeWhile kind = run ∧ (run ++ rest).dropWhile kind = rest := by
  rw [List.takeWhile_append_of_pos hall, List.dropWhile_append_of_pos hall]
  cases rest with
  | nil => simp
  | cons c rest =>
      have hc : kind c = false := hstop c rfl
      simp [hc]

/-- Where a run begins says where it stops. -/
theorem run_unique {kind : Char → Bool} {run rest run' rest' : Text}
    (hall : ∀ c ∈ run, kind c = true) (hstop : ∀ c, rest.head? = some c → kind c = false)
    (hall' : ∀ c ∈ run', kind c = true) (hstop' : ∀ c, rest'.head? = some c → kind c = false)
    (hsame : run ++ rest = run' ++ rest') : run = run' ∧ rest = rest' := by
  obtain ⟨htake, hdrop⟩ := takeWhile_append_of_stop hall hstop
  obtain ⟨htake', hdrop'⟩ := takeWhile_append_of_stop hall' hstop'
  rw [hsame] at htake hdrop
  exact ⟨htake.symm.trans htake', hdrop.symm.trans hdrop'⟩

theorem dropWhile_stop {kind : Char → Bool} {text : Text} :
    ∀ c, (text.dropWhile kind).head? = some c → kind c = false := by
  intro c hc
  have h := List.head?_dropWhile_not kind text
  rw [hc] at h
  exact h

/-- A run is found exactly where a maximal run of the kind begins. -/
theorem runAt?_eq_some {kind : Char → Bool} {before after : Text} {part : Part} :
    runAt? kind before after = some part ↔
      part.before = before ∧ after = part.piece ++ part.after ∧ part.IsMaximalRun kind := by
  constructor
  · intro h
    rw [runAt?] at h
    split_ifs at h with hcut
    cases h
    obtain ⟨hbefore, hafter⟩ := not_or.mp (mt (Bool.or_eq_true ..).mpr hcut)
    refine ⟨rfl, List.takeWhile_append_dropWhile.symm, ?_, ?_, ?_, dropWhile_stop⟩
    · cases after with
      | nil => simp at hafter
      | cons c after =>
          have hc : kind c = true := by simpa using hafter
          simp [hc]
    · exact fun c hc => List.mem_takeWhile_imp hc
    · intro c hc
      rw [hc] at hbefore
      simpa using hbefore
  · rintro ⟨rfl, rfl, hmax⟩
    obtain ⟨htake, hdrop⟩ := takeWhile_append_of_stop hmax.all hmax.after
    obtain ⟨c, piece, hpiece⟩ := List.exists_cons_of_ne_nil hmax.nonempty
    have hfirst : (part.piece ++ part.after).head?.any kind = true := by
      have hc : kind c = true := hmax.all c (by simp [hpiece])
      simp [hpiece, hc]
    have hlast : part.before.getLast?.any kind = false := by
      cases h : part.before.getLast? with
      | none => rfl
      | some d => exact hmax.before d h
    rw [runAt?, hfirst, hlast, htake, hdrop]
    rfl

/-- No maximal run begins inside a run. -/
theorem runAt?_inside {kind : Char → Bool} {before after : Text} {c : Char}
    (hlast : before.getLast? = some c) (hc : kind c = true) : runAt? kind before after = none := by
  rw [runAt?, hlast, Option.any_some, hc]
  rfl

/-- No run begins with a character of another kind. -/
theorem runAt?_outside {kind : Char → Bool} {before after : Text}
    (hfirst : ∀ c, after.head? = some c → kind c = false) : runAt? kind before after = none := by
  cases hrun : runAt? kind before after with
  | none => rfl
  | some part =>
      obtain ⟨-, rfl, hmax⟩ := runAt?_eq_some.mp hrun
      obtain ⟨c, piece, hpiece⟩ := List.exists_cons_of_ne_nil hmax.nonempty
      have hin := hmax.all c (by simp [hpiece])
      have hout := hfirst c (by simp [hpiece])
      rw [hin] at hout
      cases hout

/-- All maximal runs of a kind are listed, from left to right. -/
theorem enumerates_maximalRuns (kind : Char → Bool) (text : Text) :
    Enumerates text (·.IsMaximalRun kind) (maximalRuns kind text) :=
  enumerates_cuts text fun _ _ _ => runAt?_eq_some

end LiteralAudit.Text
