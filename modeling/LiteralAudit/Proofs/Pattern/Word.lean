import LiteralAudit.Proofs.Pattern.Takes

/-!
# Whole words

A pattern between two word edges takes whole words only: if what stands between the edges is made
of word characters, the first edge says that no word character precedes it, and the second that
none follows (`takes_wholeWord`).

Letters and digits are word characters, and so is whatever folds to a small letter: a character
that is not ASCII may stand for a letter of a word (`isWord_of_fold`).
-/

namespace LiteralAudit

open Text (Part isWord isOctalDigit)

namespace Pattern

/-! ## Between two word edges -/

/-- The edge of a word takes nothing, and looks at the characters on both sides. -/
theorem takes_wordEdge {before piece rest : Text} {groups : List Span} :
    Takes .wordEdge before piece rest groups ↔
      piece = [] ∧ groups = [] ∧ (Place.between before rest).isWordEdge = true := by
  constructor
  · intro h
    cases h with
    | wordEdge hedge => exact ⟨rfl, rfl, hedge⟩
  · rintro ⟨rfl, rfl, hedge⟩
    exact .wordEdge hedge

/-- In front of a word there is an edge if no word character precedes it. -/
theorem isWordEdge_front {before piece rest : Text} (hne : piece ≠ [])
    (hall : ∀ c ∈ piece, isWord c = true) :
    (Place.between before (piece ++ rest)).isWordEdge = true ↔
      ∀ c, before.getLast? = some c → isWord c = false := by
  obtain ⟨d, piece, rfl⟩ := List.exists_cons_of_ne_nil hne
  have hd : isWord d = true := hall d (List.mem_cons_self ..)
  simp only [Place.isWordEdge, Place.between, List.cons_append, List.head?_cons, Option.any_some,
    hd]
  cases before.getLast? with
  | none => simp
  | some c => simp

/-- Behind a word there is an edge if no word character follows it. -/
theorem isWordEdge_back {before piece rest : Text} (hne : piece ≠ [])
    (hall : ∀ c ∈ piece, isWord c = true) :
    (Place.between (before ++ piece) rest).isWordEdge = true ↔
      ∀ c, rest.head? = some c → isWord c = false := by
  have hlast := List.getLast?_eq_getLast_of_ne_nil hne
  have hd : isWord (piece.getLast hne) = true := hall _ (List.getLast_mem hne)
  simp only [Place.isWordEdge, Place.between, List.getLast?_append, hlast, Option.some_or,
    Option.any_some, hd]
  cases rest.head? with
  | none => simp
  | some c => simp

/-- Between two word edges a pattern that takes word characters takes a whole word. -/
theorem takes_wholeWord (patterns : List Pattern) {shape : Text → Bool}
    (htakes : ∀ before piece rest groups, Takes (inOrder patterns) before piece rest groups ↔
      shape piece = true ∧ groups = [])
    (hword : ∀ piece, shape piece = true → piece ≠ [] ∧ ∀ c ∈ piece, isWord c = true)
    (before piece rest : Text) (groups : List Span) :
    Takes (inOrder (.wordEdge :: patterns ++ [.wordEdge])) before piece rest groups ↔
      Part.IsMaximalRun isWord ⟨before, piece, rest⟩ ∧ shape piece = true ∧ groups = [] := by
  rw [List.cons_append, takes_inOrder_cons]
  simp only [takes_inOrder_append, takes_inOrder_cons, takes_inOrder_nil, takes_wordEdge, htakes]
  constructor
  · rintro ⟨_, _, _, _, rfl, rfl, ⟨rfl, rfl, hfront⟩, word, _, _, _, rfl, rfl, ⟨hshape, rfl⟩,
      _, _, _, _, rfl, rfl, ⟨rfl, rfl, hback⟩, rfl, rfl⟩
    obtain ⟨hne, hall⟩ := hword word hshape
    simp only [List.nil_append, List.append_nil] at hfront hback ⊢
    exact ⟨⟨hne, hall, (isWordEdge_front hne hall).mp hfront,
      (isWordEdge_back hne hall).mp hback⟩, hshape, trivial⟩
  · rintro ⟨⟨hne, hall, hbefore, hafter⟩, hshape, rfl⟩
    refine ⟨[], piece, [], [], rfl, rfl, ⟨rfl, rfl, ?_⟩, piece, [], [], [], by simp, rfl,
      ⟨hshape, rfl⟩, [], [], [], [], rfl, rfl, ⟨rfl, rfl, ?_⟩, rfl, rfl⟩
    · exact (isWordEdge_front hne hall).mpr hbefore
    · simpa using (isWordEdge_back hne hall).mpr hafter

end Pattern

/-! ## Word characters -/

namespace Text

theorem isWord_of_isLetter {c : Char} (h : isLetter c = true) : isWord c = true := by
  have hascii : c.toNat < 0x80 := by
    simp only [isLetter, Bool.or_eq_true, Bool.and_eq_true, decide_eq_true_eq, Char.le_def,
      UInt32.le_iff_toNat_le] at h
    show c.val.toNat < 0x80
    rcases h with ⟨-, h⟩ | ⟨-, h⟩
    · exact lt_of_le_of_lt h (by decide)
    · exact lt_of_le_of_lt h (by decide)
  rw [isWord, if_pos hascii, h]
  rfl

theorem isWord_of_isOctalDigit {c : Char} (h : isOctalDigit c = true) : isWord c = true := by
  simp only [isOctalDigit, Bool.and_eq_true, decide_eq_true_eq] at h
  have hdigit : isDigit c = true := by
    simp only [isDigit, Bool.and_eq_true, decide_eq_true_eq]
    exact ⟨h.1, Char.le_trans h.2 (by decide)⟩
  have hascii : c.toNat < 0x80 := lt_of_le_of_lt (UInt32.le_iff_toNat_le.mp h.2) (by decide)
  rw [isWord, if_pos hascii, hdigit, Bool.or_true]
  rfl

/-- What folds to a small ASCII letter is a word character. -/
theorem isWord_of_fold {c : Char} (h : 'a' ≤ fold c ∧ fold c ≤ 'z') : isWord c = true := by
  by_cases hs : c = 'ſ'
  · subst hs
    decide +kernel
  by_cases hk : c = '\u212a'
  · subst hk
    decide +kernel
  rw [fold, if_neg hs, if_neg hk] at h
  have hletter : isLetter c = true := by
    rw [isLetter, Bool.or_eq_true]
    by_cases hcapital : c.val ≥ 'A'.val ∧ c.val ≤ 'Z'.val
    · exact Or.inr (by simpa [Char.le_def] using hcapital)
    · have hsame : c.toLower = c := dif_neg hcapital
      rw [hsame] at h
      exact Or.inl (by simpa using h)
  exact isWord_of_isLetter hletter

end Text

end LiteralAudit
