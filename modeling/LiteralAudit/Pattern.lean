import LiteralAudit.Text.Word

/-!
# Patterns

A pattern describes a short piece of a line.  Matching a pattern at a place gives the places
where a match may end, in order of preference: a run takes as many characters as it can first,
and of two alternatives the left one comes first.  The match at a place is the one that ends at
the first of them.

A search goes through a line from left to right and takes the match at the first place that has
one.  It goes on behind that match, so matches do not overlap.
-/

namespace LiteralAudit

/-- A description of a piece of text. -/
inductive Pattern where
  /-- No characters. -/
  | empty
  /-- No characters, at a place where a word begins or ends. -/
  | wordEdge
  /-- One character with a property. -/
  | one (accepts : Char → Bool)
  /-- Any number of characters with a property, as many as possible. -/
  | run (accepts : Char → Bool)
  /-- What the inner pattern describes, or no characters. -/
  | maybe (inner : Pattern)
  /-- The first pattern and then the second. -/
  | seq (first second : Pattern)
  /-- The left pattern, or else the right one. -/
  | either (left right : Pattern)
  /-- The inner pattern, whose stretch is remembered as a group. -/
  | group (inner : Pattern)

/-- A place in a line. -/
structure Place where
  /-- The character before the place. -/
  before : Option Char
  /-- The offset of the place in bytes. -/
  offset : Nat
  /-- The text behind the place. -/
  after : Text
  deriving DecidableEq, Repr

namespace Place

/-- The place at the beginning of a line. -/
def startOf (line : Text) : Place := ⟨none, 0, line⟩

/-- The place behind a character, with `after` behind it. -/
def advance (place : Place) (c : Char) (after : Text) : Place :=
  ⟨some c, place.offset + c.utf8Size, after⟩

/-- Whether exactly one of the neighbours of the place is a word character. -/
def isWordEdge (place : Place) : Bool :=
  place.before.any Text.isWord != place.after.head?.any Text.isWord

end Place

/-- An end that a match may have: the place, and the groups remembered on the way. -/
structure MatchEnd where
  /-- Where the match ends. -/
  place : Place
  /-- The stretches of the groups, in the order in which the groups begin. -/
  groups : List Span
  deriving DecidableEq, Repr

/-- A match in a line. -/
structure Match where
  /-- The stretch of the whole match. -/
  whole : Span
  /-- The stretches of its groups. -/
  groups : List Span
  deriving DecidableEq, Repr

/-- The stretch of a group.  Group zero is the whole match. -/
def Match.group? (found : Match) : Nat → Option Span
  | 0 => some found.whole
  | n + 1 => found.groups[n]?

namespace Pattern

/-- The places behind the beginnings of a run of accepted characters, added in front of `ends`
so that the longest comes first. -/
def runEnds (accepts : Char → Bool) : Text → Place → (ends : List MatchEnd) → List MatchEnd
  | [], place, ends => ⟨place, []⟩ :: ends
  | c :: text, place, ends =>
      if accepts c then runEnds accepts text (place.advance c text) (⟨place, []⟩ :: ends)
      else ⟨place, []⟩ :: ends

/-- The ends that a match at a place may have, the preferred one first. -/
def ends : Pattern → Place → List MatchEnd
  | .empty, place => [⟨place, []⟩]
  | .wordEdge, place => if place.isWordEdge then [⟨place, []⟩] else []
  | .one accepts, place =>
      match place.after with
      | [] => []
      | c :: text => if accepts c then [⟨place.advance c text, []⟩] else []
  | .run accepts, place => runEnds accepts place.after place []
  | .maybe inner, place => inner.ends place ++ [⟨place, []⟩]
  | .seq first second, place =>
      (first.ends place).flatMap fun middle =>
        (second.ends middle.place).map fun last => ⟨last.place, middle.groups ++ last.groups⟩
  | .either left right, place => left.ends place ++ right.ends place
  | .group inner, place =>
      (inner.ends place).map fun last =>
        ⟨last.place, ⟨place.offset, last.place.offset⟩ :: last.groups⟩

/-- The match at a place. -/
def matchAt? (pattern : Pattern) (place : Place) : Option Match :=
  match pattern.ends place with
  | [] => none
  | last :: _ => some ⟨⟨place.offset, last.place.offset⟩, last.groups⟩

/-- The matches from a place on, given the text behind the place.  Places before the offset
`resume` are inside a match and are passed over. -/
def searchFrom (pattern : Pattern) (resume : Nat) : Text → (place : Place) → List Match
  | [], _ => []
  | c :: text, place =>
      let next := place.advance c text
      if place.offset < resume then searchFrom pattern resume text next
      else
        match pattern.matchAt? place with
        | some found => found :: searchFrom pattern found.whole.stop text next
        | none => searchFrom pattern resume text next

/-- The matches in a line, from left to right. -/
def search (pattern : Pattern) (line : Text) : List Match :=
  pattern.searchFrom 0 line (Place.startOf line)

/-! ## Building patterns -/

/-- The patterns one after the other. -/
def inOrder : List Pattern → Pattern
  | [] => .empty
  | first :: rest => .seq first (inOrder rest)

/-- A number of characters with a property. -/
def times (accepts : Char → Bool) : Nat → Pattern
  | 0 => .empty
  | n + 1 => .seq (.one accepts) (times accepts n)

/-- As many characters with a property as possible, and at least one. -/
def atLeastOne (accepts : Char → Bool) : Pattern := .seq (.one accepts) (.run accepts)

/-- The characters of a text. -/
def exactly : Text → Pattern
  | [] => .empty
  | c :: text => .seq (.one (· = c)) (exactly text)

/-- The characters of a text in small letters, in either case. -/
def anyCase : Text → Pattern
  | [] => .empty
  | c :: text => .seq (.one (Text.fold · = c)) (anyCase text)

/-- The first of the patterns that matches. -/
def firstOf : List Pattern → (otherwise : Pattern) → Pattern
  | [], otherwise => otherwise
  | first :: rest, otherwise => .either first (firstOf rest otherwise)

end Pattern

end LiteralAudit
