import LiteralAudit.Glob.Token

/-!
# Reading globs

A glob is read from left to right.  The reader keeps the tokens of the branch it is in and the
choices that are open around it.

A bracket without its partner is a fault, unless brackets are read leniently: then it and all
later ones are characters like others.
-/

namespace LiteralAudit

/-- Why a text is no glob. -/
inductive GlobFault where
  /-- A class is not closed. -/
  | openClass
  /-- A range of a class ends before it begins. -/
  | emptyRange (first last : Char)
  /-- A brace is closed that was not opened. -/
  | strayBrace
  /-- A brace is not closed. -/
  | openBrace
  /-- A backslash has nothing behind it. -/
  | danglingBackslash
  deriving DecidableEq, Repr

namespace GlobFault

/-- The words for a fault. -/
def reason : GlobFault → Text
  | .openClass => "unclosed character class; missing ']'"
  | .emptyRange first last => "invalid range; '" ++ [first] ++ "' > '" ++ [last] ++ "'"
  | .strayBrace =>
      "unopened alternate group; missing '\x7b' (maybe escape '\x7d' with '[\x7d]'?)"
  | .openBrace =>
      "unclosed alternate group; missing '\x7d' (maybe escape '\x7b' with '[\x7b]'?)"
  | .danglingBackslash => "dangling '\\'"

/-- The message that names the glob and the fault. -/
def message (glob : Text) (fault : GlobFault) : Text :=
  "error parsing glob '" ++ glob ++ "': " ++ fault.reason

end GlobFault

namespace CharClass

/-- The ranges with the end of the last one moved. -/
def extendLast (c : Char) : List (Char × Char) → Except GlobFault (List (Char × Char))
  | [] => .ok []
  | (first, _) :: ranges =>
      if c < first then .error (.emptyRange first c) else .ok ((first, c) :: ranges)

/-- The ranges up to the closing bracket, and what follows it.  `ranges` are those read, the last
one first, and `half` says that a hyphen waits for the end of its range. -/
def readRanges : (ranges : List (Char × Char)) → (half : Bool) → Text →
    Except GlobFault (List (Char × Char) × Text)
  | _, _, [] => .error .openClass
  | ranges, half, c :: text =>
      if c = ']' && !ranges.isEmpty then
        .ok ((if half then ('-', '-') :: ranges else ranges).reverse, text)
      else if half then
        match extendLast c ranges with
        | .ok ranges => readRanges ranges false text
        | .error fault => .error fault
      else if c = '-' && !ranges.isEmpty then readRanges ranges true text
      else readRanges ((c, c) :: ranges) false text

/-- The class of the ranges up to the closing bracket, and what follows it. -/
def readListed (negated : Bool) (text : Text) : Except GlobFault (CharClass × Text) :=
  (readRanges [] false text).map fun found => (⟨negated, found.1⟩, found.2)

/-- The class behind an opening bracket, and what follows it. -/
def read (text : Text) : Except GlobFault (CharClass × Text) :=
  match text with
  | '!' :: rest | '^' :: rest => readListed true rest
  | _ => readListed false text

/-- Reading ranges takes the closing bracket at least. -/
theorem readRanges_shorter {text rest : Text} {ranges found : List (Char × Char)} {half : Bool}
    (h : readRanges ranges half text = .ok (found, rest)) : rest.length < text.length := by
  fun_induction readRanges ranges half text with
  | case1 => cases h
  | case2 =>
      cases h
      exact Nat.lt_succ_self _
  | case3 _ _ _ _ _ _ ih => exact Nat.lt_succ_of_lt (ih h)
  | case4 => cases h
  | case5 _ _ _ _ _ _ _ ih => exact Nat.lt_succ_of_lt (ih h)
  | case6 _ _ _ _ _ _ _ ih => exact Nat.lt_succ_of_lt (ih h)

theorem readListed_shorter {text rest : Text} {negated : Bool} {listed : CharClass}
    (h : readListed negated text = .ok (listed, rest)) : rest.length < text.length := by
  rw [readListed] at h
  cases hranges : readRanges [] false text with
  | error fault =>
      rw [hranges] at h
      cases h
  | ok found =>
      rw [hranges] at h
      cases h
      exact readRanges_shorter hranges

/-- So the reader of globs goes on with a shorter text behind a class. -/
theorem read_shorter {text rest : Text} {listed : CharClass}
    (h : read text = .ok (listed, rest)) : rest.length < text.length := by
  unfold read at h
  split at h
  next => exact Nat.lt_succ_of_lt (readListed_shorter h)
  next => exact Nat.lt_succ_of_lt (readListed_shorter h)
  next => exact readListed_shorter h

end CharClass

/-- A choice that is not closed yet. -/
structure OpenChoice where
  /-- The tokens before the choice, the last one first. -/
  before : List GlobToken
  /-- The branches that are complete. -/
  branches : List (List GlobToken)

/-- How far a glob has been read. -/
structure GlobReader where
  /-- The tokens of the current branch, the last one first. -/
  current : List GlobToken
  /-- The open choices, the innermost one first. -/
  choices : List OpenChoice
  /-- The character read last. -/
  previous : Option Char
  /-- Whether brackets are characters like others. -/
  plainBrackets : Bool

namespace GlobReader

/-- Nothing read yet. -/
def start : GlobReader := ⟨[], [], none, false⟩

/-- The reader with one more token, read up to the given character. -/
def push (reader : GlobReader) (token : GlobToken) (previous : Char) : GlobReader :=
  { reader with current := token :: reader.current, previous := some previous }

/-- Opens a choice. -/
def openChoice (reader : GlobReader) : GlobReader :=
  { reader with
    current := []
    choices := ⟨reader.current, []⟩ :: reader.choices
    previous := some '\x7b' }

/-- Ends a branch.  A comma outside of choices is a character. -/
def comma (reader : GlobReader) : GlobReader :=
  match reader.choices with
  | [] => reader.push (.char ',') ','
  | choice :: choices =>
      { reader with
        current := []
        choices := ⟨choice.before, choice.branches ++ [reader.current.reverse]⟩ :: choices
        previous := some ',' }

/-- Closes the innermost choice. -/
def closeChoice (reader : GlobReader) : Except GlobFault GlobReader :=
  match reader.choices with
  | [] => .error .strayBrace
  | choice :: choices =>
      .ok
        { reader with
          current := .choice (choice.branches ++ [reader.current.reverse]) :: choice.before
          choices := choices
          previous := some '\x7d' }

/-- The tokens of the whole glob. -/
def finish (reader : GlobReader) : Except GlobFault (List GlobToken) :=
  if reader.choices.isEmpty then .ok reader.current.reverse else .error .openBrace

/-- What two stars stand for. -/
inductive Stars where
  /-- Two single stars. -/
  | single
  /-- Steps at the beginning, with the slash behind them. -/
  | leading
  /-- Steps at the end of a branch. -/
  | trailing
  /-- Steps between slashes, with the slash behind them. -/
  | inner
  deriving DecidableEq, Repr

/-- What two stars stand for in front of a text.  They fill a step if they stand at the beginning
or behind a slash, and a slash or the end of the branch follows. -/
def stars (reader : GlobReader) (text : Text) : Stars :=
  let inChoice := !reader.choices.isEmpty
  if reader.current.isEmpty then
    if text.head?.all (· = '/') then .leading else .single
  else if reader.previous = some '/' ||
      (inChoice && (reader.previous = some ',' || reader.previous = some '\x7b')) then
    match text with
    | [] => .trailing
    | '/' :: _ => .inner
    | c :: _ => if inChoice && (c = ',' || c = '\x7d') then .trailing else .single
  else .single

/-- Puts steps in the place of the slash before them.  Steps next to steps change nothing. -/
def pushSteps (reader : GlobReader) (token : GlobToken) (previous : Char) : GlobReader :=
  match reader.current with
  | .leadingSteps :: _ | .trailingSteps :: _ => { reader with previous := some previous }
  | _ :: tokens => { reader with current := token :: tokens, previous := some previous }
  | [] => reader.push token previous

/-- Two stars in front of a text, and what is left of it. -/
def pushStars (reader : GlobReader) (text : Text) : GlobReader × Text :=
  match reader.stars text with
  | .single => ((reader.push .star '*').push .star '*', text)
  | .leading => (reader.push .leadingSteps (if text.isEmpty then '*' else '/'), text.drop 1)
  | .trailing => (reader.pushSteps .trailingSteps '*', text)
  | .inner => (reader.pushSteps .innerSteps '/', text.drop 1)

/-- Two stars may take the slash behind them. -/
theorem pushStars_not_longer (reader : GlobReader) (text : Text) :
    (reader.pushStars text).2.length ≤ text.length := by
  unfold pushStars
  split <;> simp

/-- Reads the rest of a glob. -/
def read (lenient : Bool) (reader : GlobReader) (text : Text) :
    Except GlobFault (List GlobToken) :=
  match text with
  | [] => reader.finish
  | '?' :: text => read lenient (reader.push .any '?') text
  | '*' :: '*' :: text =>
      have := pushStars_not_longer reader text
      read lenient (reader.pushStars text).1 (reader.pushStars text).2
  | '*' :: text => read lenient (reader.push .star '*') text
  | '\x7b' :: text => read lenient reader.openChoice text
  | ',' :: text => read lenient reader.comma text
  | '\x7d' :: text =>
      match reader.closeChoice with
      | .ok reader => read lenient reader text
      | .error fault => .error fault
  | ['\\'] => .error .danglingBackslash
  | '\\' :: c :: text => read lenient (reader.push (.char c) c) text
  | c :: text =>
      if c = '[' && !reader.plainBrackets then
        match h : CharClass.read text with
        | .ok (listed, rest) =>
            have := CharClass.read_shorter h
            read lenient (reader.push (.oneOf listed) ']') rest
        | .error .openClass =>
            if lenient then
              read lenient { reader.push (.char '[') '[' with plainBrackets := true } text
            else .error .openClass
        | .error fault => .error fault
      else read lenient (reader.push (.char c) c) text
termination_by text.length
decreasing_by all_goals (simp_all; try omega)

end GlobReader

end LiteralAudit
