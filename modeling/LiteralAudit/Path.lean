import LiteralAudit.Text.Utf8

/-!
# Paths

A path is the bytes it is spelled with.  Two paths name the same place when they have the same
components, and paths are ordered by their components.  Runs of slashes, a slash at the end and
dots that stand for the directory they are in make no component, except a dot at the very
beginning of a relative path.

A component of the order compares below every name if it is the root, a leading dot or a parent
step, in this order, and names compare by their bytes.  So `a/x` comes before `a-b/x`, although
the bytes compare the other way round.
-/

namespace LiteralAudit

/-- A file name: bytes other than the slash. -/
abbrev FileName := List UInt8

/-- One step of a path. -/
inductive PathStep where
  /-- The root of an absolute path. -/
  | root
  /-- A dot at the beginning of a relative path. -/
  | here
  /-- The parent directory. -/
  | parent
  /-- A name in a directory. -/
  | name (name : FileName)
  deriving DecidableEq, Repr

/-- A path, as it is spelled. -/
structure Path where
  /-- The bytes of the path. -/
  bytes : List UInt8
  deriving DecidableEq, Repr

/-- The order of byte strings. -/
def compareBytes : List UInt8 → List UInt8 → Ordering
  | [], [] => .eq
  | [], _ :: _ => .lt
  | _ :: _, [] => .gt
  | a :: as, b :: bs => if a < b then .lt else if b < a then .gt else compareBytes as bs

/-- The order of steps. -/
def PathStep.compare : PathStep → PathStep → Ordering
  | .root, .root => .eq
  | .root, _ => .lt
  | _, .root => .gt
  | .here, .here => .eq
  | .here, _ => .lt
  | _, .here => .gt
  | .parent, .parent => .eq
  | .parent, .name _ => .lt
  | .name _, .parent => .gt
  | .name a, .name b => compareBytes a b

/-- The order of sequences of steps. -/
def compareSteps : List PathStep → List PathStep → Ordering
  | [], [] => .eq
  | [], _ :: _ => .lt
  | _ :: _, [] => .gt
  | a :: as, b :: bs =>
      match a.compare b with
      | .eq => compareSteps as bs
      | order => order

/-- The pieces between slashes.  There is one more piece than there are slashes. -/
def splitSlashes : List UInt8 → List (List UInt8)
  | [] => [[]]
  | byte :: bytes =>
      if byte = 0x2f then [] :: splitSlashes bytes
      else
        match splitSlashes bytes with
        | [] => [[byte]]
        | piece :: pieces => (byte :: piece) :: pieces

namespace Path

/-- The path that a text spells. -/
def ofText (text : Text) : Path := ⟨Text.Utf8.encode text⟩

/-- The text a path is shown with: bytes that are no text are replaced. -/
def display (path : Path) : Text := Text.Utf8.decodeLossy path.bytes

/-- Whether the path starts at the root. -/
def isAbsolute (path : Path) : Bool :=
  match path.bytes with
  | byte :: _ => byte = 0x2f
  | [] => false

/-- The step that a piece between slashes makes, unless it makes none. -/
def stepOfPiece? (piece : List UInt8) : Option PathStep :=
  if piece = [] || piece = [0x2e] then none
  else if piece = [0x2e, 0x2e] then some .parent
  else some (.name piece)

/-- The steps of a path. -/
def steps (path : Path) : List PathStep :=
  let pieces := splitSlashes path.bytes
  let later := pieces.filterMap stepOfPiece?
  if path.isAbsolute then .root :: later
  else if pieces.head? = some [0x2e] then .here :: later
  else later

/-- The order of paths. -/
def compare (a b : Path) : Ordering := compareSteps a.steps b.steps

/-- Whether two paths have the same steps. -/
def same (a b : Path) : Bool := a.steps = b.steps

/-- Whether the steps of `path` begin with those of `start`. -/
def startsWith (start path : Path) : Bool := start.steps.isPrefixOf path.steps

/-- The name of the last step, if that is a name. -/
def fileName? (path : Path) : Option FileName :=
  match path.steps.getLast? with
  | some (.name name) => some name
  | _ => none

/-- The part of a file name behind its last dot, unless that dot is its first byte. -/
def extensionOf? (name : FileName) : Option (List UInt8) :=
  match name.reverse.span (· ≠ 0x2e) with
  | (_, []) => none
  | (_, [_]) => none
  | (behind, _ :: _ :: _) => some behind.reverse

/-- The extension of the last step. -/
def extension? (path : Path) : Option (List UInt8) := path.fileName? >>= extensionOf?

/-- The bytes before the run of bytes at the end that satisfy `p`. -/
def dropBytesWhile (p : UInt8 → Bool) (bytes : List UInt8) : List UInt8 :=
  (bytes.reverse.dropWhile p).reverse

/-- The bytes without the slashes and the dots between slashes at the end, which make no step.
A dot at the very beginning and the slash of the root are kept.  The bytes are read backwards,
and `fuel` bounds the number of trailing dots. -/
def dropIdleFrom : (fuel : Nat) → (reversed : List UInt8) → List UInt8
  | 0, reversed => reversed
  | fuel + 1, reversed =>
      match reversed.dropWhile (· = 0x2f) with
      | [] => if reversed.isEmpty then [] else [0x2f]
      | 0x2e :: 0x2f :: rest => dropIdleFrom fuel (0x2f :: rest)
      | rest => rest

/-- The spelling without what makes no step at its end. -/
def dropIdle (bytes : List UInt8) : List UInt8 :=
  (dropIdleFrom (bytes.length + 1) bytes.reverse).reverse

/-- The path without its last step, as it is spelled.  The root and the empty path have no
parent. -/
def parent? (path : Path) : Option Path :=
  match path.steps.getLast? with
  | none => none
  | some .root => none
  | some _ => some ⟨dropIdle (dropBytesWhile (· ≠ 0x2f) (dropIdle path.bytes))⟩

/-- The path and its parents, the longest first.  `fuel` bounds their number. -/
def ancestorsFrom : (fuel : Nat) → Path → List Path
  | 0, path => [path]
  | fuel + 1, path =>
      path :: match path.parent? with
        | none => []
        | some parent => ancestorsFrom fuel parent

/-- The path and its parents, the longest first. -/
def ancestors (path : Path) : List Path := ancestorsFrom path.bytes.length path

/-- The path of a name in a directory. -/
def child (directory : Path) (name : FileName) : Path :=
  match directory.bytes.getLast? with
  | none => ⟨name⟩
  | some byte =>
      if byte = 0x2f then ⟨directory.bytes ++ name⟩ else ⟨directory.bytes ++ 0x2f :: name⟩

/-- The place that `path` names when read from `directory`. -/
def under (directory path : Path) : Path :=
  if path.isAbsolute then path else child directory path.bytes

end Path

end LiteralAudit
