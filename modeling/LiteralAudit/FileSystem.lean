import LiteralAudit.FileTree
import LiteralAudit.IoFault

/-!
# File systems

A file tree as a program sees it: from a working directory, through paths that may lead over links
and parent directories.  Following a path gives the place where it ends.  If only the last name is
missing, the path gives the place where it could come to be.

Reading and writing are functions on file systems.
-/

namespace LiteralAudit

/-- A file tree and the directory that relative paths start from. -/
structure FileSystem where
  /-- The tree. -/
  tree : FileTree
  /-- The place of the working directory. -/
  working : Location
  deriving Repr

/-- Where a path leads. -/
inductive Destination where
  /-- To what is at a place. -/
  | found (place : Location)
  /-- To a name that a directory does not have.  `isSlashed` says that a slash follows it. -/
  | vacant (directory : Location) (name : FileName) (isSlashed : Bool)
  deriving DecidableEq, Repr

namespace FileSystem

/-- The greatest number of links that a path may lead over. -/
def linkLimit : Nat := 40

/-- The greatest number of bytes of a name. -/
def nameLimit : Nat := 255

/-- The greatest number of bytes of a path. -/
def pathLimit : Nat := 4095

/-- Follows the pieces of a path from a place.  A link at the end is followed only if `last` says
so, and `links` is the number of links that may still be followed. -/
def follow (tree : FileTree) (last : Bool) (links : Nat) (place : Location)
    (pieces : List (List UInt8)) : Except IoFault Destination :=
  match pieces with
  | [] => .ok (.found place)
  | piece :: pieces =>
      match tree.get? place with
      | some (.directory entries) =>
          if piece = [] || piece = [0x2e] then follow tree last links place pieces
          else if piece = [0x2e, 0x2e] then follow tree last links place.dropLast pieces
          else if nameLimit < piece.length then .error .nameTooLong
          else
            match DirectoryEntries.get? piece entries with
            | none =>
                if pieces.all List.isEmpty then .ok (.vacant place piece !pieces.isEmpty)
                else .error .missing
            | some (.link target) =>
                if pieces.isEmpty && !last then .ok (.found (place ++ [piece]))
                else
                  match links with
                  | 0 => .error .tooManyLinks
                  | links + 1 =>
                      follow tree last links (if target.isAbsolute then [] else place)
                        (splitSlashes target.bytes ++ pieces)
            | some _ => follow tree last links (place ++ [piece]) pieces
      | some _ => .error .notDirectory
      | none => .error .missing
termination_by (links, pieces.length)

/-- Where a path leads. -/
def destination (system : FileSystem) (last : Bool) (path : Path) : Except IoFault Destination :=
  if path.bytes.contains 0 then .error .zeroByte
  else if path.bytes.isEmpty then .error .missing
  else if pathLimit < path.bytes.length then .error .nameTooLong
  else
    follow system.tree last linkLimit (if path.isAbsolute then [] else system.working)
      (splitSlashes path.bytes)

/-- The path of the working directory. -/
def workingPath (system : FileSystem) : Path :=
  match system.working with
  | [] => ⟨[0x2f]⟩
  | names => ⟨names.flatMap (0x2f :: ·)⟩

/-! ## Looking -/

/-- The place of what is at a path, links followed. -/
def place? (system : FileSystem) (path : Path) : Except IoFault Location :=
  match system.destination true path with
  | .ok (.found place) => .ok place
  | .ok (.vacant _ _ _) => .error .missing
  | .error fault => .error fault

/-- What is at a path, links followed. -/
def get? (system : FileSystem) (path : Path) : Option FileTree :=
  match system.place? path with
  | .ok place => system.tree.get? place
  | .error _ => none

/-- Whether something is at a path. -/
def holds (system : FileSystem) (path : Path) : Bool := (system.get? path).isSome

/-- Whether a directory is at a path. -/
def holdsDirectory (system : FileSystem) (path : Path) : Bool :=
  (system.get? path).any FileTree.isDirectory

/-- Whether a path itself leads to a link. -/
def holdsLink (system : FileSystem) (path : Path) : Bool :=
  match system.destination false path with
  | .ok (.found place) => (system.tree.get? place).any FileTree.isLink
  | _ => false

/-! ## Reading -/

/-- The bytes of the file at a path. -/
def read (system : FileSystem) (path : Path) : Except IoFault (List UInt8) :=
  match system.place? path with
  | .error fault => .error fault
  | .ok place =>
      match system.tree.get? place with
      | some (.file bytes) => .ok bytes
      | some (.directory _) => .error .isDirectory
      | _ => .error .missing

/-- The text of the file at a path. -/
def readText (system : FileSystem) (path : Path) : Except IoFault Text :=
  match system.read path with
  | .error fault => .error fault
  | .ok bytes =>
      match Text.Utf8.decode? bytes with
      | some text => .ok text
      | none => .error .notText

/-! ## Writing -/

/-- Makes a directory at a path. -/
def makeDirectory (system : FileSystem) (path : Path) : Except IoFault FileSystem :=
  match system.destination false path with
  | .error fault => .error fault
  | .ok (.found _) => .error .alreadyExists
  | .ok (.vacant directory name _) =>
      .ok { system with tree := system.tree.put (directory ++ [name]) .emptyDirectory }

/-- Makes a directory at a path unless there is one. -/
def ensureDirectory (system : FileSystem) (path : Path) : Except IoFault FileSystem :=
  match system.makeDirectory path with
  | .ok system => .ok system
  | .error .alreadyExists =>
      if system.holdsDirectory path then .ok system else .error .alreadyExists
  | .error fault => .error fault

/-- Makes directories at the first path that has a parent directory and at all those before it.
Each path is the parent of the one before it. -/
def ensureEach (system : FileSystem) : List Path → Except IoFault FileSystem
  | [] => .ok system
  | path :: parents =>
      match system.ensureDirectory path with
      | .error .missing => do
          let system ← ensureEach system parents
          ensureDirectory system path
      | result => result

/-- Makes directories at a path and at its parents where there are none. -/
def ensureDirectories (system : FileSystem) (path : Path) : Except IoFault FileSystem :=
  system.ensureEach (path.ancestors.filter fun path => path.parent?.isSome)

/-- Writes a file.  What was in it before is gone. -/
def write (system : FileSystem) (path : Path) (bytes : List UInt8) : Except IoFault FileSystem :=
  let writeAt (place : Location) : FileSystem :=
    { system with tree := system.tree.put place (.file bytes) }
  match system.destination true path with
  | .error fault => .error fault
  | .ok (.vacant _ _ true) => .error .isDirectory
  | .ok (.vacant directory name false) => .ok (writeAt (directory ++ [name]))
  | .ok (.found place) =>
      if (system.tree.get? place).any FileTree.isDirectory then .error .isDirectory
      else .ok (writeAt place)

end FileSystem

end LiteralAudit
