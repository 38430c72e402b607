import LiteralAudit.Path

/-!
# File trees

A finite tree of directories, files and links.  A place in a tree is given by the names on the
way to it; names lead through directories only, never through links.
-/

namespace LiteralAudit

/-- A tree of directories, files and links. -/
inductive FileTree where
  /-- A file with its bytes. -/
  | file (bytes : List UInt8)
  /-- A link to a path. -/
  | link (target : Path)
  /-- A directory with its entries. -/
  | directory (entries : List (FileName × FileTree))
  deriving Repr

/-- The entries of a directory.  No name occurs twice. -/
abbrev DirectoryEntries := List (FileName × FileTree)

/-- The names that lead from the root of a tree to a place in it. -/
abbrev Location := List FileName

namespace DirectoryEntries

/-- The entry of a name. -/
def get? (name : FileName) : DirectoryEntries → Option FileTree
  | [] => none
  | (other, tree) :: entries => if other = name then some tree else get? name entries

/-- The entries with that of a name replaced, or with a new one at the end. -/
def set (name : FileName) (tree : FileTree) : DirectoryEntries → DirectoryEntries
  | [] => [(name, tree)]
  | (other, old) :: entries =>
      if other = name then (name, tree) :: entries else (other, old) :: set name tree entries

end DirectoryEntries

namespace FileTree

/-- A directory without entries. -/
def emptyDirectory : FileTree := .directory []

/-- The entries of a tree, which are none if it is no directory. -/
def entries : FileTree → DirectoryEntries
  | .directory entries => entries
  | _ => []

/-- Whether a tree is a directory. -/
def isDirectory : FileTree → Bool
  | .directory _ => true
  | _ => false

/-- Whether a tree is a link. -/
def isLink : FileTree → Bool
  | .link _ => true
  | _ => false

/-- What is at a place. -/
def get? : Location → FileTree → Option FileTree
  | [], tree => some tree
  | name :: place, tree => DirectoryEntries.get? name tree.entries >>= get? place

/-- The tree with something put at a place.  Directories on the way come to be. -/
def put : FileTree → Location → (new : FileTree) → FileTree
  | _, [], new => new
  | tree, name :: place, new =>
      let inner := (DirectoryEntries.get? name tree.entries).getD emptyDirectory
      .directory (DirectoryEntries.set name (put inner place new) tree.entries)

end FileTree

end LiteralAudit
