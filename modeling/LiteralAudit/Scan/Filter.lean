import LiteralAudit.Failure
import LiteralAudit.Glob

/-!
# Selecting files

A filter says which files are wanted and which directories are entered.  A file is wanted if its
extension is listed and no excluding glob matches its path.  A directory is entered unless its
name is listed as excluded or an excluding glob matches its path.

An extension or a name that is no text is equal to no listed one.

The globs of a filter are matched together, by a machine that is made for all of them.  It is
bounded in size and depth, so it may refuse globs that are well formed (`GlobLimit`).
-/

namespace LiteralAudit

/-- Which files are wanted and which directories are entered. -/
structure FileFilter where
  /-- The extensions of wanted files.  If there are none, every file is wanted. -/
  extensions : List Text
  /-- The names of directories that are not entered. -/
  excludedNames : List Text
  /-- The globs of paths that are left out. -/
  excludes : List Glob

/-- What the machine for some globs says if it refuses them.  Where its bounds are is left open. -/
abbrev GlobLimit := List Glob → Option Text

/-- No globs are refused. -/
def GlobLimit.unlimited : GlobLimit := fun _ => none

namespace FileFilter

/-- The globs of a list of texts, or the first text that is none. -/
def readGlobs : List Text → Except Failure (List Glob)
  | [] => .ok []
  | text :: texts =>
      match Glob.read text with
      | .error fault => .error (.invalidGlob text fault)
      | .ok glob => (readGlobs texts).map (glob :: ·)

/-- The globs, if they can be matched together. -/
def combine (limit : GlobLimit) (globs : List Glob) : Except Failure (List Glob) :=
  match limit globs with
  | some reason => .error (.refusedGlobs reason)
  | none => .ok globs

/-- The filter for extensions with or without leading dots, names of directories and globs. -/
def ofLists (extensions excludedNames excludes : List Text) (limit : GlobLimit := .unlimited) :
    Except Failure FileFilter :=
  (readGlobs excludes >>= combine limit).map fun globs =>
    ⟨extensions.map (·.dropWhile (· = '.')), excludedNames, globs⟩

/-- Whether the extension of a path is wanted. -/
def wantsExtension (filter : FileFilter) (path : Path) : Bool :=
  filter.extensions.isEmpty ||
    (path.extension? >>= Text.Utf8.decode?).any filter.extensions.contains

/-- Whether the name of a directory is excluded. -/
def excludesName (filter : FileFilter) (path : Path) : Bool :=
  (path.fileName? >>= Text.Utf8.decode?).any filter.excludedNames.contains

/-- Whether a glob leaves a path out. -/
def leavesOut (filter : FileFilter) (path : Path) : Bool :=
  filter.excludes.any (·.accepts .wholePath path)

/-- Whether a file is wanted. -/
def wants (filter : FileFilter) (path : Path) : Bool :=
  filter.wantsExtension path && !filter.leavesOut path

/-- Whether a directory is entered. -/
def enters (filter : FileFilter) (path : Path) : Bool :=
  !filter.excludesName path && !filter.leavesOut path

end FileFilter

end LiteralAudit
