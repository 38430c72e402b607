import LiteralAudit.Scan.Filter
import LiteralAudit.Scan.GlobalIgnore

/-!
# Scanning directories

A scan gives the wanted files below a root, in the order of their paths.  Directories that the
filter does not enter are left out with all that is in them.  Links below the root are neither
followed nor given.

A scan may respect ignore files.  Each directory can have three of them, and the one of the user
stands behind all.  The kind of file decides first and the depth of its directory second: a rule
in a file `.ignore` outweighs one in a `.gitignore` further down.  Such a scan goes through every
directory that is not ignored, and asks only when it has found a file whether the filter enters the
directories around it.
-/

namespace LiteralAudit

/-- The ignore files of a directory. -/
structure IgnoreLevel where
  /-- The file that is meant for every tool. -/
  own : IgnoreFile
  /-- The file of the version control. -/
  shared : IgnoreFile
  /-- The file of the version control that is not shared. -/
  unshared : IgnoreFile

namespace IgnoreLevel

/-- The ignore file of a name in a directory.  `location` is where the directory is and `path` how
it is spelled. -/
def file (tree : FileTree) (location : Location) (path : Path) (name : Text) : IgnoreFile :=
  match FileSystem.read ⟨tree, location⟩ (Path.ofText name) with
  | .ok bytes => .ofBytes path bytes
  | .error _ => .empty path

/-- The ignore files in a directory. -/
def read (tree : FileTree) (location : Location) (path : Path) : IgnoreLevel where
  own := file tree location path ".ignore"
  shared := file tree location path ".gitignore"
  unshared := file tree location path ".git/info/exclude"

/-- The rule that decides about a path.  The levels are those of the directories around it, the
innermost one first. -/
def rule? (levels : List IgnoreLevel) (user : IgnoreFile) (path : Path) (isDirectory : Bool) :
    Option IgnoreRule :=
  let path := IgnoreFile.dropHere path
  levels.findSome? (·.own.rule? path isDirectory) <|>
    levels.findSome? (·.shared.rule? path isDirectory) <|>
    levels.findSome? (·.unshared.rule? path isDirectory) <|>
    user.rule? path isDirectory

end IgnoreLevel

namespace FileFilter

/-! ## Walking without ignore files -/

mutual

/-- The wanted files of a tree at a path. -/
def files (filter : FileFilter) (path : Path) : FileTree → List Path
  | .file _ => if filter.wants path then [path] else []
  | .link _ => []
  | .directory entries => if filter.enters path then filesOfEntries filter path entries else []

/-- The wanted files of the entries of a directory. -/
def filesOfEntries (filter : FileFilter) (path : Path) : DirectoryEntries → List Path
  | [] => []
  | (name, tree) :: entries =>
      files filter (path.child name) tree ++ filesOfEntries filter path entries

end

/-- Whether each directory on the way up from a path to a root is entered, both ends left out. -/
def entersUpTo (filter : FileFilter) (root path : Path) : Bool :=
  ((path.ancestors.drop 1).takeWhile fun directory =>
    !directory.same root && Path.startsWith root directory).all filter.enters

end FileFilter

/-! ## Walking with ignore files -/

/-- What is left out of a tree by ignore files. -/
structure IgnoreWalk where
  /-- The ignore files in a directory. -/
  level : Location → Path → IgnoreLevel
  /-- The ignore file of the user. -/
  user : IgnoreFile

namespace IgnoreWalk

/-- The walk with the ignore files of a tree and of the user. -/
def ofSystem (system : FileSystem) (user : UserPlaces) : IgnoreWalk where
  level := IgnoreLevel.read system.tree
  user := GlobalIgnore.file system user

/-- Whether a path is left out by an ignore file. -/
def ignores (walk : IgnoreWalk) (levels : List IgnoreLevel) (path : Path) (isDirectory : Bool) :
    Bool :=
  (IgnoreLevel.rule? levels walk.user path isDirectory).any fun rule => !rule.keeps

mutual

/-- The files of a tree below the root that are not left out.  `levels` are the ignore files of the
directories around it. -/
def files (walk : IgnoreWalk) (levels : List IgnoreLevel) (location : Location) (path : Path) :
    FileTree → List Path
  | .file _ => if walk.ignores levels path false then [] else [path]
  | .link _ => []
  | .directory entries =>
      if walk.ignores levels path true then []
      else filesOfEntries walk (walk.level location path :: levels) location path entries

/-- The files of the entries of a directory that are not left out. -/
def filesOfEntries (walk : IgnoreWalk) (levels : List IgnoreLevel) (location : Location)
    (path : Path) : DirectoryEntries → List Path
  | [] => []
  | (name, tree) :: entries =>
      files walk levels (location ++ [name]) (path.child name) tree ++
        filesOfEntries walk levels location path entries

end

end IgnoreWalk

/-! ## Scanning -/

/-- Paths in their order. -/
def sortPaths (paths : List Path) : List Path :=
  paths.mergeSort fun a b => a.compare b != .gt

/-- How directories are scanned. -/
structure Scanner where
  /-- Which files are wanted and which directories are entered. -/
  filter : FileFilter
  /-- Whether ignore files are respected. -/
  respectsIgnoreFiles : Bool

namespace Scanner

/-- The wanted files of a tree at a root, as they are found.  A root that is a link to a file is no
file. -/
def plainFiles (filter : FileFilter) (system : FileSystem) (root : Path) : FileTree → List Path
  | .directory entries => filter.filesOfEntries root entries
  | .file _ => if filter.wants root && !system.holdsLink root then [root] else []
  | .link _ => []

/-- Whether a root means the standard input to a scan that respects ignore files. -/
def meansStandardInput (root : Path) : Bool := root.same ⟨[0x2d]⟩

/-- The files of a tree at a root that no ignore file leaves out, as they are found. -/
def keptFiles (walk : IgnoreWalk) (location : Location) (root : Path) : FileTree → List Path
  | .directory entries => walk.filesOfEntries [walk.level location root] location root entries
  | .file _ => [root]
  | .link _ => []

/-- The wanted files of a tree at a root, as they are found, with ignore files respected.  The
filter is asked about a file that was found and about the directories on the way up to the root. -/
def respectfulFiles (filter : FileFilter) (system : FileSystem) (user : UserPlaces)
    (location : Location) (root : Path) (tree : FileTree) : List Path :=
  if meansStandardInput root then []
  else
    ((keptFiles (.ofSystem system user) location root tree).filter
      (filter.entersUpTo root)).filter filter.wants

/-- The wanted files below a root, in their order.  A root that is a file is the only one. -/
def scan (scanner : Scanner) (system : FileSystem) (user : UserPlaces) (root : Path) : List Path :=
  match system.place? root with
  | .error _ => []
  | .ok location =>
      match system.tree.get? location with
      | none => []
      | some tree =>
          if tree.isDirectory && !scanner.filter.enters root then []
          else
            sortPaths <|
              if scanner.respectsIgnoreFiles then
                respectfulFiles scanner.filter system user location root tree
              else plainFiles scanner.filter system root tree

end Scanner

end LiteralAudit
