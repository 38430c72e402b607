import LiteralAudit.CommandLine.Usage
import LiteralAudit.Run

/-!
# The program

Reads what a run may look at into a file tree, runs on it, prints what the run says, and writes
the report to its file.
-/

namespace LiteralAudit.Program

/-- The names that lead to an absolute path. -/
def locationOf (path : String) : Location :=
  (splitSlashes path.toUTF8.toList).filter fun piece => !piece.isEmpty

/-- The tree of the directory that a path leads to.  Links lead to where they end, and what cannot
be read is left out. -/
partial def readTree (path : String) : IO FileTree := do
  let mut entries : DirectoryEntries := []
  for entry in ← (← IO.FS.realPath path).readDir do
    let name := entry.fileName.toUTF8.toList
    let metadata ← entry.path.symlinkMetadata
    let tree? ← (match metadata.type with
      | .dir => some <$> readTree entry.path.toString
      | .file => do return some (.file (← IO.FS.readBinFile entry.path).toList)
      | .symlink => do
          return some (.link ⟨(← IO.FS.realPath entry.path).toString.toUTF8.toList⟩)
      | .other => return none : IO (Option FileTree)).toBaseIO
    if let .ok (some tree) := tree? then
      entries := entries ++ [(name, tree)]
  return .directory entries

/-- The tree with what is at a path without links. -/
def addReal (tree : FileTree) (path : String) : IO FileTree := do
  let real ← IO.FS.realPath path
  match (← real.metadata).type with
  | .dir => return tree.put (locationOf path) (← readTree path)
  | .file => return tree.put (locationOf path) (.file (← IO.FS.readBinFile real).toList)
  | _ => return tree

/-- The tree with what some steps lead to from a directory. -/
def addSteps (tree : FileTree) (directory : String) : List String → IO FileTree
  | [] => addReal tree directory
  | step :: steps => do
      let candidate := (← IO.FS.realPath directory) / step
      let real ← IO.FS.realPath candidate
      let place := locationOf candidate.toString
      if step ∈ ["", ".", ".."] then addSteps tree real.toString steps
      else if (← candidate.symlinkMetadata).type matches .symlink then
        addSteps (tree.put place (.link ⟨real.toString.toUTF8.toList⟩)) real.toString steps
      else
        let tree := if (tree.get? place).isSome then tree else tree.put place .emptyDirectory
        addSteps tree candidate.toString steps

/-- The tree with what is at a path, if there is anything. -/
def addPath (tree : FileTree) (path : String) : IO FileTree := do
  let working := (← IO.currentDir).toString
  let start := if path.startsWith "/" then "/" else working
  match ← (addSteps tree start (path.splitOn "/")).toBaseIO with
  | .ok tree => return tree
  | .error _ => return tree

/-- The paths that a command line may look at. -/
def pathsOf (line : CommandLine) : List Path :=
  match line.command with
  | .yaml request => request.paths ++ request.config.toList
  | .audit request => request.path :: request.config.toList ++ request.tokens.toList

/-- The files of settings of the user that a run may look at. -/
def userFiles (user : UserPlaces) : List Path :=
  (user.settings?.map (·.under (.ofText ConfigPlace.userName))).toList ++
    GlobalIgnore.configurations user

/-- The tokens file that a configuration names. -/
def configuredTokens (world : World) (line : CommandLine) : List Path :=
  let path := match line.command with
    | .yaml request => request.config
    | .audit request => request.config
  match world.loadConfig line path with
  | .ok loaded => loaded.config.audit.tokens.toList
  | .error _ => []

/-- The world that a command line may look at. -/
def worldOf (line : CommandLine) : IO World := do
  let working := (← IO.currentDir).toString
  let valueOf? (name : String) : IO (Option Path) := do
    return (← IO.getEnv name).map fun value => ⟨value.toUTF8.toList⟩
  -- The bounds on globs are those of the machine that matches them, and not known here.
  let surroundings : Surroundings :=
    { home := ← valueOf? "HOME"
      configHome := ← valueOf? "XDG_CONFIG_HOME"
      globLimit := .unlimited }
  let noColor := (← IO.getEnv "NO_COLOR").isSome
  let shown (path : Path) : String := String.ofList path.display
  let addAll (tree : FileTree) (paths : List Path) : IO FileTree :=
    paths.foldlM (fun tree path => addPath tree (shown path)) tree
  let tree := FileTree.emptyDirectory.put (locationOf working) .emptyDirectory
  let user := surroundings.toUserPlaces
  let tree ← addAll tree (userFiles user)
  let tree ← addAll tree (GlobalIgnore.path? ⟨tree, locationOf working⟩ user).toList
  let tree ← addPath tree (String.ofList ConfigPlace.localName)
  let tree ← addAll tree (pathsOf line)
  let world : World :=
    { files := ⟨tree, locationOf working⟩
      surroundings
      colorsReport := (← (← IO.getStdout).isTty) && !noColor
      colorsNotices := (← (← IO.getStderr).isTty) && !noColor }
  let tree ← addAll tree (configuredTokens world line)
  return { world with files := ⟨tree, locationOf working⟩ }

/-- Writes the report of a run to its file. -/
def writeReport (line : CommandLine) (result : RunResult) : IO Unit := do
  if result.exitCode = failureCode then return
  match line.outputPath with
  | none => return
  | some path =>
      match result.files.read path with
      | .error _ => return
      | .ok bytes =>
          if let some parent := path.parent? then
            if !parent.bytes.isEmpty then IO.FS.createDirAll (String.ofList parent.display)
          IO.FS.writeBinFile (String.ofList path.display) ⟨bytes.toArray⟩

/-- Carries out a command line. -/
def run (line : CommandLine) : IO UInt32 := do
  let world ← worldOf line
  let result := line.run world
  let colored := line.color.isColored world.colorsNotices
  IO.eprint (String.ofList (result.noticeText colored))
  IO.print (String.ofList result.output)
  match ← (writeReport line result).toBaseIO with
  | .ok () => return result.exitCode.toUInt32
  | .error error =>
      let failure := Failure.io (.other (toString error).toList)
      IO.eprint (String.ofList (failure.notice.render colored))
      return failureCode.toUInt32

end LiteralAudit.Program

/-- Reads the arguments and carries them out. -/
def main (arguments : List String) : IO UInt32 := do
  match LiteralAudit.CommandLine.read (arguments.map fun argument => argument.toUTF8.toList) with
  | .ok line => LiteralAudit.Program.run line
  | .error fault =>
      let message := String.ofList fault.message
      if fault.exitCode = 0 then IO.print message else IO.eprint message
      return fault.exitCode.toUInt32
