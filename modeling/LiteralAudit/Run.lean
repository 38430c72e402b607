import LiteralAudit.CommandLine.Reading
import LiteralAudit.Run.Audit
import LiteralAudit.Run.Yaml

/-!
# Runs

A run carries out a command line: it runs the command, delivers the report, and ends with an exit
code.  Zero means that there is nothing to complain about, one that there is, and two that the
run failed.
-/

namespace LiteralAudit

/-- What a run leaves behind. -/
structure RunResult where
  /-- The exit code. -/
  exitCode : Nat
  /-- What is printed as the report. -/
  output : Text
  /-- The notices, in their order. -/
  notices : List Notice
  /-- The files. -/
  files : FileSystem

namespace RunResult

/-- The notices as they are printed. -/
def noticeText (result : RunResult) (colored : Bool) : Text :=
  result.notices.flatMap (·.render colored)

end RunResult

namespace CommandLine

/-- The file that the report is written to. -/
def outputPath (line : CommandLine) : Option Path :=
  match line.command with
  | .yaml request => request.output
  | .audit request => request.output

/-- Runs the command. -/
def steps (line : CommandLine) (world : World) : Steps Finished :=
  match line.command with
  | .yaml request => YamlRun.run world line request
  | .audit request => AuditRun.run world line request

/-- Carries out a command line. -/
def run (line : CommandLine) (world : World) : RunResult :=
  let (notices, finished) := line.steps world
  let delivered := finished >>= fun finished =>
    (world.deliver line line.outputPath finished.report).map fun (files, output) =>
      RunResult.mk finished.exitCode output notices files
  match delivered with
  | .ok result => result
  | .error failure => ⟨failureCode, [], notices ++ [failure.notice], world.files⟩

end CommandLine

end LiteralAudit
