import CaplLayout.Run.Process
import CaplLayout.Run.Selection

/-!
# Runs

A run processes its standard input or every file that its patterns select, and returns the
exit code that its session has reached. Options that cannot be used together stop it before
it starts.
-/

set_option autoImplicit false

namespace CaplLayout

namespace Processor

/-- The processor of a run. -/
def ofRun (run : RunOptions) (format : Options) (engine : Engine) (console : Console) :
    Processor :=
  { run := run, format := format, formatter := formatterFor run engine, console := console }

/-- Which files the options of the run select. -/
def selection (p : Processor) : Selection :=
  ⟨p.run.ignoreDependencyDirs, p.run.dependencyDirs⟩

/-- Processes a file and logs its outcome. -/
def visit (p : Processor) (s : Session) (filename : String) : Session × Option Stop :=
  match p.process s filename with
  | (s, .error stop) => (s, some stop)
  | (s, .ok outcome) => (s.print (p.console.log (filename ++ ": " ++ outcome.name)), none)

/-- The exit code of a session, unless the run has been stopped. -/
def finish : Session × Option Stop → Step ExitCode
  | (s, some stop) => (s, .error stop)
  | (s, none) => (s, .ok s.exit)

/-- Processes the standard input. -/
def runStdin (p : Processor) (s : Session) (stdin : List UInt8) : Step ExitCode :=
  match Utf8.decode stdin with
  | .error e =>
    let s := (s.print (p.console.echoLine .err ("Unable to read file: stdin\n" ++ e.message)))
    let s := s.escalate .failure
    (s, .ok s.exit)
  | .ok source =>
    match p.processSource s source.unifyTerminators "stdin" with
    | (s, .error stop) => (s, .error stop)
    | (s, .ok _) => (s, .ok s.exit)

/-- Processes the files that the patterns of the run select. -/
def runFiles (p : Processor) (s : Session) : Step ExitCode :=
  finish (p.selection.visitPatterns p.console p.visit s p.run.patterns)

/-- Carries a run out. -/
def runAll (p : Processor) (s : Session) (stdin : List UInt8) : Step ExitCode :=
  match p.run.conflict with
  | some message => (s.print (p.console.echoLine .err message), .error (.aborted message))
  | none => if p.run.stdin then p.runStdin s stdin else p.runFiles s

end Processor

end CaplLayout
