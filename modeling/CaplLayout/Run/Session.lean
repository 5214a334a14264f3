import CaplLayout.Console
import CaplLayout.ExitCode
import CaplLayout.Failure
import CaplLayout.Files.Basic

/-!
# Sessions

What a run changes while it goes on: the file system, the exit code, what has been printed
and which files have been written. A step of a run takes a session to the next one and
either has a result or stops the run.
-/

set_option autoImplicit false

namespace CaplLayout

/-- What a run changes. -/
structure Session where
  files : FileSystem
  exit : ExitCode := .success
  output : List Piece := []
  /-- The files that have been written, each by its names from the root. -/
  written : List (List Text) := []
deriving Repr, Inhabited

/-- What stops a run before its end. -/
inductive Stop
  /-- The run has been given up, with the exit code for fatal errors. -/
  | aborted (message : String)
  /-- A path holds the null character. -/
  | nullCharacter
deriving DecidableEq, Repr, Inhabited

namespace Session

/-- Prints. -/
def print (s : Session) (pieces : List Piece) : Session := { s with output := s.output ++ pieces }

/-- Raises the exit code. -/
def escalate (s : Session) (code : ExitCode) : Session := { s with exit := s.exit.escalate code }

/-- What has been printed to a stream. -/
def printed (s : Session) (stream : Stream) : Text := Piece.printed stream s.output

/-- Reports a failure of the input `label`. A failure that concerns the options stops the
run; any other is an exit code. -/
def report (s : Session) (console : Console) (label : String) (f : Failure) :
    Session × Option Stop :=
  match f with
  | .validation m => (s.print (console.echoLine .err m), some (.aborted m))
  | .parse .. =>
    (((s.print (console.echoLine .err (label ++ ": " ++ f.text))).print
      (console.log (label ++ " failed with " ++ f.kindName))).escalate .failure, none)
  | _ =>
    (((s.print (console.echoLine .err (label ++ ": " ++ f.detail))).print
      (console.log (label ++ " failed with " ++ f.kindName))).escalate .failure, none)

end Session

end CaplLayout
