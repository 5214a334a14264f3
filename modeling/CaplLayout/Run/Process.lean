import CaplLayout.Formatter
import CaplLayout.Run.Options
import CaplLayout.Run.Session

/-!
# Processing one input

A file is read and formatted; then, as the options of the run say, it is written back if it
has changed, its name is listed, or the result is printed. Every input ends in an `Outcome`
unless it stops the run.
-/

set_option autoImplicit false

namespace CaplLayout

/-- What has happened to an input. -/
inductive Outcome
  | unchanged
  | written
  | reported
  | formatted
  | checked
  | readError
  | formatError
  | writeError
deriving DecidableEq, Repr, Inhabited

/-- The name of an outcome in log lines. -/
def Outcome.name : Outcome → String
  | .unchanged => "unchanged"
  | .written => "changed-and-written"
  | .reported => "changed-and-reported"
  | .formatted => "formatted"
  | .checked => "checked"
  | .readError => "read-error"
  | .formatError => "format-error"
  | .writeError => "write-error"

/-- How the inputs of a run are processed. -/
structure Processor where
  run : RunOptions
  format : Options
  formatter : Formatter
  console : Console := {}
  /-- The time that formatting a file takes, in tenths of a millisecond. -/
  elapsed : String → Nat := fun _ => 0

/-- What a step of a run comes to: a session, and a result or what stops the run. -/
abbrev Step (α : Type) := Session × Except Stop α

namespace Processor

/-- The formatter that the options of a run ask for. -/
def formatterFor (run : RunOptions) (engine : Engine) : Formatter :=
  { engine := engine
    mode := if run.debugPrintDoc then .document else if run.debugCheck then .selfCheck else .plain }

/-- A time in milliseconds, with one decimal place. -/
def exactTime (tenths : Nat) : String :=
  toString (tenths / 10) ++ "." ++ toString (tenths % 10) ++ "ms"

/-- A time in whole milliseconds, a half to the even one. -/
def roundedTime (tenths : Nat) : String :=
  let half := if tenths / 10 % 2 = 0 then 4 else 5
  toString ((tenths + half) / 10) ++ "ms"

/-- Ends an input in an error of reading or writing. -/
def refuse (p : Processor) (s : Session) (message : String) (o : Outcome) : Step Outcome :=
  ((s.print (p.console.echoLine .err message)).escalate .failure, .ok o)

/-- Ends an input in a failure of formatting. -/
def fail (p : Processor) (s : Session) (label : String) (f : Failure) : Step Outcome :=
  match s.report p.console label f with
  | (s, some stop) => (s, .error stop)
  | (s, none) => (s, .ok .formatError)

/-- The text of the file at a path, or why it cannot be read. -/
def readText (files : FileSystem) (path : Text) : Except AccessError (Except String Text) :=
  (files.read path).map fun bytes => (Utf8.decode bytes).mapError Utf8.Fault.message

/-- Prints a formatted text and, if asked for, the cursor. -/
def printResult (p : Processor) (s : Session) (result : Formatted) : Session :=
  let s := s.print (p.console.echo .out result.text)
  if p.format.cursorRequested then
    s.print (p.console.echoLine .err (toString (result.cursor.getD (-1))))
  else s

/-- Writes a formatted file back if it differs from its source. -/
def writeBack (p : Processor) (s : Session) (filename : String) (path source output : Text) :
    Step Outcome :=
  let timed := filename ++ " " ++ roundedTime (p.elapsed filename)
  if output = source then
    let s := if p.run.listDifferent then s
      else s.print (p.console.echoLine .out (Console.dim timed))
    (s, .ok .unchanged)
  else
    let s := s.print (p.console.echoLine .out (if p.run.listDifferent then filename else timed))
    let refused := fun e : AccessError =>
      p.refuse s ("Unable to write file: " ++ filename ++ "\n" ++ e.text) .writeError
    match s.files.openFile path with
    | .error e => refused e
    | .ok (names, _) =>
      match s.files.write path (Utf8.encode output) with
      | .error e => refused e
      | .ok files => ({ s with files := files, written := names :: s.written }, .ok .written)

/-- What becomes of a formatted file. -/
def dispose (p : Processor) (s : Session) (filename : String) (path source : Text)
    (result : Formatted) : Step Outcome :=
  if p.run.write then p.writeBack s filename path source result.text
  else if p.run.debugCheck then
    if result.text = [] then (s.escalate .failure, .ok .formatError)
    else (s.print (p.console.echo .out (result.text ++ ['\n'])), .ok .checked)
  else if p.run.listDifferent then
    (s, .ok (if result.text = source then .unchanged else .reported))
  else (p.printResult s result, .ok .formatted)

/-- Formats the text of a file and disposes of the result. -/
def formatFile (p : Processor) (s : Session) (filename : String) (path source : Text) :
    Step Outcome :=
  match p.formatter.format (p.format.forFile (some filename)) source with
  | .error f => p.fail s filename f
  | .ok result =>
    let s := s.print
      (p.console.log ("Formatted " ++ filename ++ " in " ++ exactTime (p.elapsed filename)))
    p.dispose s filename path source result

/-- Notes that a file is not formatted. -/
def noteDifferent (p : Processor) (s : Session) (filename : String) : Session :=
  let s := if p.run.write then s else s.print (p.console.echoLine .out filename)
  s.escalate .differences

/-- Processes the text of a file: when differences are listed, the file is checked first. -/
def processText (p : Processor) (s : Session) (filename : String) (path source : Text) :
    Step Outcome :=
  if p.run.listDifferent then
    match p.formatter.isFormatted (p.format.forFile (some filename)) source with
    | .error f => p.fail s filename f
    | .ok true => p.formatFile s filename path source
    | .ok false => p.formatFile (p.noteDifferent s filename) filename path source
  else p.formatFile s filename path source

/-- Processes a file. -/
def process (p : Processor) (s : Session) (filename : String) : Step Outcome :=
  let path := (Path.ofString filename).text
  let unreadable := fun reason : String =>
    p.refuse s ("Unable to read file: " ++ filename ++ "\n" ++ reason) .readError
  match readText s.files path with
  | .error .nullCharacter => (s, .error .nullCharacter)
  | .error e => unreadable e.text
  | .ok (.error reason) => unreadable reason
  | .ok (.ok source) => p.processText s filename path source

/-- Processes a text that comes from no file. -/
def processSource (p : Processor) (s : Session) (source : Text) (label : String) :
    Step Outcome :=
  match p.formatter.format p.format source with
  | .error f => p.fail s label f
  | .ok result => (p.printResult s result, .ok .formatted)

end Processor

end CaplLayout
