import CaplLayout.Settings.Check
import CaplLayout.Text.Space

/-!
# Faults and failures

A *fault* is what stops a formatting call: a syntax error of the source, options that do not
check, or whatever a rule throws. A *failure* is what a run makes of a fault: it is one of
four kinds, which differ in how they are reported and in whether the run goes on.
`Failure.ofFault` maps the first to the second; a failure that a rule throws stays what it
is.
-/

set_option autoImplicit false

namespace CaplLayout

/-! ## Failures -/

/-- What keeps one input from being processed. -/
inductive Failure
  | parse (message : String) (line column : Int)
  | validation (message : String)
  | io (path message : String)
  | unexpected (message : String) (detail : Option String)
deriving DecidableEq, Repr, Inhabited

namespace Failure

/-- The short form. -/
def message : Failure → String
  | .parse m _ _ => m
  | .validation m => m
  | .io _ m => m
  | .unexpected m _ => m

/-- The long form: that of an unexpected failure, unless it has none, and the short form of
all others. -/
def detail : Failure → String
  | .unexpected m (some d) => if d = "" then m else d
  | f => f.message

/-- A place in a source, in front of it the words for what is there. -/
def withPlace (message : String) (line column : Int) : String :=
  message ++ " (" ++ toString line ++ ":" ++ toString column ++ ")"

/-- The text of a failure: a parse failure tells its place. -/
def text : Failure → String
  | .parse m line column => withPlace m line column
  | f => f.message

/-- Whether a failure concerns the options and so every input of the run. -/
def isValidation : Failure → Bool
  | .validation _ => true
  | _ => false

/-- The name of a failure's kind. -/
def kindName : Failure → String
  | .parse .. => "ParseFailure"
  | .validation _ => "ValidationFailure"
  | .io .. => "IoFailure"
  | .unexpected .. => "UnexpectedFailure"

end Failure

/-! ## Faults -/

/-- The first place at which a source is not in order. -/
structure SyntaxError where
  message : String
  line : Int
  column : Int
deriving DecidableEq, Repr, Inhabited

namespace SyntaxError

/-- The words with the place. -/
def text (e : SyntaxError) : String := Failure.withPlace e.message e.line e.column

end SyntaxError

/-- The kinds of errors that a rule may throw. -/
inductive ErrorKind
  | runtime
  | value
  | key
  | system
  | missingFile
deriving DecidableEq, Repr, Inhabited

/-- An error that a rule throws, with the values it carries. -/
structure RuleError where
  kind : ErrorKind
  values : List Value
deriving Repr, Inhabited

namespace ErrorKind

/-- The name of a kind of error. -/
def name : ErrorKind → String
  | .runtime => "RuntimeError"
  | .value => "ValueError"
  | .key => "KeyError"
  | .system => "OSError"
  | .missingFile => "FileNotFoundError"

/-- Whether the operating system is the cause. -/
def isSystem : ErrorKind → Bool
  | .system | .missingFile => true
  | _ => false

end ErrorKind

namespace RuleError

/-- The text of the values: one alone shows as itself, several between parentheses. -/
def plainText : List Value → String
  | [] => ""
  | [v] => v.display
  | vs => Value.inspectTuple vs

/-- The text of a system error from its number and its words on. -/
def numbered (number words : Value) : String :=
  "[Errno " ++ number.display ++ "] " ++ words.display

/-- The text of a system error: from two to five values are a number, words, the file
concerned, a second number, which does not show, and a second file. -/
def systemText : List Value → String
  | [n, w] => numbered n w
  | [n, w, f] | [n, w, f, _] =>
    if f.isNull then numbered n w else numbered n w ++ ": " ++ f.inspect
  | [n, w, f, _, g] =>
    if f.isNull then numbered n w
    else if g.isNull then numbered n w ++ ": " ++ f.inspect
    else numbered n w ++ ": " ++ f.inspect ++ " -> " ++ g.inspect
  | vs => plainText vs

/-- The text of an error. -/
def text (e : RuleError) : String :=
  if e.kind.isSystem then systemText e.values
  else
    match e.kind, e.values with
    | .key, [v] => v.inspect
    | _, vs => plainText vs

/-- The names of the system errors that have one of their own, by number. -/
def systemNames : List (Int × String) :=
  [(1, "PermissionError"), (2, "FileNotFoundError"), (3, "ProcessLookupError"),
   (4, "InterruptedError"), (10, "ChildProcessError"), (11, "BlockingIOError"),
   (13, "PermissionError"), (17, "FileExistsError"), (20, "NotADirectoryError"),
   (21, "IsADirectoryError"), (32, "BrokenPipeError"), (103, "ConnectionAbortedError"),
   (104, "ConnectionResetError"), (108, "BrokenPipeError"), (110, "TimeoutError"),
   (111, "ConnectionRefusedError")]

/-- The name of an error: that of its number if it is a system error with two to five
values, and that of its kind otherwise. -/
def name (e : RuleError) : String :=
  match e.kind, e.values with
  | .system, .int n :: _ :: r =>
    if r.length ≤ 3 then (systemNames.lookup n).getD e.kind.name else e.kind.name
  | k, _ => k.name

/-- An error as an expression: its kind and its values. -/
def expression (e : RuleError) : String :=
  e.kind.name ++ "(" ++ Value.inspectItems e.values ++ ")"

/-- What a trace of an error begins with. -/
def traceHead : String := "Traceback (most recent call last):"

/-- The trace of an error that has been thrown: a head, and the error with its text. -/
def trace (e : RuleError) : String :=
  let last := if e.text = "" then e.kind.name else e.kind.name ++ ": " ++ e.text
  traceHead ++ "\n" ++ String.ofList (Text.trimEnd Text.isSpace last.toList)

end RuleError

/-- What stops a formatting call. -/
inductive Fault
  | syntaxError (e : SyntaxError)
  | invalidOptions (problems : List Problem)
  | failure (f : Failure)
  | rule (e : RuleError)
deriving Repr, Inhabited

namespace Failure

/-- The failure that an error of a rule is. One that has been thrown shows its trace. -/
def ofRuleError (path : String) (thrown : Bool) (e : RuleError) : Failure :=
  if e.kind.isSystem then .io path e.text
  else
    .unexpected (if e.text = "" then e.kind.name else e.text)
      (some (if thrown then e.trace else e.expression))

/-- The failure that a fault is when the file `path` is processed. -/
def ofFault (path : String) (thrown : Bool) : Fault → Failure
  | .failure f => f
  | .syntaxError e => .parse e.message e.line e.column
  | .invalidOptions problems => .validation (Problem.report problems)
  | .rule e => ofRuleError path thrown e

end Failure

end CaplLayout
