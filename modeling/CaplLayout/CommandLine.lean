import CaplLayout.Config
import CaplLayout.Run.Controller

/-!
# The command line

Arguments are options and patterns in any order. An option has a name of two dashes and,
unless it is a flag, a value: the next argument, or what follows an equals sign. Two flags
have a short name of one dash and a letter, and short names may be joined. Behind `--` all
arguments are patterns. Of a repeated option the last one counts, and only its value is read.

`run` reads the arguments, loads the configuration and carries the run out. Options given on
the command line win over those of the configuration.
-/

set_option autoImplicit false

namespace CaplLayout

namespace CommandLine

/-- What the arguments say; numbers are not read yet. -/
structure Arguments where
  patterns : List String := []
  write : Bool := false
  listDifferent : Bool := false
  stdin : Bool := false
  stdinFilepath : Option String := none
  debugCheck : Bool := false
  debugPrintDoc : Bool := false
  withDependencyDirs : Bool := false
  config : String := ".capl-format.toml"
  printWidth : Option String := none
  indentSize : Option String := none
  useTabs : Option Bool := none
  quoteStyle : Option String := none
  parser : Option String := none
  cursorOffset : Option String := none
  rangeStart : Option String := none
  rangeEnd : Option String := none
  verbose : Bool := false
deriving DecidableEq, Repr, Inhabited

/-! ## Options -/

/-- What a flag says. -/
def flag? : String → Option (Arguments → Arguments)
  | "--write" => some fun a => { a with write := true }
  | "--list-different" => some fun a => { a with listDifferent := true }
  | "--stdin" => some fun a => { a with stdin := true }
  | "--debug-check" => some fun a => { a with debugCheck := true }
  | "--debug-print-doc" => some fun a => { a with debugPrintDoc := true }
  | "--with-dependency-dirs" => some fun a => { a with withDependencyDirs := true }
  | "--use-tabs" => some fun a => { a with useTabs := some true }
  | "--no-use-tabs" => some fun a => { a with useTabs := some false }
  | "--verbose" => some fun a => { a with verbose := true }
  | _ => none

/-- What an option with a value says. -/
def valued? : String → Option (String → Arguments → Arguments)
  | "--stdin-filepath" => some fun v a => { a with stdinFilepath := some v }
  | "--config" => some fun v a => { a with config := v }
  | "--print-width" => some fun v a => { a with printWidth := some v }
  | "--indent-size" => some fun v a => { a with indentSize := some v }
  | "--quote-style" => some fun v a => { a with quoteStyle := some v }
  | "--parser" => some fun v a => { a with parser := some v }
  | "--cursor-offset" => some fun v a => { a with cursorOffset := some v }
  | "--range-start" => some fun v a => { a with rangeStart := some v }
  | "--range-end" => some fun v a => { a with rangeEnd := some v }
  | _ => none

/-- What joined short names say. -/
def shortFlags (a : Arguments) : Text → Option Arguments
  | [] => some a
  | 'l' :: r => shortFlags { a with listDifferent := true } r
  | 'v' :: r => shortFlags { a with verbose := true } r
  | _ :: _ => none

/-- Whether an argument is an option; a dash alone is a pattern. -/
def isOption (arg : Text) : Bool := arg.head? == some '-' && arg.length != 1

/-- The name in front of an equals sign, and the value behind it if there is the sign. -/
def splitValue (arg : Text) : String × Option String :=
  let name := arg.takeWhile (· != '=')
  let value :=
    match arg.drop name.length with
    | [] => none
    | _ :: v => some (String.ofList v)
  (String.ofList name, value)

/-- An argument that is a flag, or several short ones. -/
def readFlag (a : Arguments) (arg : Text) : Option Arguments :=
  match splitValue arg with
  | (name, value) =>
    match flag? name, value with
    | some set, none => some (set a)
    | some _, some _ => none
    | none, _ => if arg.take 2 = ['-', '-'] then none else shortFlags a (arg.drop 1)

/-- Reads arguments; `none` if they cannot be used. -/
def readAll (a : Arguments) : List String → Option Arguments
  | [] => some a
  | arg :: r =>
    if arg = "--" then some { a with patterns := a.patterns ++ r }
    else if !isOption arg.toList then readAll { a with patterns := a.patterns ++ [arg] } r
    else
      match splitValue arg.toList with
      | (name, value) =>
        match valued? name, value, r with
        | some set, some v, r => readAll (set v a) r
        | some set, none, v :: r => readAll (set v a) r
        | some _, none, [] => none
        | none, _, r => (readFlag a arg.toList).bind fun a => readAll a r
termination_by args => args.length

/-! ## Settings of a run -/

/-- The number that an option gives, if the option is given; `none` if it is no number. -/
def number : Option String → Option Value
  | none => some .null
  | some s => (Integer.readWhole s.toList).map Value.int

/-- The text that an option gives. -/
def text : Option String → Value
  | none => .null
  | some s => .str s

/-- The truth value that an option gives. -/
def truth : Option Bool → Value
  | none => .null
  | some b => .bool b

namespace Arguments

/-- The format options that the arguments give. -/
def formatOptions (a : Arguments) : Option Options := do
  let printWidth ← number a.printWidth
  let indentSize ← number a.indentSize
  let cursorOffset ← number a.cursorOffset
  let rangeStart ← number a.rangeStart
  let rangeEnd ← number a.rangeEnd
  some [
    ("print_width", printWidth),
    ("indent_size", indentSize),
    ("use_tabs", truth a.useTabs),
    ("quote_style", text a.quoteStyle),
    ("parser", text a.parser),
    ("cursor_offset", cursorOffset),
    ("range_start", rangeStart),
    ("range_end", rangeEnd),
    ("filepath", if a.stdin then text a.stdinFilepath else .null)]

/-- The options of the run that the arguments ask for. -/
def runOptions (a : Arguments) (c : Config) : RunOptions :=
  { patterns := a.patterns
    write := a.write
    listDifferent := a.listDifferent
    ignoreDependencyDirs := !a.withDependencyDirs
    dependencyDirs := c.ignoreDirs
    stdin := a.stdin
    debugCheck := a.debugCheck
    debugPrintDoc := a.debugPrintDoc }

end Arguments

/-! ## Running -/

/-- What ends the command without an exit code of its own. -/
inductive Crash
  /-- The arguments cannot be used. -/
  | usage
  | config (e : ConfigError)
  | stop (s : Stop)
deriving Repr, Inhabited

/-- What the command tells about a configuration that has been loaded. -/
def loadedLog (console : Console) (c : Config) : List Piece :=
  match c.loadedFrom with
  | none => []
  | some path =>
    console.log ("Loaded " ++ toString c.options.length ++ " option(s) from "
      ++ String.ofList path)

/-- Carries out a run whose configuration is loaded. A run that has been given up is a fatal
error. -/
def runLoaded (grammar : Grammar) (console : Console) (a : Arguments) (given : Options)
    (c : Config) (s : Session) (stdin : List UInt8) : Session × Except Crash ExitCode :=
  let p := Processor.ofRun (a.runOptions c) (Options.merge [c.options, given])
    (Engine.standard grammar) console
  match p.runAll (s.print (loadedLog console c)) stdin with
  | (s, .ok code) => (s, .ok code)
  | (s, .error (.aborted _)) => (s, .ok .fatal)
  | (s, .error stop) => (s, .error (.stop stop))

/-- Carries out a run that the arguments describe. -/
def runRead (grammar : Grammar) (terminal : Bool) (a : Arguments) (given : Options)
    (s : Session) (stdin : List UInt8) : Session × Except Crash ExitCode :=
  let console : Console := ⟨terminal, a.verbose⟩
  if a.config.toList.contains FileSystem.null then (s, .error (.stop .nullCharacter))
  else if a.patterns.isEmpty && !a.stdin then
    (s.print (console.echoLine .err "Error: Provide files or use --stdin"), .ok .failure)
  else
    match Config.load s.files (some a.config) with
    | .ok c => runLoaded grammar console a given c s stdin
    | .error e =>
      if e.isReported then (s.print (console.echoLine .err e.message), .ok .fatal)
      else (s, .error (.config e))

/-- Carries out the command with the given arguments. -/
def run (grammar : Grammar) (terminal : Bool) (s : Session) (args : List String)
    (stdin : List UInt8) : Session × Except Crash ExitCode :=
  match readAll {} args with
  | none => (s, .error .usage)
  | some a =>
    match a.formatOptions with
    | none => (s, .error .usage)
    | some given => runRead grammar terminal a given s stdin

end CommandLine

end CaplLayout
