import CaplLayout.Settings.Value

/-!
# Options of a run

What a run does with its inputs, apart from how they are formatted. The format options of a
run apply to all of its files; each file adds its own path to them.
-/

set_option autoImplicit false

namespace CaplLayout

/-- The directory names that are passed over unless others are given. -/
def defaultDependencyDirs : List String := ["node_modules"]

/-- What a run does with its inputs. -/
structure RunOptions where
  /-- The files to process, as paths and patterns. -/
  patterns : List String := []
  /-- Whether formatted files are written back. -/
  write : Bool := false
  /-- Whether only the names of files that are not formatted are printed. -/
  listDifferent : Bool := false
  /-- Whether files below dependency directories are passed over. -/
  ignoreDependencyDirs : Bool := true
  /-- The names of dependency directories. -/
  dependencyDirs : List String := defaultDependencyDirs
  /-- Whether the input is read from the standard input. -/
  stdin : Bool := false
  /-- Whether the formatter checks itself. -/
  debugCheck : Bool := false
  /-- Whether the document is printed. -/
  debugPrintDoc : Bool := false
deriving DecidableEq, Repr, Inhabited

namespace RunOptions

/-- Why two options cannot be used together, if they cannot. -/
def conflict (o : RunOptions) : Option String :=
  if o.write && o.debugCheck then some "Cannot use --write and --debug-check together."
  else if o.write && o.debugPrintDoc then
    some "Cannot use --write and --debug-print-doc together."
  else none

end RunOptions

namespace Options

/-- The format options for a file: its path takes the place of one that is given. -/
def forFile (o : Options) (path : Option String) : Options :=
  match path with
  | none => o
  | some p => o.put "filepath" (.str p)

/-- Whether the cursor is to be followed. -/
def cursorRequested (o : Options) : Bool :=
  match o.get? "cursor_offset" with
  | none | some .null => false
  | some _ => true

end Options

end CaplLayout
