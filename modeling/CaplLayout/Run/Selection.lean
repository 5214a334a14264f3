import CaplLayout.Files.Glob
import CaplLayout.Run.Options
import CaplLayout.Run.Session

/-!
# Selecting files

A pattern without wildcards stands for one path, whether or not there is a file; it is
passed over if the path, seen from the root, goes through a dependency directory. A pattern
with wildcards stands for the files that it finds, in ascending order; those are passed over
whose path as found goes through a dependency directory. A pattern that cannot be searched
for is reported and stands for nothing.
-/

set_option autoImplicit false

namespace CaplLayout

/-- Which files are passed over. -/
structure Selection where
  ignore : Bool := true
  dependencyDirs : List String := []
deriving DecidableEq, Repr, Inhabited

namespace Selection

/-- Whether a path goes through a dependency directory that is passed over. -/
def passesOver (sel : Selection) (p : Path) : Bool :=
  sel.ignore && p.parts.any fun n => sel.dependencyDirs.contains (String.ofList n)

/-- Whether the file at a path is passed over, by its path from the root. -/
def isIgnored (sel : Selection) (fs : FileSystem) (path : String) : Bool :=
  sel.passesOver (fs.absolute path.toList)

/-- Whether a path is that of a file that is not passed over. -/
def admits (sel : Selection) (fs : FileSystem) (path : Text) : Bool :=
  fs.isFile path && !sel.passesOver (Path.ofText path)

/-- The files that a pattern with wildcards finds. -/
def expand (sel : Selection) (fs : FileSystem) (pattern : String) :
    Except AccessError (List String) :=
  (Glob.search fs pattern.toList).map fun found =>
    ((found.filter (sel.admits fs)).map String.ofList).mergeSort fun a b => decide (a ≤ b)

/-- Calls `visit` for paths, one after the other, until it stops. -/
def visitAll (visit : Session → String → Session × Option Stop) :
    Session → List String → Session × Option Stop
  | s, [] => (s, none)
  | s, p :: r =>
    match visit s p with
    | (s, some stop) => (s, some stop)
    | (s, none) => visitAll visit s r

/-- Calls `visit` for the paths that a pattern stands for. -/
def visitPattern (sel : Selection) (console : Console)
    (visit : Session → String → Session × Option Stop) (s : Session) (pattern : String) :
    Session × Option Stop :=
  if !Glob.hasMagic pattern.toList then
    if sel.isIgnored s.files pattern then (s.print (console.log ("Ignoring " ++ pattern)), none)
    else visit s pattern
  else
    match sel.expand s.files pattern with
    | .error e =>
      let message := "Unable to expand glob pattern: " ++ pattern ++ "\n" ++ e.text
      ((s.print (console.echoLine .err message)).escalate .failure, none)
    | .ok found =>
      let count := "Pattern " ++ pattern ++ " matched " ++ toString found.length ++ " file(s)"
      visitAll visit (s.print (console.log count)) found

/-- Calls `visit` for the paths that patterns stand for, in the order of the patterns. -/
def visitPatterns (sel : Selection) (console : Console)
    (visit : Session → String → Session × Option Stop) (s : Session)
    (patterns : List String) : Session × Option Stop :=
  visitAll (sel.visitPattern console visit) s patterns

end Selection

end CaplLayout
