import CaplLayout.Rule.Basic

/-!
# White space cleanup

The first built-in rule removes blanks at the ends of lines, removes empty lines at the start
of the text, shortens runs of empty lines to one, and makes the text end in one line feed.
-/

set_option autoImplicit false

namespace CaplLayout.Whitespace

/-! ## Blanks at the ends of lines -/

/-- The blanks at the end of a line that starts at `start`, as an edit that removes them. -/
def trailingEdit (start : Nat) (line : Text) : List Edit :=
  let kept := Text.trimEnd Text.isBlank line
  if kept.length = line.length then []
  else [⟨start + kept.length, start + line.length, [], 0⟩]

/-- Removes the blanks at the end of each line, when the first line starts at `start`. -/
def trailingEdits (start : Nat) : List Text → List Edit
  | [] => []
  | l :: r => trailingEdit start l ++ trailingEdits (start + l.length + 1) r

/-! ## Runs of line feeds -/

/-- A run of line feeds: where it starts and how long it is. -/
structure Run where
  start : Nat
  length : Nat
deriving DecidableEq, Repr

/-- The runs of line feeds, with `length` line feeds directly before the text, which starts
at `offset`. -/
def runsFrom (offset length : Nat) : Text → List Run
  | [] => if length = 0 then [] else [⟨offset - length, length⟩]
  | c :: r =>
    if c = '\n' then runsFrom (offset + 1) (length + 1) r
    else
      let rest := runsFrom (offset + 1) 0 r
      if length = 0 then rest else ⟨offset - length, length⟩ :: rest

/-- All longest runs of line feeds of a text. -/
def runs (source : Text) : List Run := runsFrom 0 0 source

/-- The edit that puts `text` in the place of a run. -/
def Run.replaceBy (r : Run) (text : Text) (priority : Int) : Edit :=
  ⟨r.start, r.start + r.length, text, priority⟩

/-- Removes the line feeds that the text starts with. -/
def leadingEdits (source : Text) : List Edit :=
  let n := (source.takeWhile (· == '\n')).length
  if n = 0 then [] else [⟨0, n, [], 0⟩]

/-- Leaves two line feeds of each longer run. -/
def squeezeEdits (source : Text) : List Edit :=
  ((runs source).filter fun r => 3 ≤ r.length).map fun r => r.replaceBy ['\n', '\n'] 1

/-- Leaves one line feed at the end of the text, or puts one there. -/
def finalEdits (source : Text) : List Edit :=
  let n := (source.reverse.takeWhile (· == '\n')).length
  if 2 ≤ n then [⟨source.length - n, source.length, ['\n'], 0⟩]
  else if n = 0 ∧ source ≠ [] then [⟨source.length, source.length, ['\n'], 0⟩]
  else []

/-- The edits of the rule, in the order in which it finds them. -/
def edits (source : Text) : List Edit :=
  trailingEdits 0 source.lines ++ leadingEdits source ++ squeezeEdits source
    ++ finalEdits source

/-- The rule. -/
def rule : Rule := Rule.ofEdits "F001" "whitespace-cleanup" fun _ source => edits source

end CaplLayout.Whitespace
