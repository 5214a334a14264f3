import CaplLayout.Rule.Basic
import CaplLayout.Scan

/-!
# Indentation

The second built-in rule indents every line to its nesting level. Lines without content and
lines that continue a comment or a string stay as they are.
-/

set_option autoImplicit false

namespace CaplLayout.Indentation

/-- The edit that indents a line, if it needs one. -/
def lineEdit (settings : Settings) (l : Line) : Option Edit :=
  match l.level with
  | none => none
  | some n =>
    let target := settings.indentOf n
    if l.content = [] ∨ l.indent = target then none
    else some ⟨l.start, l.indentEnd, target, 0⟩

/-- The edits of the rule, line by line. -/
def edits (settings : Settings) (source : Text) : List Edit :=
  (Line.ofSource source).filterMap (lineEdit settings)

/-- The rule. -/
def rule : Rule := Rule.ofEdits "F002" "indentation" edits

end CaplLayout.Indentation
