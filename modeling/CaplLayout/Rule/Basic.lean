import CaplLayout.Edit
import CaplLayout.Failure
import CaplLayout.Settings.Basic

/-!
# Rules

A rule looks at a whole text under given settings and proposes edits, or throws a fault. It
sees the text as the rules before it have left it.
-/

set_option autoImplicit false

namespace CaplLayout

/-- A formatting rule. -/
structure Rule where
  id : String
  name : String
  analyze : Settings → Text → Except Fault (List Edit)

/-- A rule that always has an answer. -/
def Rule.ofEdits (id name : String) (edits : Settings → Text → List Edit) : Rule :=
  ⟨id, name, fun settings source => .ok (edits settings source)⟩

end CaplLayout
