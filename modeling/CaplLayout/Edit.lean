import CaplLayout.Text.Basic

/-!
# Edits

An edit replaces a span of a text. Rules propose edits in any order and with overlapping
spans; `arrange` sorts them and drops each one that starts inside an edit kept before it,
`splice` carries the kept ones out, and `mapOffset` says where an offset of the old text
lies in the new one.

Positions are integers because a proposed edit may point anywhere; spans are then read as
slices of the text.
-/

set_option autoImplicit false

namespace CaplLayout

/-- Replaces the characters from `start` up to `stop` by `text`. Of two edits of the same
span, the one with the smaller priority comes first. -/
structure Edit where
  start : Int
  stop : Int
  text : Text
  priority : Int := 0
deriving DecidableEq, Repr, Inhabited

namespace Edit

/-- The order of edits: by start, then by end, then by priority. -/
def le (a b : Edit) : Bool :=
  if a.start ≠ b.start then a.start < b.start
  else if a.stop ≠ b.stop then a.stop < b.stop
  else a.priority ≤ b.priority

/-- By how much an edit lengthens the text. -/
def gain (e : Edit) : Int := e.text.length - (e.stop - e.start)

/-- The edits that do not start before the end of the last one kept. -/
def separate (last : Int) : List Edit → List Edit
  | [] => []
  | e :: r => if e.start < last then separate last r else e :: separate e.stop r

/-- The edits that are carried out, in order. -/
def arrange (edits : List Edit) : List Edit := separate 0 (edits.mergeSort le)

/-- The text from `last` on after edits that are in order and apart. -/
def splice (source : Text) (last : Int) : List Edit → Text
  | [] => source.sliceFrom last
  | e :: r => source.slice last e.start ++ e.text ++ splice source e.stop r

/-- The text after the arranged edits, and these. -/
def apply (source : Text) (edits : List Edit) : Text × List Edit :=
  let kept := arrange edits
  (splice source 0 kept, kept)

/-- Follows an offset through edits, of which those before have moved it by `shift`. An
offset inside a replaced span keeps its distance from the start of the span as far as the new
text reaches. -/
def mapFrom (shift : Int) (offset : Int) : List Edit → Int
  | [] => offset + shift
  | e :: r =>
    if e.stop ≤ offset then mapFrom (shift + e.gain) offset r
    else if e.start < offset then e.start + shift + min (offset - e.start) e.text.length
    else offset + shift

/-- Where an offset of the old text lies after the edits. -/
def mapOffset (edits : List Edit) (offset : Int) : Int := mapFrom 0 offset edits

theorem separate_sublist (last : Int) (edits : List Edit) :
    (separate last edits).Sublist edits := by
  induction edits generalizing last with
  | nil => exact List.Sublist.slnil
  | cons e r ih =>
      unfold separate
      split
      · exact (ih last).cons e
      · exact (ih e.stop).cons_cons e

theorem mapOffset_nil (offset : Int) : mapOffset [] offset = offset := by
  simp [mapOffset, mapFrom]

end Edit

end CaplLayout
