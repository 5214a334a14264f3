import CaplLayout.Text.Space

/-!
# Differences between texts

Two lists of lines are aligned by taking out the longest run of lines that both have, first
in the first list and then in the second, and aligning what is before and behind it in the
same way. In a long second list, a line that occurs very often starts no run, though a run
may grow over it.

The alignment is printed in hunks: each change with up to `context` unchanged lines around
it.
-/

set_option autoImplicit false

namespace CaplLayout.Diff

/-! ## The longest common run -/

/-- A run of lines that two lists have in common: its offset in either and its length. -/
structure Run where
  left : Nat
  right : Nat
  length : Nat
deriving DecidableEq, Repr

/-- For each line of the second list, the length of the common run that ends there and at the
line `x` of the first; `before` holds these lengths for the line before `x`. -/
def nextRow (starts : Text → Bool) (x : Text) : (last : Nat) → List Text → List Nat → List Nat
  | _, [], _ => []
  | last, y :: ys, before =>
    (if x = y ∧ starts y then last + 1 else 0)
      :: nextRow starts x (before.head?.getD 0) ys (before.drop 1)

/-- The longer of the best run so far and the runs that end at line `i` of the first list and
at the lines from `j` on of the second; of equally long ones the earliest. -/
def betterRun (best : Run) (i : Nat) : (j : Nat) → List Nat → Run
  | _, [] => best
  | j, k :: ks =>
    let best := if best.length < k then ⟨i + 1 - k, j + 1 - k, k⟩ else best
    betterRun best i (j + 1) ks

/-- The longest run that the lists have in common, from line `i` of the first list on. -/
def longestFrom (starts : Text → Bool) (b : List Text) (best : Run) (before : List Nat) :
    (i : Nat) → List Text → Run
  | _, [] => best
  | i, x :: xs =>
    let row := nextRow starts x 0 b before
    longestFrom starts b (betterRun best i 0 row) row (i + 1) xs

/-- The number of lines that two lists have in common at their start. -/
def commonStart : List Text → List Text → Nat
  | x :: xs, y :: ys => if x = y then commonStart xs ys + 1 else 0
  | _, _ => 0

/-- The longest common run of lines that may start one, grown over equal lines at both
ends. -/
def longestRun (starts : Text → Bool) (a b : List Text) : Run :=
  let r := longestFrom starts b ⟨0, 0, 0⟩ [] 0 a
  let back := commonStart (a.take r.left).reverse (b.take r.right).reverse
  let more := commonStart (a.drop (r.left + r.length)) (b.drop (r.right + r.length))
  ⟨r.left - back, r.right - back, back + r.length + more⟩

/-! ## Alignment -/

/-- A part of an alignment: lines that both lists have, or lines of the one in the place of
lines of the other. -/
inductive Part
  | same (lines : List Text)
  | change (removed added : List Text)
deriving DecidableEq, Repr

namespace Part

/-- The lines of the first list. -/
def before : Part → List Text
  | .same l => l
  | .change removed _ => removed

/-- The lines of the second list. -/
def after : Part → List Text
  | .same l => l
  | .change _ added => added

/-- Whether a part is a change. -/
def isChange : Part → Bool
  | .same _ => false
  | .change .. => true

end Part

/-- Puts unchanged lines in front of an alignment. -/
def consSame (lines : List Text) : List Part → List Part
  | .same more :: r => .same (lines ++ more) :: r
  | r => .same lines :: r

/-- Joins two alignments. -/
def joinParts : List Part → List Part → List Part
  | [], q => q
  | .same l :: p, q => consSame l (joinParts p q)
  | c :: p, q => c :: joinParts p q

/-- Aligns two lists of lines. -/
def align (starts : Text → Bool) (a b : List Text) : List Part :=
  let r := longestRun starts a b
  if _h : 0 < r.length ∧ r.left < a.length then
    joinParts (align starts (a.take r.left) (b.take r.right))
      (consSame ((a.drop r.left).take r.length)
        (align starts (a.drop (r.left + r.length)) (b.drop (r.right + r.length))))
  else if a = [] ∧ b = [] then []
  else [.change a b]
termination_by a.length
decreasing_by
  · simp only [r] at _h
    simp only [List.length_take]
    omega
  · simp only [r] at _h
    simp only [List.length_drop]
    omega

/-- The number of lines from which on frequent ones are set aside. -/
def longList : Nat := 200

/-- Whether a line of a list may start a common run: not if the list is long and more than
one in a hundred of its lines, and one more, are this one. -/
def mayStart (b : List Text) (y : Text) : Bool :=
  b.length < longList || b.count y ≤ b.length / 100 + 1

/-! ## Hunks -/

/-- A part with the numbers of lines before it in the two lists. -/
structure Located where
  left : Nat
  right : Nat
  part : Part
deriving DecidableEq, Repr

/-- Locates the parts of an alignment. -/
def locate (left right : Nat) : List Part → List Located
  | [] => []
  | p :: r => ⟨left, right, p⟩ :: locate (left + p.before.length) (right + p.after.length) r

/-- The number of unchanged lines around a change. -/
def context : Nat := 2

namespace Located

/-- The last lines of an unchanged part that may stand before a change. -/
def lead (l : Located) : Located :=
  match l.part with
  | .same lines =>
    let d := lines.length - context
    ⟨l.left + d, l.right + d, .same (lines.drop d)⟩
  | _ => l

/-- The first lines of an unchanged part that may stand behind a change. -/
def trail (l : Located) : Located :=
  match l.part with
  | .same lines => ⟨l.left, l.right, .same (lines.take context)⟩
  | _ => l

end Located

/-- Shortens the unchanged part at the front. -/
def trimFirst : List Located → List Located
  | [] => []
  | l :: r => l.lead :: r

/-- Shortens the unchanged part at the end. -/
def trimLast : List Located → List Located
  | [] => []
  | [l] => [l.trail]
  | l :: r => l :: trimLast r

/-- Groups parts into hunks: a long unchanged part ends one and starts the next. -/
def group (hunk : List Located) : List Located → List (List Located)
  | [] => [hunk]
  | l :: r =>
    if !l.part.isChange && 2 * context < l.part.before.length then
      (hunk ++ [l.trail]) :: group [l.lead] r
    else group (hunk ++ [l]) r

/-- The hunks of an alignment. -/
def hunks (parts : List Part) : List (List Located) :=
  (group [] (trimLast (trimFirst (locate 0 0 parts)))).filter fun h =>
    h.any fun l => l.part.isChange

/-! ## Printing -/

/-- The lines of a hunk in one list: the first and how many, just the first if there is only
one, and the one before if there is none. -/
def rangeText (start length : Nat) : String :=
  if length = 1 then toString (start + 1)
  else if length = 0 then toString start ++ ",0"
  else toString (start + 1) ++ "," ++ toString length

/-- The lines of a part, each behind its mark. -/
def partText : Part → Text
  | .same lines => lines.flatMap (' ' :: ·)
  | .change removed added => removed.flatMap ('-' :: ·) ++ added.flatMap ('+' :: ·)

/-- A hunk as text. -/
def hunkText (h : List Located) : Text :=
  let left := (h.head?.map Located.left).getD 0
  let right := (h.head?.map Located.right).getD 0
  let removed := (h.map fun l => l.part.before.length).foldr (· + ·) 0
  let added := (h.map fun l => l.part.after.length).foldr (· + ·) 0
  ("@@ -" ++ rangeText left removed ++ " +" ++ rangeText right added ++ " @@\n").toList
    ++ h.flatMap fun l => partText l.part

/-- The differences between two texts, empty if there are none. -/
def unified (a b : Text) : Text :=
  let target := b.boundedLines
  match hunks (align (mayStart target) a.boundedLines target) with
  | [] => []
  | hs => "--- \n+++ \n".toList ++ hs.flatMap hunkText

end CaplLayout.Diff
