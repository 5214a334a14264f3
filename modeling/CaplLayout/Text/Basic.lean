/-!
# Texts

A text is the list of its characters. This module holds what every other module needs of
texts: slices by index, blanks (the space and the tab), lines, and the unification of line
terminators.

A text always has one line more than it has line feeds, so `lines` is never empty and
`unlines` takes it back (`unlines_lines`).
-/

set_option autoImplicit false

namespace CaplLayout

/-- A text: its characters, in order. -/
abbrev Text := List Char

namespace Text

/-! ## Slices -/

/-- The position that an index names in a text of `n` characters. A negative index counts
from the end, and an index beyond either end names that end. -/
def position (n : Nat) (i : Int) : Nat :=
  if i < 0 then (i + n).toNat else min i.toNat n

/-- The characters from index `a` up to index `b`; none when `b` is not behind `a`. -/
def slice (s : Text) (a b : Int) : Text :=
  (s.take (position s.length b)).drop (position s.length a)

/-- The characters from index `a` on. -/
def sliceFrom (s : Text) (a : Int) : Text :=
  s.drop (position s.length a)

/-! ## Blanks -/

/-- The characters that indent a line or trail behind it: the space and the tab. -/
def isBlank (c : Char) : Bool := c == ' ' || c == '\t'

/-- The text without the characters at its end that satisfy `p`. -/
def trimEnd (p : Char → Bool) : Text → Text
  | [] => []
  | c :: r =>
    match trimEnd p r with
    | [] => if p c then [] else [c]
    | d :: t => c :: d :: t

/-- The text without the characters at either end that satisfy `p`. -/
def trim (p : Char → Bool) (s : Text) : Text := trimEnd p (s.dropWhile p)

theorem trimEnd_nil (p : Char → Bool) : trimEnd p [] = [] := rfl

/-- What is trimmed off leaves the text a continuation of the trimmed one. -/
theorem trimEnd_append_exists (p : Char → Bool) (s : Text) :
    ∃ t, s = trimEnd p s ++ t ∧ ∀ c ∈ t, p c = true := by
  induction s with
  | nil => exact ⟨[], rfl, by simp⟩
  | cons c r ih =>
      obtain ⟨t, ht, hp⟩ := ih
      unfold trimEnd
      cases h : trimEnd p r with
      | nil =>
          rw [h, List.nil_append] at ht
          by_cases hc : p c = true
          · exact ⟨c :: r, by simp [hc], by simpa [hc, ht] using hp⟩
          · exact ⟨r, by simp [hc], by simpa [ht] using hp⟩
      | cons d u =>
          rw [h] at ht
          exact ⟨t, by simp [ht], hp⟩

/-! ## Lines -/

/-- Puts a character in front of the first line. -/
def consLine (c : Char) : List Text → List Text
  | [] => [[c]]
  | l :: ls => (c :: l) :: ls

/-- The lines of a text, without their line feeds. A text that ends in a line feed has an
empty last line. -/
def lines : Text → List Text
  | [] => [[]]
  | c :: r => if c = '\n' then [] :: lines r else consLine c (lines r)

/-- The text with the given lines. -/
def unlines : List Text → Text
  | [] => []
  | [l] => l
  | l :: m :: ls => l ++ '\n' :: unlines (m :: ls)

theorem consLine_ne_nil (c : Char) (ls : List Text) : consLine c ls ≠ [] := by
  cases ls <;> simp [consLine]

theorem lines_ne_nil (s : Text) : lines s ≠ [] := by
  cases s with
  | nil => simp [lines]
  | cons c r =>
      unfold lines
      split
      · simp
      · exact consLine_ne_nil c _

theorem unlines_consLine {c : Char} {ls : List Text} (h : ls ≠ []) :
    unlines (consLine c ls) = c :: unlines ls := by
  cases ls with
  | nil => exact absurd rfl h
  | cons l ls => cases ls <;> simp [consLine, unlines]

/-- Splitting a text into lines loses nothing. -/
theorem unlines_lines (s : Text) : unlines (lines s) = s := by
  induction s with
  | nil => rfl
  | cons c r ih =>
      unfold lines
      split
      · next h =>
          subst h
          cases hl : lines r with
          | nil => exact absurd hl (lines_ne_nil r)
          | cons l ls => simp [unlines, ← hl, ih]
      · rw [unlines_consLine (lines_ne_nil r), ih]

/-! ## Line terminators -/

/-- The text with every pair of a carriage return and a line feed turned into the line feed
alone. Other carriage returns stay. -/
def unifyPairs : Text → Text
  | [] => []
  | [c] => [c]
  | c :: d :: r => if c = '\r' ∧ d = '\n' then unifyPairs (d :: r) else c :: unifyPairs (d :: r)

/-- The number of pairs of a carriage return and a line feed. -/
def pairs : Text → Nat
  | [] => 0
  | [_] => 0
  | c :: d :: r => (if c = '\r' ∧ d = '\n' then 1 else 0) + pairs (d :: r)

/-- The text with every line terminator, a pair or a lone carriage return, turned into a
line feed. -/
def unifyTerminators (s : Text) : Text :=
  (unifyPairs s).map (fun c => if c = '\r' then '\n' else c)

/-- Each pair gives up one character. -/
theorem length_unifyPairs (s : Text) : (unifyPairs s).length + pairs s = s.length := by
  induction s with
  | nil => rfl
  | cons c r ih =>
      cases r with
      | nil => rfl
      | cons d r =>
          unfold unifyPairs pairs
          split <;> simp only [List.length_cons] at * <;> omega

end Text

end CaplLayout
