import CaplLayout.Engine
import CaplLayout.Proofs.Splice

/-!
# Margins

The range of a formatting call leaves a margin at either end of the text. Seen from its own
end of the text a margin needs no mapping: an edit is carried out when enough characters
stand in front of it and behind it (`admits_eq`), and through any edits the margin at the end
keeps its size while the margin at the front at most grows (`front_advance`, `back_advance`).

What two rules leave alone can therefore be compared although the text between them has
moved.
-/

set_option autoImplicit false

namespace CaplLayout

/-- How many characters at the front and at the end of a text edits leave alone. -/
structure Margins where
  front : Nat
  back : Nat
deriving DecidableEq, Repr

namespace Margins

/-- Whether a span lies between the margins, with `pre` characters in front of it and `suf`
characters behind it. -/
def Admit (m : Margins) (pre suf : Nat) : Prop := m.front ≤ pre ∧ m.back ≤ suf

instance (m : Margins) (pre suf : Nat) : Decidable (m.Admit pre suf) :=
  inferInstanceAs (Decidable (_ ∧ _))

/-- Whether `admits` lets through what lies between the margins of a text of `n` characters. -/
def Respects (admits : Edit → Bool) (m : Margins) (n : Nat) : Prop :=
  ∀ (a b : Nat) (x : Text) (q : Int), b ≤ n → admits ⟨a, b, x, q⟩ = decide (m.Admit a (n - b))

theorem filter_singleton {admits : Edit → Bool} {m : Margins} {n a b : Nat} {x : Text} {q : Int}
    (hadm : Respects admits m n) (hb : b ≤ n) :
    [(⟨a, b, x, q⟩ : Edit)].filter admits = if m.Admit a (n - b) then [⟨a, b, x, q⟩] else [] := by
  simp [List.filter_singleton, hadm a b x q hb]

/-- The margins of a call without a range. -/
def zero : Margins := ⟨0, 0⟩

theorem admit_zero (pre suf : Nat) : zero.Admit pre suf := ⟨pre.zero_le, suf.zero_le⟩

/-- Margins that leave at most as much room: `m` may have grown at the front. -/
def Within (m m' : Margins) : Prop := m.front ≤ m'.front ∧ m.back = m'.back

theorem Within.refl (m : Margins) : m.Within m := ⟨le_rfl, rfl⟩

/-- What lies between the margins afterwards did so before, if it has not moved off a margin. -/
theorem Admit.of_moved {m m' : Margins} (h : m.Within m') {pre pre' suf suf' : Nat}
    (hpre : pre < m.front → pre' ≤ pre) (hsuf : suf < m.back → suf' ≤ suf)
    (ha : m'.Admit pre' suf') : m.Admit pre suf := by
  obtain ⟨hfront, hback⟩ := h
  obtain ⟨ha1, ha2⟩ := ha
  constructor
  · omega
  · omega

end Margins

namespace Progress

/-- The margins that the range leaves. -/
def margins (p : Progress) : Margins :=
  ⟨p.rangeStart.toNat, (p.text.length - p.stop).toNat⟩

/-- An edit in the text lies inside the range exactly when it lies between the margins. -/
theorem admits_eq (p : Progress) (a b : Nat) (x : Text) (q : Int) (hb : b ≤ p.text.length) :
    p.admits ⟨a, b, x, q⟩ = decide (p.margins.Admit a (p.text.length - b)) := by
  rw [Bool.eq_iff_iff, decide_eq_true_eq, admits, Bool.and_eq_true, decide_eq_true_eq,
    decide_eq_true_eq]
  simp only [margins, Margins.Admit]
  omega

/-- The text after the edits of one rule. -/
theorem text_advance (p : Progress) (edits : List Edit) :
    (p.advance edits).text = (Edit.apply p.text (edits.filter p.admits)).1 := by
  unfold advance
  dsimp only
  split
  · next h => exact h.symm
  · rfl

theorem advance_of_text_eq {p : Progress} {edits : List Edit}
    (h : (p.advance edits).text = p.text) : p.advance edits = p := by
  rw [text_advance] at h
  unfold advance
  exact if_pos h

/-- When the text changes, the cursor and the range move with it. -/
theorem advance_of_text_ne {p : Progress} {edits : List Edit}
    (h : (p.advance edits).text ≠ p.text) :
    p.advance edits =
      { text := (p.advance edits).text
        cursor := p.cursor.map (Edit.mapOffset (Edit.arrange (edits.filter p.admits)))
        rangeStart := Edit.mapOffset (Edit.arrange (edits.filter p.admits)) p.rangeStart
        rangeEnd := p.rangeEnd.map (Edit.mapOffset (Edit.arrange (edits.filter p.admits))) } := by
  rw [text_advance] at h ⊢
  exact if_neg h

section

variable {p : Progress} {edits : List Edit}

/-- The edits that are carried out lie inside the range. -/
theorem within_of_mem_arrange (h : ∀ e ∈ edits, Edit.Within 0 p.text.length e) :
    ∀ e ∈ Edit.arrange (edits.filter p.admits), Edit.Within p.rangeStart p.stop e := by
  intro e he
  obtain ⟨hmem, hin⟩ := List.mem_filter.mp (Edit.mem_of_mem_arrange he)
  rw [admits, Bool.and_eq_true, decide_eq_true_eq, decide_eq_true_eq] at hin
  exact ⟨hin.1, (h e hmem).2.1, hin.2⟩

theorem length_apply (h : ∀ e ∈ edits, Edit.Within 0 p.text.length e) :
    ((Edit.apply p.text (edits.filter p.admits)).1.length : Int)
      = p.text.length + Edit.gains (Edit.arrange (edits.filter p.admits)) :=
  Edit.length_apply fun e he => h e (List.mem_filter.mp he).1

/-- The margin at the front does not shrink. -/
theorem front_advance (h : ∀ e ∈ edits, Edit.Within 0 p.text.length e) :
    p.margins.front ≤ (p.advance edits).margins.front := by
  have hmap := Edit.le_mapOffset fun e he =>
    ⟨(within_of_mem_arrange h e he).1, (within_of_mem_arrange h e he).2.1⟩
  unfold advance
  dsimp only
  split
  · exact le_rfl
  · exact Int.toNat_le_toNat hmap

/-- The end of the range moves like any offset of the text, also when it is the text's end. -/
theorem stop_advance (h : ∀ e ∈ edits, Edit.Within 0 p.text.length e)
    (hne : (p.advance edits).text ≠ p.text) :
    (p.advance edits).stop = Edit.mapOffset (Edit.arrange (edits.filter p.admits)) p.stop := by
  have hlen := length_apply h
  have hmap := Edit.mapOffset_of_stop_le fun e he => (within_of_mem_arrange h e he).2.2
  rw [advance_of_text_ne hne, text_advance]
  unfold stop at hmap ⊢
  cases hend : p.rangeEnd with
  | none =>
      rw [hend] at hmap
      exact hlen.trans hmap.symm
  | some n => rfl

/-- The margin at the end keeps its size. -/
theorem back_advance (h : ∀ e ∈ edits, Edit.Within 0 p.text.length e) :
    (p.advance edits).margins.back = p.margins.back := by
  by_cases hsame : (p.advance edits).text = p.text
  · rw [advance_of_text_eq hsame]
  · -- the end of the range moves by what the text grows, since all edits lie in front of it
    have hlen := length_apply h
    have hmap := Edit.mapOffset_of_stop_le fun e he => (within_of_mem_arrange h e he).2.2
    have hstop := stop_advance h hsame
    rw [margins, margins, hstop, hmap, text_advance, hlen]
    dsimp only
    omega

theorem margins_advance (h : ∀ e ∈ edits, Edit.Within 0 p.text.length e) :
    p.margins.Within (p.advance edits).margins :=
  ⟨front_advance h, (back_advance h).symm⟩

/-- A range that starts with the text goes on to do so when no edit inserts something
there. -/
theorem rangeStart_advance (hs : p.rangeStart = 0)
    (h : ∀ e ∈ edits, 0 ≤ e.start ∧ 0 < e.stop) : (p.advance edits).rangeStart = 0 := by
  unfold advance
  dsimp only
  split
  · exact hs
  · -- an edit that starts at the range's start replaces something behind it
    rw [hs]
    refine Edit.mapOffset_of_lt_stop fun e he => h e ?_
    exact (List.mem_filter.mp (Edit.mem_of_mem_arrange he)).1

theorem rangeEnd_advance (hs : p.rangeEnd = none) : (p.advance edits).rangeEnd = none := by
  unfold advance
  dsimp only
  split
  · exact hs
  · simp [hs]

theorem margins_eq_zero (hs : p.rangeStart = 0) (he : p.rangeEnd = none) :
    p.margins = Margins.zero := by
  simp [margins, stop, hs, he, Margins.zero]

end

end Progress

end CaplLayout
