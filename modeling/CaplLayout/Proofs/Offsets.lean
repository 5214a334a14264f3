import CaplLayout.Engine
import CaplLayout.Proofs.Lines
import CaplLayout.Proofs.Pieces

/-!
# Offsets

An offset of a source follows the text twice: when its pairs of a carriage return and a line
feed are unified (`unifiedOffset`), and through the edits of a rule (`mapOffset`). Either way
offsets stay in order and inside the text.

The characters of a text that are not layout are its ink. Unifying pairs leaves the ink in front
of an offset as it is (`unifiedOffset_split`), and so do edits that put layout in the place
of layout (`Patch.filter_take_after`).
-/

set_option autoImplicit false

namespace CaplLayout.Text

/-! ## Ink -/

/-- The characters that lay a text out: blanks and those of line terminators. -/
def isLayout (c : Char) : Bool := isBlank c || c == '\r' || c == '\n'

/-- The characters of a text that are not layout, in order. -/
def ink (s : Text) : Text := s.filter fun c => !isLayout c

@[simp] theorem ink_append (s t : Text) : ink (s ++ t) = ink s ++ ink t := by
  simp [ink]

theorem ink_eq_nil {s : Text} : ink s = [] ↔ ∀ c ∈ s, isLayout c = true := by
  simp [ink, List.filter_eq_nil_iff]

theorem ink_cons_of_isLayout {c : Char} (h : isLayout c = true) (s : Text) :
    ink (c :: s) = ink s :=
  List.filter_cons_of_neg (by simp [h])

/-- A character that no rule puts or removes: neither a blank nor a line feed. -/
def isMark (c : Char) : Bool := !(isBlank c || c == '\n')

theorem isMark_iff {c : Char} : isMark c = true ↔ isBlank c = false ∧ c ≠ '\n' := by
  simp [isMark]

/-- The marks of a text, in order: its ink, and the carriage returns. -/
def marks (s : Text) : Text := s.filter isMark

@[simp] theorem marks_append (s t : Text) : marks (s ++ t) = marks s ++ marks t :=
  List.filter_append s t

theorem marks_eq_nil {s : Text} : marks s = [] ↔ ∀ c ∈ s, isMark c = false := by
  simp [marks, List.filter_eq_nil_iff]

theorem marks_of_blank {s : Text} (h : ∀ c ∈ s, isBlank c = true) : marks s = [] := by
  rw [marks_eq_nil]
  intro c hc
  simp [isMark, h c hc]

theorem marks_replicate_feed (n : Nat) : marks (List.replicate n '\n') = [] := by
  rw [marks_eq_nil]
  intro c hc
  rw [List.eq_of_mem_replicate hc]
  rfl

/-- Ink leaves marks. -/
theorem ink_eq_nil_of_marks {s : Text} (h : marks s = []) : ink s = [] := by
  rw [marks_eq_nil] at h
  rw [ink_eq_nil]
  intro c hc
  have hmark := h c hc
  simp only [isMark, Bool.not_eq_false', Bool.or_eq_true] at hmark
  rcases hmark with hblank | hfeed
  · simp [isLayout, hblank]
  · simp [isLayout, hfeed]

theorem slice_zero (s : Text) (n : Nat) : s.slice 0 n = s.take n := by
  have hpos : position s.length n = min n s.length := by
    rw [position, if_neg (by omega), Int.toNat_natCast]
  have hzero : position s.length 0 = 0 := by simp [position]
  rw [slice, hpos, hzero, List.drop_zero, ← List.take_take, List.take_length]

theorem ink_unifyPairs (s : Text) : ink (unifyPairs s) = ink s := by
  induction s with
  | nil => rfl
  | cons c s ih =>
      cases s with
      | nil => rfl
      | cons d s =>
          rw [unifyPairs]
          split
          · next h => rw [ih, h.1, ink_cons_of_isLayout (c := '\r') rfl]
          · show ink ([c] ++ unifyPairs (d :: s)) = ink ([c] ++ d :: s)
            rw [ink_append, ink_append, ih]

end CaplLayout.Text

namespace CaplLayout

open Text

/-! ## Unified pairs -/

theorem unifiedOffset_natCast (s : Text) (n : Nat) :
    unifiedOffset s n = n - pairs (s.take n) := by
  rw [unifiedOffset, slice_zero]

/-- **Unifying the pairs of a source cuts it in two at every offset**, and the ink on both sides
stays the same. -/
theorem unifiedOffset_split (s : Text) {n : Nat} (hn : n ≤ s.length) :
    ∃ u v, s.unifyPairs = u ++ v ∧ unifiedOffset s n = u.length ∧ ink u = ink (s.take n) := by
  have hsplit : s.take n ++ s.drop n = s := List.take_append_drop n s
  have hlen : (s.take n).length = n := List.length_take_of_le hn
  have hpairs := length_unifyPairs (s.take n)
  by_cases hcut : (s.take n).getLast? = some '\r' ∧ (s.drop n).head? = some '\n'
  · -- the offset lies inside a pair, and the line feed of the pair belongs to the front
    obtain ⟨hlast, hhead⟩ := hcut
    obtain ⟨t, ht⟩ := List.getLast?_eq_some_iff.mp hlast
    obtain ⟨r, hr⟩ := List.head?_eq_some_iff.mp hhead
    have hfront : s.unifyPairs = unifyPairs t ++ unifyPairs ('\r' :: '\n' :: r) := by
      rw [← hsplit, ht, hr, List.append_assoc]
      exact unifyPairs_append fun _ hc => by cases hc
    have hback : unifyPairs ('\r' :: '\n' :: r) = '\n' :: unifyPairs r :=
      (if_pos ⟨rfl, rfl⟩).trans (unifyPairs_append (s := ['\n']) fun hc => by cases hc)
    have hcount : pairs (t ++ ['\r']) = pairs t := by
      rw [pairs_append]
      simp [pairs]
    have hshort := length_unifyPairs t
    rw [ht, List.length_append, List.length_singleton] at hlen
    refine ⟨unifyPairs t ++ ['\n'], unifyPairs r, ?_, ?_, ?_⟩
    · rw [hfront, hback, List.append_assoc]
      rfl
    · rw [unifiedOffset_natCast, ht, hcount, List.length_append, List.length_singleton]
      omega
    · rw [ht, ink_append, ink_append, ink_unifyPairs]
      rfl
  · refine ⟨unifyPairs (s.take n), unifyPairs (s.drop n), ?_, ?_, ink_unifyPairs _⟩
    · conv_lhs => rw [← hsplit]
      exact unifyPairs_append fun hlast hhead => hcut ⟨hlast, hhead⟩
    · rw [unifiedOffset_natCast]
      omega

theorem unifiedOffset_nonneg (s : Text) {n : Nat} (hn : n ≤ s.length) : 0 ≤ unifiedOffset s n := by
  obtain ⟨u, v, -, hu, -⟩ := unifiedOffset_split s hn
  omega

theorem unifiedOffset_le (s : Text) {n : Nat} (hn : n ≤ s.length) :
    unifiedOffset s n ≤ s.unifyPairs.length := by
  obtain ⟨u, v, hs, hu, -⟩ := unifiedOffset_split s hn
  rw [hs, hu, List.length_append]
  omega

theorem ink_take_unifiedOffset (s : Text) {n : Nat} (hn : n ≤ s.length) :
    ink (s.unifyPairs.take (unifiedOffset s n).toNat) = ink (s.take n) := by
  obtain ⟨u, v, hs, hu, hink⟩ := unifiedOffset_split s hn
  rw [hs, hu, Int.toNat_natCast, List.take_left, hink]

/-- One character more completes one pair at most. -/
theorem pairs_take_succ (s : Text) (n : Nat) :
    pairs (s.take (n + 1)) ≤ pairs (s.take n) + 1 := by
  have hone : pairs s[n]?.toList = 0 := by cases s[n]? <;> rfl
  rw [List.take_add_one, pairs_append, hone]
  split
  · exact le_rfl
  · exact Nat.le_succ _

theorem unifiedOffset_mono (s : Text) {m n : Nat} (h : m ≤ n) :
    unifiedOffset s m ≤ unifiedOffset s n := by
  induction h with
  | refl => exact le_rfl
  | @step n _ ih =>
      have htake := pairs_take_succ s n
      apply ih.trans
      show unifiedOffset s n ≤ unifiedOffset s (n + 1 : Nat)
      rw [unifiedOffset_natCast, unifiedOffset_natCast]
      omega

end CaplLayout

namespace CaplLayout.Edit

open Text

/-! ## Edits in order -/

/-- What lies behind the place where edits begin stays behind it. -/
theorem Apart.le_mapFrom {lo hi o : Int} {es : List Edit} (h : Apart lo hi es) (ho : lo ≤ o)
    (shift : Int) : lo + shift ≤ mapFrom shift o es := by
  induction es generalizing lo shift with
  | nil =>
      show lo + shift ≤ o + shift
      omega
  | cons e es ih =>
      obtain ⟨hlo, hord, hrest⟩ := h
      rw [mapFrom]
      split
      · next hstop =>
          have hnext := ih hrest hstop (shift + e.gain)
          rw [gain] at hnext ⊢
          omega
      · split <;> omega

/-- Offsets stay in order. -/
theorem mapFrom_mono {lo hi o o' : Int} {es : List Edit} (h : Apart lo hi es) (ho : o ≤ o')
    (shift : Int) : mapFrom shift o es ≤ mapFrom shift o' es := by
  induction es generalizing lo shift with
  | nil =>
      show o + shift ≤ o' + shift
      omega
  | cons e es ih =>
      obtain ⟨-, hord, hrest⟩ := h
      rw [mapFrom, mapFrom]
      by_cases h1 : e.stop ≤ o
      · rw [if_pos h1, if_pos (h1.trans ho)]
        exact ih hrest _
      · rw [if_neg h1]
        by_cases h2 : e.stop ≤ o'
        · -- only `o'` lies behind the edit, and so it ends up behind the edit's new text
          have hnext := hrest.le_mapFrom h2 (shift + e.gain)
          rw [gain] at hnext
          rw [if_pos h2, gain]
          split <;> omega
        · rw [if_neg h2]
          split <;> split <;> omega

theorem mapOffset_mono {lo hi o o' : Int} {es : List Edit} (h : Apart lo hi es) (ho : o ≤ o') :
    mapOffset es o ≤ mapOffset es o' :=
  mapFrom_mono h ho 0

end CaplLayout.Edit

namespace CaplLayout.Patch

open Text

variable {rest : Text} {ps : List Patch} {n : Nat}

/-! ## Offsets along pieces -/

/-- An offset inside the text stays inside. -/
theorem move_le (h : n ≤ (before rest ps).length) : move ps n ≤ (after rest ps).length := by
  induction ps generalizing n with
  | nil => exact h
  | cons p ps ih =>
      rw [before, List.length_append, List.length_append] at h
      rw [after, List.length_append, List.length_append]
      rcases move_cases p ps n with ⟨m, rfl, hmove⟩ | ⟨m, -, -, rfl, hmove⟩ | ⟨hle, -, hmove⟩
      · have := ih (n := m) (by omega)
        omega
      · omega
      · omega

/-- The end of the text stays its end. -/
theorem move_length (rest : Text) (ps : List Patch) :
    move ps (before rest ps).length = (after rest ps).length := by
  induction ps with
  | nil => rfl
  | cons p ps ih =>
      have hlen : (before rest (p :: ps)).length
          = p.kept.length + (p.old.length + (before rest ps).length) := by
        rw [before, List.length_append, List.length_append]
      rw [after, List.length_append, List.length_append, ← ih]
      rcases move_cases p ps (before rest (p :: ps)).length with
        ⟨m, hm, hmove⟩ | ⟨m, -, hlt, hm, -⟩ | ⟨-, hlt, -⟩
      · have hm' : m = (before rest ps).length := by omega
        rw [hmove, hm']
      · omega
      · omega

/-- **Characters that are neither replaced nor put** are those in front of an offset before and
after. -/
theorem filter_take_after {P : Char → Bool}
    (h : All (fun old _ new => old.filter P = [] ∧ new.filter P = []) rest ps) :
    ((after rest ps).take (move ps n)).filter P = ((before rest ps).take n).filter P := by
  induction ps generalizing n with
  | nil => rfl
  | cons p ps ih =>
      obtain ⟨⟨hold, hnew⟩, hrest⟩ := h
      have hpart : ∀ {x : Text}, x.filter P = [] → ∀ m, (x.take m).filter P = [] := by
        intro x hx m
        rw [List.filter_eq_nil_iff] at hx ⊢
        exact fun c hc => hx c (List.mem_of_mem_take hc)
      rw [before, after]
      rcases move_cases p ps n with ⟨m, rfl, hmove⟩ | ⟨m, -, hm, rfl, hmove⟩ | ⟨hle, -, hmove⟩
      · rw [hmove, List.take_length_add_append, List.take_length_add_append,
          List.take_length_add_append, List.take_length_add_append]
        simp only [List.filter_append, hold, hnew, ih hrest]
      · -- inside the stretch there are none on either side
        rw [hmove, List.take_length_add_append, List.take_length_add_append,
          List.take_append_of_le_length (Nat.min_le_right _ _),
          List.take_append_of_le_length hm.le]
        simp only [List.filter_append, hpart hold, hpart hnew]
      · rw [hmove, List.take_append_of_le_length hle, List.take_append_of_le_length hle]

end CaplLayout.Patch

namespace CaplLayout.Edit

open Text

/-! ## Edits of layout -/

/-- An edit of a text that starts at `off` which puts layout in the place of layout. -/
def Spacing (off : Nat) (t : Text) (e : Edit) : Prop :=
  ∃ u v w, t = u ++ (v ++ w) ∧ e.start = (off + u.length : Nat)
    ∧ e.stop = (off + u.length + v.length : Nat) ∧ ink v = [] ∧ ink e.text = []

/-- Blanks and line feeds are replaced by blanks and line feeds, and a line feed is only put in the
place of line feeds or at the end of the text. -/
structure Respaced (old behind new : Text) : Prop where
  marks_old : marks old = []
  marks_new : marks new = []
  feed : '\n' ∈ new → (∀ c ∈ old, c = '\n') ∧ (old = [] → behind = [])

/-- Where blanks are replaced by blanks nothing is to be said about line feeds. -/
theorem respaced_of_blank {old new : Text} (behind : Text) (hold : ∀ c ∈ old, isBlank c = true)
    (hnew : ∀ c ∈ new, isBlank c = true) : Respaced old behind new := by
  refine ⟨marks_of_blank hold, marks_of_blank hnew, fun h => ?_⟩
  exact absurd (hnew _ h) (by decide)

theorem Spans.spacing {off : Nat} {t : Text} {e : Edit} (h : Spans Respaced off t e) :
    Spacing off t e := by
  have hink : Spans (fun old _ new => ink old = [] ∧ ink new = []) off t e :=
    h.imp fun _ _ _ hQ => ⟨ink_eq_nil_of_marks hQ.marks_old, ink_eq_nil_of_marks hQ.marks_new⟩
  exact hink

end CaplLayout.Edit
