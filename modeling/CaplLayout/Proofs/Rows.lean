import CaplLayout.Proofs.Offsets

/-!
# Rows

The row of an offset is the number of line feeds in front of it. The offsets on one line of a text
are those of one row (`IsLine.row_eq_iff`).

Respacing a text moves its offsets. Those of marks stay at their marks (`getElem?_after`), and
between two offsets that have no line feed between them none is put (`row_after`). The one exception
is the end of the text: a line feed that is put there goes in front of an offset at the very end.
-/

set_option autoImplicit false

namespace CaplLayout.Text

/-! ## Rows -/

/-- The number of line feeds in front of an offset. -/
def row (s : Text) (n : Nat) : Nat := (s.take n).count '\n'

theorem row_length (s : Text) : row s s.length = s.count '\n' := by
  rw [row, List.take_length]

theorem row_le_count (s : Text) (n : Nat) : row s n ≤ s.count '\n' :=
  (List.take_sublist n s).count_le '\n'

theorem row_append_of_le {s : Text} (t : Text) {n : Nat} (h : n ≤ s.length) :
    row (s ++ t) n = row s n := by
  rw [row, List.take_append_of_le_length h, row]

theorem row_length_add (s t : Text) (n : Nat) :
    row (s ++ t) (s.length + n) = s.count '\n' + row t n := by
  rw [row, List.take_length_add_append, List.count_append, row]

theorem row_of_not_mem {s : Text} (h : '\n' ∉ s) (n : Nat) : row s n = 0 :=
  List.count_eq_zero.mpr fun hmem => h (List.mem_of_mem_take hmem)

theorem row_of_feeds {s : Text} (h : ∀ c ∈ s, c = '\n') {n : Nat} (hn : n ≤ s.length) :
    row s n = n := by
  have hall : row s n = (s.take n).length :=
    List.count_eq_length.mpr fun c hc => (h c (List.mem_of_mem_take hc)).symm
  rw [hall, List.length_take_of_le hn]

theorem getElem?_length_add (s t : Text) (n : Nat) : (s ++ t)[s.length + n]? = t[n]? := by
  rw [List.getElem?_append_right (Nat.le_add_right _ _), Nat.add_sub_cancel_left]

/-- The text has no line that a line feed does not end. -/
def Terminated (s : Text) : Prop := s = [] ∨ s.getLast? = some '\n'

/-- In a terminated text, an offset on the row of a character of a line is not the end. -/
theorem lt_length_of_row_eq {s : Text} (hend : Terminated s) {m n : Nat}
    {c : Char} (hc : s[m]? = some c) (hne : c ≠ '\n') (hn : n ≤ s.length)
    (hrow : row s m = row s n) : n < s.length := by
  obtain ⟨hm, -⟩ := List.getElem?_eq_some_iff.mp hc
  rcases hend with rfl | hlast
  · exact absurd hm (Nat.not_lt_zero m)
  · obtain ⟨t, rfl⟩ := List.getLast?_eq_some_iff.mp hlast
    have hlen : (t ++ ['\n']).length = t.length + 1 := List.length_append
    have hmt : m < t.length := by
      by_contra hcon
      have hm' : m = t.length := by omega
      rw [hm', List.getElem?_concat_length] at hc
      exact hne (Option.some.inj hc).symm
    -- all line feeds stand in front of the end, but the last one stands behind the character
    by_contra hcon
    have hn' : n = t.length + 1 := by omega
    have hrow' : row t m = t.count '\n' + 1 := by
      rw [← row_append_of_le ['\n'] hmt.le, hrow, hn', row_length_add]
      rfl
    have := row_le_count t m
    omega

/-! ## Lines -/

/-- The last line of a terminated text is empty. -/
theorem Terminated.exists_lines_eq {s : Text} (h : Terminated s) : ∃ ls, s.lines = ls ++ [[]] := by
  rcases h with rfl | h
  · exact ⟨[], rfl⟩
  · obtain ⟨t, rfl⟩ := List.getLast?_eq_some_iff.mp h
    rcases List.eq_nil_or_concat' (lines t) with hnil | ⟨ls, l, hlines⟩
    · exact absurd hnil (lines_ne_nil t)
    · refine ⟨ls ++ [l], ?_⟩
      have htwo : lines ['\n'] = [] :: [[]] := rfl
      rw [lines_append_eq hlines htwo, List.append_nil, List.append_assoc, List.singleton_append]

theorem terminated_of_lines {s : Text} {ls : List Text} (h : s.lines = ls ++ [[]]) :
    Terminated s := by
  have hs := unlines_lines s
  rw [h] at hs
  by_cases hls : ls = []
  · subst hls
    exact .inl hs.symm
  · rw [unlines_append_nil hls] at hs
    rw [← hs]
    exact .inr List.getLast?_concat

/-- The text `l` is a line of the text `s`, with `before` in front of it and `behind` behind it. -/
structure IsLine (s before l behind : Text) : Prop where
  text : s = before ++ (l ++ behind)
  front : before.Terminated
  line : '\n' ∉ l
  back : behind = [] ∨ behind.head? = some '\n'

theorem exists_last_feed (s : Text) :
    ∃ u l, s = u ++ l ∧ Terminated u ∧ '\n' ∉ l := by
  induction s using List.reverseRecOn with
  | nil => exact ⟨[], [], rfl, .inl rfl, List.not_mem_nil⟩
  | append_singleton s c ih =>
      by_cases hc : c = '\n'
      · exact ⟨s ++ [c], [], by simp, .inr (by simp [hc]), List.not_mem_nil⟩
      · obtain ⟨u, l, rfl, hu, hl⟩ := ih
        refine ⟨u, l ++ [c], by simp, hu, ?_⟩
        rw [List.mem_append, List.mem_singleton, not_or]
        exact ⟨hl, Ne.symm hc⟩

theorem exists_first_feed (s : Text) :
    ∃ l w, s = l ++ w ∧ '\n' ∉ l ∧ (w = [] ∨ w.head? = some '\n') := by
  induction s with
  | nil => exact ⟨[], [], rfl, List.not_mem_nil, .inl rfl⟩
  | cons c s ih =>
      by_cases hc : c = '\n'
      · exact ⟨[], c :: s, rfl, List.not_mem_nil, .inr (by rw [hc]; rfl)⟩
      · obtain ⟨l, w, rfl, hl, hw⟩ := ih
        refine ⟨c :: l, w, rfl, ?_, hw⟩
        rw [List.mem_cons, not_or]
        exact ⟨Ne.symm hc, hl⟩

/-- Every offset lies on a line. -/
theorem exists_isLine {s : Text} {n : Nat} (hn : n ≤ s.length) :
    ∃ u l w, IsLine s u l w ∧ u.length ≤ n ∧ n ≤ u.length + l.length := by
  obtain ⟨u, x, hux, hu, hx⟩ := exists_last_feed (s.take n)
  obtain ⟨y, w, hyw, hy, hw⟩ := exists_first_feed (s.drop n)
  have hlen : n = u.length + x.length := by
    rw [← List.length_append, ← hux, List.length_take_of_le hn]
  refine ⟨u, x ++ y, w, ⟨?_, hu, ?_, hw⟩, ?_⟩
  · rw [← List.take_append_drop n s, hux, hyw]
    simp
  · rw [List.mem_append, not_or]
    exact ⟨hx, hy⟩
  · rw [List.length_append]
    omega

section

variable {s u l w : Text} {n : Nat}

/-- **The offsets on a line are those on its row.** -/
theorem IsLine.row_eq_iff (h : IsLine s u l w) (hn : n ≤ s.length) :
    row s n = u.count '\n' ↔ u.length ≤ n ∧ n ≤ u.length + l.length := by
  obtain ⟨rfl, hfront, hline, hback⟩ := h
  constructor
  · intro hrow
    constructor
    · -- in front of the line there is at least one line feed less
      by_contra hcon
      rcases hfront with rfl | hlast
      · exact hcon (Nat.zero_le n)
      · obtain ⟨t, rfl⟩ := List.getLast?_eq_some_iff.mp hlast
        rw [List.length_append, List.length_singleton] at hcon
        have hle : n ≤ t.length := by omega
        have hcount : (t ++ ['\n']).count '\n' = t.count '\n' + 1 := by simp
        have := row_le_count t n
        rw [List.append_assoc, row_append_of_le _ hle, hcount] at hrow
        omega
    · -- behind the line there is at least one more
      by_contra hcon
      obtain ⟨j, hj⟩ : ∃ j, n = u.length + (l.length + (j + 1)) :=
        ⟨n - u.length - l.length - 1, by omega⟩
      rcases hback with rfl | hhead
      · rw [List.length_append, List.length_append, List.length_nil] at hn
        omega
      · obtain ⟨r, rfl⟩ := List.head?_eq_some_iff.mp hhead
        have hstep : row ('\n' :: r) (j + 1) = row r j + 1 := by
          rw [row, List.take_succ_cons, List.count_cons_self, row]
        rw [hj, row_length_add, row_length_add, hstep] at hrow
        omega
  · rintro ⟨hle, hle'⟩
    obtain ⟨j, rfl⟩ : ∃ j, n = u.length + j := ⟨n - u.length, by omega⟩
    rw [row_length_add, row_append_of_le _ (by omega), row_of_not_mem hline, Nat.add_zero]

/-- A character on a line other than a line feed is a character of the line. -/
theorem IsLine.getElem?_of_row (h : IsLine s u l w) {c : Char} (hc : s[n]? = some c)
    (hne : c ≠ '\n') (hrow : row s n = u.count '\n') :
    ∃ j, n = u.length + j ∧ l[j]? = some c := by
  obtain ⟨hn, -⟩ := List.getElem?_eq_some_iff.mp hc
  obtain ⟨hle, hle'⟩ := (h.row_eq_iff hn.le).mp hrow
  obtain ⟨j, rfl⟩ : ∃ j, n = u.length + j := ⟨n - u.length, by omega⟩
  refine ⟨j, rfl, ?_⟩
  rw [h.text, getElem?_length_add] at hc
  by_cases hj : j < l.length
  · rwa [List.getElem?_append_left hj] at hc
  · -- behind the line stands nothing or a line feed
    have hj' : j = l.length := by omega
    rw [hj', List.getElem?_append_right le_rfl, Nat.sub_self, ← List.head?_eq_getElem?] at hc
    rcases h.back with hw | hw
    · rw [hw] at hc
      cases hc
    · rw [hw] at hc
      exact absurd (Option.some.inj hc).symm hne

end

end CaplLayout.Text

namespace CaplLayout.Edit

open Text

variable {old behind new : Text}

/-! ## Line feeds of an edit -/

/-- No line feed is put in the place of anything but line feeds. -/
theorem Respaced.not_mem_new (h : Respaced old behind new) {i j : Nat} (hij : i < j)
    (hj : j ≤ old.length) (hrow : row old i = row old j) : '\n' ∉ new := by
  intro hmem
  have hfeeds := (h.feed hmem).1
  rw [row_of_feeds hfeeds (by omega), row_of_feeds hfeeds hj] at hrow
  omega

/-- No line feed is put in front of anything where there was none. -/
theorem Respaced.not_mem_new_of_count (h : Respaced old behind new)
    (hcount : old.count '\n' = 0) (hbehind : behind ≠ []) : '\n' ∉ new := by
  intro hmem
  obtain ⟨hfeeds, hnil⟩ := h.feed hmem
  have hold : old = [] := by
    rw [List.eq_nil_iff_forall_not_mem]
    intro c hc
    have hc' := hfeeds c hc
    subst hc'
    exact List.count_eq_zero.mp hcount hc
  exact hbehind (hnil hold)

end CaplLayout.Edit

namespace CaplLayout.Patch

open Text Edit

variable {rest : Text} {ps : List Patch} {m n : Nat}

/-! ## Rows along pieces -/

/-- A mark stays at its place, wherever that moves. -/
theorem getElem?_after (h : All (fun old _ _ => marks old = []) rest ps) {c : Char}
    (hc : isMark c = true) (hn : (before rest ps)[n]? = some c) :
    (after rest ps)[move ps n]? = some c := by
  induction ps generalizing n with
  | nil => exact hn
  | cons p ps ih =>
      obtain ⟨hold, hrest⟩ := h
      have hnot : c ∉ p.old := fun hmem => by
        rw [marks_eq_nil.mp hold c hmem] at hc
        cases hc
      rw [before] at hn
      rw [after]
      rcases move_cases p ps n with ⟨m, rfl, hmove⟩ | ⟨m, -, hm, rfl, -⟩ | ⟨hle, hlt, hmove⟩
      · rw [getElem?_length_add, getElem?_length_add] at hn
        rw [hmove, getElem?_length_add, getElem?_length_add]
        exact ih hrest hn
      · rw [getElem?_length_add, List.getElem?_append_left hm] at hn
        exact absurd (List.mem_of_getElem? hn) hnot
      · by_cases hkept : n < p.kept.length
        · rw [List.getElem?_append_left hkept] at hn
          rw [hmove, List.getElem?_append_left hkept, hn]
        · have hn' : n = p.kept.length := by omega
          rw [hn', List.getElem?_append_right le_rfl, Nat.sub_self,
            List.getElem?_append_left (by omega)] at hn
          exact absurd (List.mem_of_getElem? hn) hnot

/-- The rows of an offset before and after, in each of the three places where it may lie. -/
theorem row_cases (rest : Text) (p : Patch) (ps : List Patch) (n : Nat) :
    (∃ m, n = p.kept.length + (p.old.length + m)
        ∧ row (before rest (p :: ps)) n
          = p.kept.count '\n' + (p.old.count '\n' + row (before rest ps) m)
        ∧ row (after rest (p :: ps)) (move (p :: ps) n)
          = p.kept.count '\n' + (p.new.count '\n' + row (after rest ps) (move ps m)))
      ∨ (∃ m, 0 < m ∧ m < p.old.length ∧ n = p.kept.length + m
        ∧ row (before rest (p :: ps)) n = p.kept.count '\n' + row p.old m
        ∧ row (after rest (p :: ps)) (move (p :: ps) n)
          = p.kept.count '\n' + row p.new (min m p.new.length))
      ∨ (n ≤ p.kept.length ∧ n < p.kept.length + p.old.length
        ∧ row (before rest (p :: ps)) n = row p.kept n
        ∧ row (after rest (p :: ps)) (move (p :: ps) n) = row p.kept n) := by
  rw [before, after]
  rcases move_cases p ps n with ⟨m, rfl, hmove⟩ | ⟨m, hm, hlt, rfl, hmove⟩ | ⟨hle, hlt, hmove⟩
  · refine .inl ⟨m, rfl, ?_, ?_⟩
    · rw [row_length_add, row_length_add]
    · rw [hmove, row_length_add, row_length_add]
  · refine .inr (.inl ⟨m, hm, hlt, rfl, ?_, ?_⟩)
    · rw [row_length_add, row_append_of_le _ hlt.le]
    · rw [hmove, row_length_add, row_append_of_le _ (Nat.min_le_right _ _)]
  · refine .inr (.inr ⟨hle, hlt, row_append_of_le _ hle, ?_⟩)
    rw [hmove, row_append_of_le _ hle]

/-- On the first row of a text no line feed gets in front of an offset. -/
theorem row_after_eq_zero (h : All Respaced rest ps) (hn : n < (before rest ps).length)
    (hrow : row (before rest ps) n = 0) : row (after rest ps) (move ps n) = 0 := by
  induction ps generalizing n with
  | nil => exact hrow
  | cons p ps ih =>
      obtain ⟨hfirst, hrest⟩ := h
      rcases row_cases rest p ps n with ⟨j, hj, hb, ha⟩ | ⟨j, hj0, hjlt, -, hb, ha⟩ |
        ⟨-, -, hb, ha⟩
      · rw [before, List.length_append, List.length_append] at hn
        have hnew : '\n' ∉ p.new :=
          hfirst.not_mem_new_of_count (by omega) (List.ne_nil_of_length_pos (by omega))
        rw [ha, List.count_eq_zero.mpr hnew, ih hrest (by omega) (by omega)]
        omega
      · have h0 : row p.old 0 = 0 := rfl
        have hnew : '\n' ∉ p.new := hfirst.not_mem_new hj0 hjlt.le (by omega)
        rw [ha, row_of_not_mem hnew]
        omega
      · rw [ha, ← hb, hrow]

/-- **No line feed is put between two offsets that have none between them**, unless the second one
is the end of the text. -/
theorem row_after (h : All Respaced rest ps) (hmn : m ≤ n) (hn : n < (before rest ps).length)
    (hrow : row (before rest ps) m = row (before rest ps) n) :
    row (after rest ps) (move ps m) = row (after rest ps) (move ps n) := by
  induction ps generalizing m n with
  | nil => exact hrow
  | cons p ps ih =>
      obtain ⟨hfirst, hrest⟩ := h
      have hlen : (before rest (p :: ps)).length
          = p.kept.length + (p.old.length + (before rest ps).length) := by
        rw [before, List.length_append, List.length_append]
      have h0 : row p.old 0 = 0 := rfl
      have hlast : row p.old p.old.length = p.old.count '\n' := row_length p.old
      have hkept := row_le_count p.kept m
      rcases row_cases rest p ps n with ⟨j, hj, hb, ha⟩ | ⟨j, hj0, hjlt, hj, hb, ha⟩ |
        ⟨hj, hjlt, hb, ha⟩
      · -- the second offset lies behind the stretch that is replaced
        rcases row_cases rest p ps m with ⟨i, hi, hb', ha'⟩ | ⟨i, -, hilt, hi, hb', ha'⟩ |
          ⟨-, -, hb', ha'⟩
        · rw [ha, ha', ih hrest (m := i) (n := j) (by omega) (by omega) (by omega)]
        · have hle := row_le_count p.old i
          have hnew : '\n' ∉ p.new := hfirst.not_mem_new hilt le_rfl (by omega)
          rw [ha, ha', row_of_not_mem hnew, List.count_eq_zero.mpr hnew,
            row_after_eq_zero hrest (by omega) (by omega)]
        · have hnew : '\n' ∉ p.new :=
            hfirst.not_mem_new_of_count (by omega) (List.ne_nil_of_length_pos (by omega))
          rw [ha, ha', List.count_eq_zero.mpr hnew,
            row_after_eq_zero hrest (by omega) (by omega)]
          omega
      · -- it lies inside
        rcases row_cases rest p ps m with ⟨i, hi, -⟩ | ⟨i, -, -, hi, hb', ha'⟩ | ⟨-, -, hb', ha'⟩
        · omega
        · by_cases hij : i = j
          · rw [ha, ha', hij]
          · have hnew : '\n' ∉ p.new :=
              hfirst.not_mem_new (i := i) (j := j) (by omega) hjlt.le (by omega)
            rw [ha, ha', row_of_not_mem hnew, row_of_not_mem hnew]
        · have hnew : '\n' ∉ p.new := hfirst.not_mem_new hj0 hjlt.le (by omega)
          rw [ha, ha', row_of_not_mem hnew]
          omega
      · -- both lie in what is kept
        rcases row_cases rest p ps m with ⟨i, hi, -⟩ | ⟨i, hi0, -, hi, -⟩ | ⟨-, -, hb', ha'⟩
        · omega
        · omega
        · rw [ha, ha', ← hb, ← hb', hrow]

end CaplLayout.Patch
