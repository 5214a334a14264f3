import CaplLayout.Proofs.Lines

/-!
# Empty lines

`squeeze` shortens every run of empty lines to one and `strip` drops those at either end.
Together they are one fold over the lines from behind (`squeeze_strip`): a line is put in front
of what is left of the lines behind it, but an empty one only in front of a line that is not
empty (`put`). This form commutes with everything that is done line by line.
-/

set_option autoImplicit false

namespace CaplLayout.Layout

/-! ## The definitions -/

/-- Shortens each run of empty lines to one. -/
def squeeze : List Text → List Text
  | [] => []
  | l :: r => if l = [] ∧ r.head? = some [] then squeeze r else l :: squeeze r

/-- The lines without the empty ones at either end. -/
def strip (ls : List Text) : List Text := (ls.dropWhile List.isEmpty).rdropWhile List.isEmpty

/-- Puts a line in front of others, an empty one only in front of one that is not empty. -/
def put (l : Text) (ls : List Text) : List Text :=
  if l = [] ∧ (ls = [] ∨ ls.head? = some []) then ls else l :: ls

/-- Drops the empty lines at the end and shortens each other run to one. -/
def tidy (ls : List Text) : List Text := ls.foldr put []

/-- Drops the empty lines at either end and shortens each other run to one. -/
def compact (ls : List Text) : List Text := (tidy ls).dropWhile List.isEmpty

/-! ## Putting lines in front -/

theorem put_of_ne_nil {l : Text} (h : l ≠ []) (ls : List Text) : put l ls = l :: ls :=
  if_neg fun hc => h hc.1

theorem put_nil_nil_cons (ls : List Text) : put [] ([] :: ls) = [] :: ls := if_pos ⟨rfl, .inr rfl⟩

theorem put_nil_cons {l : Text} (h : l ≠ []) (ls : List Text) : put [] (l :: ls) = [] :: l :: ls :=
  if_neg fun hc => h (by simpa using hc.2)

theorem put_nil (ls : List Text) : put [] ls = ls ∨ ls ≠ [] ∧ put [] ls = [] :: ls := by
  unfold put
  split
  · exact .inl rfl
  · next h => exact .inr ⟨fun hc => h ⟨rfl, .inl hc⟩, rfl⟩

theorem put_nil_put_nil (ls : List Text) : put [] (put [] ls) = put [] ls := by
  rcases put_nil ls with h | ⟨-, h⟩
  · rw [h, h]
  · rw [h, put_nil_nil_cons]

theorem tidy_cons (l : Text) (r : List Text) : tidy (l :: r) = put l (tidy r) := rfl

theorem tidy_append_nil (ls : List Text) : tidy (ls ++ [[]]) = tidy ls := by
  rw [tidy, List.foldr_append]
  rfl

/-- One empty line is left of a run in front of a line. -/
theorem tidy_replicate_nil_append (e : Nat) {l : Text} (h : l ≠ []) (r : List Text) :
    tidy (List.replicate e [] ++ l :: r) = List.replicate (min e 1) [] ++ l :: tidy r := by
  induction e with
  | zero => exact put_of_ne_nil h (tidy r)
  | succ e ih =>
      rw [List.replicate_succ, List.cons_append, tidy_cons, ih]
      cases e with
      | zero => exact put_nil_cons h (tidy r)
      | succ e =>
          rw [show min (e + 1) 1 = 1 by omega, show min (e + 1 + 1) 1 = 1 by omega,
            List.replicate_one, List.singleton_append, put_nil_nil_cons]

theorem tidy_replicate_nil (e : Nat) : tidy (List.replicate e []) = [] := by
  induction e with
  | zero => rfl
  | succ e ih => rw [List.replicate_succ, tidy_cons, ih]; rfl

theorem dropWhile_put_nil (ls : List Text) :
    (put [] ls).dropWhile List.isEmpty = ls.dropWhile List.isEmpty := by
  rcases put_nil ls with h | ⟨-, h⟩
  · rw [h]
  · rw [h]
    rfl

theorem compact_nil_cons (r : List Text) : compact ([] :: r) = compact r :=
  dropWhile_put_nil (tidy r)

theorem compact_cons {l : Text} (h : l ≠ []) (r : List Text) : compact (l :: r) = l :: tidy r := by
  rw [compact, tidy_cons, put_of_ne_nil h]
  exact List.dropWhile_cons_of_neg (by simpa using h)

theorem compact_append_nil (ls : List Text) : compact (ls ++ [[]]) = compact ls := by
  rw [compact, tidy_append_nil, compact]

/-! ## Squeezing and stripping -/

theorem rdropWhile_cons {α : Type} (p : α → Bool) (a : α) (l : List α) :
    (a :: l).rdropWhile p
      = if l.rdropWhile p = [] then (if p a then [] else [a]) else a :: l.rdropWhile p := by
  unfold List.rdropWhile
  rw [List.reverse_cons, List.dropWhile_append]
  by_cases h : l.reverse.dropWhile p = []
  · rw [h]
    by_cases ha : p a = true
    · simp [ha]
    · simp [ha]
  · simp [h]

theorem head?_squeeze (ls : List Text) : (squeeze ls).head? = ls.head? := by
  induction ls with
  | nil => rfl
  | cons l r ih =>
      rw [squeeze]
      split
      · next h => rw [ih, h.2, h.1]; rfl
      · rfl

theorem squeeze_eq_nil {ls : List Text} : squeeze ls = [] ↔ ls = [] := by
  rw [← List.head?_eq_none_iff, head?_squeeze, List.head?_eq_none_iff]

theorem squeeze_rdropWhile (ls : List Text) :
    squeeze (ls.rdropWhile List.isEmpty) = tidy ls := by
  induction ls with
  | nil => rfl
  | cons l r ih =>
      have hnil : tidy r = [] ↔ r.rdropWhile List.isEmpty = [] := by rw [← ih, squeeze_eq_nil]
      have hhead : (tidy r).head? = (r.rdropWhile List.isEmpty).head? := by
        rw [← ih, head?_squeeze]
      -- `put` asks of the squeezed lines what `squeeze` asks of those before squeezing
      rw [rdropWhile_cons, tidy_cons, put]
      simp only [hnil, hhead]
      rw [← ih]
      by_cases hr : r.rdropWhile List.isEmpty = []
      · rw [hr]
        cases l with
        | nil => rfl
        | cons c l => rfl
      · rw [if_neg hr, squeeze]
        simp only [hr, false_or]

/-- **Squeezing what is stripped is compacting.** -/
theorem squeeze_strip (ls : List Text) : squeeze (strip ls) = compact ls := by
  rw [strip, squeeze_rdropWhile]
  induction ls with
  | nil => rfl
  | cons l r ih =>
      cases l with
      | nil => exact ih.trans (compact_nil_cons r).symm
      | cons c l => exact (compact_cons (by simp) r).symm

/-! ## Lines one by one -/

section

variable {f : Text → Text}

/-- Compacting first makes no difference to what is compacted behind a change of the lines that
keeps empty ones empty. -/
theorem tidy_map_tidy (hf : f [] = []) (ls : List Text) :
    tidy ((tidy ls).map f) = tidy (ls.map f) := by
  induction ls with
  | nil => rfl
  | cons l r ih =>
      rw [List.map_cons, tidy_cons, tidy_cons, ← ih, put]
      -- a line that is dropped is empty, and its image would be dropped as well
      split
      · next h =>
          rw [h.1, hf]
          rcases h.2 with hr | hr
          · rw [hr]
            rfl
          · obtain ⟨t, ht⟩ : ∃ t, tidy r = [] :: t := by
              cases htidy : tidy r with
              | nil => rw [htidy] at hr; cases hr
              | cons a t => rw [htidy] at hr; cases hr; exact ⟨t, rfl⟩
            rw [ht, List.map_cons, hf, tidy_cons, put_nil_put_nil]
      · rw [List.map_cons, tidy_cons]

theorem compact_map_dropWhile (hf : f [] = []) (ls : List Text) :
    compact ((ls.dropWhile List.isEmpty).map f) = compact (ls.map f) := by
  induction ls with
  | nil => rfl
  | cons l r ih =>
      cases l with
      | nil => rw [List.map_cons, hf, compact_nil_cons, ← ih]; rfl
      | cons c l => rfl

theorem compact_map_compact (hf : f [] = []) (ls : List Text) :
    compact ((compact ls).map f) = compact (ls.map f) := by
  rw [compact.eq_1 ls, compact_map_dropWhile hf, compact, tidy_map_tidy hf, compact]

end

theorem mem_of_mem_tidy {l : Text} {ls : List Text} (h : l ∈ tidy ls) : l ∈ ls := by
  induction ls with
  | nil => exact h
  | cons a r ih =>
      rw [tidy_cons, put] at h
      split at h
      · exact List.mem_cons_of_mem a (ih h)
      · rcases List.mem_cons.mp h with h | h
        · exact List.mem_cons.mpr (.inl h)
        · exact List.mem_cons_of_mem a (ih h)

theorem mem_of_mem_compact {l : Text} {ls : List Text} (h : l ∈ compact ls) : l ∈ ls :=
  mem_of_mem_tidy ((List.dropWhile_suffix _).subset h)

end CaplLayout.Layout
