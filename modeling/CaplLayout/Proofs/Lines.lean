import CaplLayout.Text.Basic
import Mathlib.Data.List.DropRight

/-!
# Lines of texts

What the later modules need of `lines`, `unlines` and `trimEnd`. A nonempty list of texts
without line feeds is the list of the lines of one text (`lines_unlines`), so a statement on
texts may be proved on lists of lines. `following` is the text behind a line.
-/

set_option autoImplicit false

namespace CaplLayout.Text

/-! ## Up to a mark -/

/-- A text that is cut at the first mark `c` can be read back on both sides of it. -/
theorem append_cons_inj {c : Char} {x y s t : Text} (hx : c ∉ x) (hy : c ∉ y)
    (h : x ++ c :: s = y ++ c :: t) : x = y ∧ s = t := by
  have htake : ∀ {w : Text}, c ∉ w → ∀ u : Text, (w ++ c :: u).takeWhile (· != c) = w := by
    intro w hw u
    have hall : ∀ d ∈ w, (d != c) = true := by
      intro d hd
      rw [bne_iff_ne]
      rintro rfl
      exact hw hd
    rw [List.takeWhile_append_of_pos hall]
    simp
  have hxy : x = y := by rw [← htake hx s, h, htake hy t]
  rw [hxy] at h
  exact ⟨hxy, (List.cons.inj (List.append_cancel_left h)).2⟩

/-! ## Lines without line feeds -/

/-- Texts that may be the lines of a text. -/
def AreLines (ls : List Text) : Prop := ∀ l ∈ ls, '\n' ∉ l

theorem areLines_cons {l : Text} {ls : List Text} :
    AreLines (l :: ls) ↔ '\n' ∉ l ∧ AreLines ls := by
  simp [AreLines]

theorem areLines_append {ls ms : List Text} :
    AreLines (ls ++ ms) ↔ AreLines ls ∧ AreLines ms := by
  simp only [AreLines, List.mem_append]
  exact ⟨fun h => ⟨fun l hl => h l (.inl hl), fun l hl => h l (.inr hl)⟩,
    fun h l hl => hl.elim (h.1 l) (h.2 l)⟩

theorem areLines_replicate_nil (n : Nat) : AreLines (List.replicate n []) := by
  intro l hl
  rw [List.eq_of_mem_replicate hl]
  exact List.not_mem_nil

theorem areLines_consLine {c : Char} {ls : List Text} (hc : c ≠ '\n') (h : AreLines ls) :
    AreLines (consLine c ls) := by
  cases ls with
  | nil => simpa [consLine, AreLines] using hc.symm
  | cons l ls =>
      rw [areLines_cons] at h
      rw [consLine, areLines_cons, List.mem_cons, not_or]
      exact ⟨⟨hc.symm, h.1⟩, h.2⟩

theorem areLines_lines (s : Text) : AreLines (lines s) := by
  induction s with
  | nil => simp [lines, AreLines]
  | cons c r ih =>
      unfold lines
      split
      · exact areLines_cons.mpr ⟨List.not_mem_nil, ih⟩
      · next hc => exact areLines_consLine hc ih

theorem lines_line_append {l : Text} (h : '\n' ∉ l) (s : Text) :
    lines (l ++ '\n' :: s) = l :: lines s := by
  induction l with
  | nil => simp [lines]
  | cons c l ih =>
      rw [List.mem_cons, not_or] at h
      rw [List.cons_append, lines, if_neg (Ne.symm h.1), ih h.2, consLine]

theorem lines_line {l : Text} (h : '\n' ∉ l) : lines l = [l] := by
  induction l with
  | nil => rfl
  | cons c l ih =>
      rw [List.mem_cons, not_or] at h
      rw [lines, if_neg (Ne.symm h.1), ih h.2, consLine]

/-! ## Behind a line -/

/-- What stands behind a line that the lines `ls` follow: each of them behind a line feed. -/
def following (ls : List Text) : Text := ls.flatMap ('\n' :: ·)

@[simp] theorem following_nil : following [] = [] := rfl

theorem following_cons (l : Text) (ls : List Text) :
    following (l :: ls) = '\n' :: (l ++ following ls) := rfl

theorem following_append (ls ms : List Text) :
    following (ls ++ ms) = following ls ++ following ms :=
  List.flatMap_append

theorem following_replicate_nil (n : Nat) :
    following (List.replicate n []) = List.replicate n '\n' := by
  induction n with
  | zero => rfl
  | succ n ih => rw [List.replicate_succ, following_cons, ih, List.replicate_succ, List.nil_append]

theorem unlines_cons (l : Text) (ls : List Text) : unlines (l :: ls) = l ++ following ls := by
  induction ls generalizing l with
  | nil => simp [unlines]
  | cons m ls ih => rw [unlines, ih m, following_cons]

/-- What stands behind a line is a line feed and the text of the other lines. -/
theorem following_of_ne_nil {ls : List Text} (h : ls ≠ []) : following ls = '\n' :: unlines ls := by
  cases ls with
  | nil => exact absurd rfl h
  | cons l ls => rw [following_cons, unlines_cons]

/-- A list of lines is the list of the lines of its text. -/
theorem lines_unlines {ls : List Text} (hne : ls ≠ []) (h : AreLines ls) :
    lines (unlines ls) = ls := by
  induction ls with
  | nil => exact absurd rfl hne
  | cons l ls ih =>
      rw [areLines_cons] at h
      cases ls with
      | nil => exact lines_line h.1
      | cons m ls => rw [unlines, lines_line_append h.1, ih (by simp) h.2]

/-- **The lines of two texts in a row**: the last line of the one goes on as the first line of the
other. -/
theorem lines_append_eq {s t l m : Text} {ls ms : List Text} (hs : lines s = ls ++ [l])
    (ht : lines t = m :: ms) : lines (s ++ t) = ls ++ (l ++ m) :: ms := by
  have hare := areLines_lines s
  rw [hs, areLines_append, areLines_cons] at hare
  rw [← unlines_lines s, hs]
  clear hs
  induction ls with
  | nil =>
      obtain ⟨-, hl, -⟩ := hare
      induction l with
      | nil => exact ht
      | cons c l ih =>
          rw [List.mem_cons, not_or] at hl
          have hrest : lines (l ++ t) = (l ++ m) :: ms := ih hl.2
          show lines (c :: (l ++ t)) = (c :: (l ++ m)) :: ms
          rw [lines, if_neg (Ne.symm hl.1), hrest, consLine]
  | cons k ls ih =>
      rw [areLines_cons] at hare
      have htext : unlines (k :: ls ++ [l]) = k ++ '\n' :: unlines (ls ++ [l]) := by
        rw [List.cons_append, unlines_cons, following_of_ne_nil (by simp)]
      rw [htext, List.append_assoc, List.cons_append, lines_line_append hare.1.1,
        ih ⟨hare.1.2, hare.2⟩, List.cons_append]

/-- Lists of lines that have the same text are equal, but for the empty list. -/
theorem unlines_inj {ls ms : List Text} (hls : AreLines ls) (hms : AreLines ms)
    (hnil : ls = [] ↔ ms = []) (heq : unlines ls = unlines ms) : ls = ms := by
  by_cases h : ls = []
  · rw [h, hnil.mp h]
  · rw [← lines_unlines h hls, heq, lines_unlines (mt hnil.mpr h) hms]

/-- An empty last line is a line feed at the end. -/
theorem unlines_append_nil {ls : List Text} (h : ls ≠ []) :
    unlines (ls ++ [[]]) = unlines ls ++ ['\n'] := by
  cases ls with
  | nil => exact absurd rfl h
  | cons l ls =>
      rw [List.cons_append, unlines_cons, unlines_cons, following_append, List.append_assoc]
      rfl

/-- Empty lines in front of others are as many line feeds. -/
theorem unlines_replicate_nil_append (n : Nat) {ls : List Text} (h : ls ≠ []) :
    unlines (List.replicate n [] ++ ls) = List.replicate n '\n' ++ unlines ls := by
  cases ls with
  | nil => exact absurd rfl h
  | cons l ls =>
      cases n with
      | zero => rfl
      | succ n =>
          rw [List.replicate_succ, List.cons_append, unlines_cons, unlines_cons, List.nil_append,
            following_append, following_cons, following_replicate_nil, List.replicate_succ']
          simp

/-- Empty lines first, and then either nothing or a line that is not empty. -/
theorem exists_replicate_nil_append (ls : List Text) :
    ∃ n, ls = List.replicate n [] ∨ ∃ l r, ls = List.replicate n [] ++ l :: r ∧ l ≠ [] := by
  induction ls with
  | nil => exact ⟨0, .inl rfl⟩
  | cons l ls ih =>
      by_cases hl : l = []
      · subst hl
        obtain ⟨n, rfl | ⟨m, r, rfl, hm⟩⟩ := ih
        · exact ⟨n + 1, .inl rfl⟩
        · exact ⟨n + 1, .inr ⟨m, r, rfl, hm⟩⟩
      · exact ⟨0, .inr ⟨l, ls, rfl, hl⟩⟩

/-! ## Line terminators -/

/-- A text may be cut anywhere but inside a pair. -/
theorem unifyPairs_append {s t : Text} (h : s.getLast? = some '\r' → t.head? ≠ some '\n') :
    unifyPairs (s ++ t) = unifyPairs s ++ unifyPairs t := by
  induction s with
  | nil => rfl
  | cons c s ih =>
      cases s with
      | nil =>
          cases t with
          | nil => rfl
          | cons d t =>
              have hcut : ¬ (c = '\r' ∧ d = '\n') := by
                rintro ⟨rfl, rfl⟩
                exact h rfl rfl
              show unifyPairs (c :: d :: t) = c :: unifyPairs (d :: t)
              rw [unifyPairs, if_neg hcut]
      | cons d s =>
          rw [List.getLast?_cons_cons] at h
          have hrest := ih h
          rw [List.cons_append] at hrest
          rw [List.cons_append, List.cons_append, unifyPairs, unifyPairs, hrest]
          split
          · rfl
          · rfl

/-- The pairs of two texts in a row, and the one between them. -/
theorem pairs_append (s t : Text) :
    pairs (s ++ t)
      = pairs s + (if s.getLast? = some '\r' ∧ t.head? = some '\n' then 1 else 0) + pairs t := by
  induction s with
  | nil => simp [pairs]
  | cons c s ih =>
      cases s with
      | nil =>
          cases t with
          | nil => simp [pairs]
          | cons d t => simp [pairs]
      | cons d s =>
          rw [List.cons_append] at ih
          rw [List.getLast?_cons_cons, List.cons_append, List.cons_append, pairs, pairs, ih]
          omega

/-! ## Trimming -/

theorem trimEnd_concat (p : Char → Bool) (s : Text) (c : Char) :
    trimEnd p (s ++ [c]) = if p c then trimEnd p s else s ++ [c] := by
  induction s with
  | nil => rfl
  | cons d s ih =>
      rw [List.cons_append, trimEnd, ih]
      by_cases hc : p c = true
      · rw [if_pos hc, if_pos hc, trimEnd]
      · rw [if_neg hc, if_neg hc]
        cases s <;> rfl

theorem trimEnd_eq_rdropWhile (p : Char → Bool) (s : Text) : trimEnd p s = s.rdropWhile p := by
  induction s using List.reverseRecOn with
  | nil => rfl
  | append_singleton s c ih => rw [trimEnd_concat, List.rdropWhile_concat, ih]

theorem trimEnd_trimEnd (p : Char → Bool) (s : Text) : trimEnd p (trimEnd p s) = trimEnd p s := by
  simp only [trimEnd_eq_rdropWhile, List.rdropWhile_idempotent]

theorem prefix_trimEnd (p : Char → Bool) (s : Text) : trimEnd p s <+: s := by
  rw [trimEnd_eq_rdropWhile]
  exact List.rdropWhile_prefix p s

theorem trimEnd_eq_nil {p : Char → Bool} {s : Text} :
    trimEnd p s = [] ↔ ∀ c ∈ s, p c = true := by
  rw [trimEnd_eq_rdropWhile, List.rdropWhile_eq_nil_iff]

theorem length_trimEnd_le (p : Char → Bool) (s : Text) : (trimEnd p s).length ≤ s.length :=
  (prefix_trimEnd p s).length_le

/-- A text is trimmed when trimming takes no character from it. -/
theorem trimEnd_eq_self_of_length {p : Char → Bool} {s : Text}
    (h : (trimEnd p s).length = s.length) : trimEnd p s = s :=
  (prefix_trimEnd p s).eq_of_length h

/-- Only the part behind matters while something of it stays. -/
theorem trimEnd_append {p : Char → Bool} {s : Text} (t : Text) (h : trimEnd p s ≠ []) :
    trimEnd p (t ++ s) = t ++ trimEnd p s := by
  induction t with
  | nil => rfl
  | cons c t ih =>
      rw [List.cons_append, trimEnd, ih, List.cons_append]
      cases ht : t ++ trimEnd p s with
      | nil => exact absurd (List.append_eq_nil_iff.mp ht).2 h
      | cons d u => rfl

/-! ## Blanks -/

/-- The text of a line behind the blanks in front. -/
abbrev body (l : Text) : Text := l.dropWhile isBlank

/-- The blanks in front of a line. -/
abbrev margin (l : Text) : Text := l.takeWhile isBlank

theorem margin_append_body (l : Text) : margin l ++ body l = l :=
  List.takeWhile_append_dropWhile

theorem length_margin_add_body (l : Text) : (margin l).length + (body l).length = l.length := by
  rw [← List.length_append, margin_append_body]

theorem body_append {i : Text} (h : ∀ c ∈ i, isBlank c = true) (l : Text) :
    body (i ++ body l) = body l := by
  rw [body, List.dropWhile_append_of_pos h]
  exact List.dropWhile_idempotent _ l

theorem margin_append {i : Text} (h : ∀ c ∈ i, isBlank c = true) (l : Text) :
    margin (i ++ body l) = i :=
  List.append_cancel_right ((margin_append_body _).trans (by rw [body_append h]))

/-- A line has content when something stands behind its indentation. -/
theorem trimEnd_body_eq_nil {l : Text} : trimEnd isBlank (body l) = [] ↔ body l = [] := by
  rw [trimEnd_eq_nil]
  constructor
  · intro h
    by_contra hb
    have hhead := List.head_dropWhile_not isBlank hb
    rw [h _ (List.head_mem hb)] at hhead
    exact absurd hhead (by decide)
  · intro h c hc
    rw [h] at hc
    cases hc

theorem all_isBlank {l : Text} : l.all isBlank = true ↔ body l = [] := by
  rw [List.dropWhile_eq_nil_iff, List.all_eq_true]

/-- Nothing is left of a blank line. -/
theorem trimEnd_of_body_eq_nil {l : Text} (h : body l = []) : trimEnd isBlank l = [] :=
  trimEnd_eq_nil.mpr (List.dropWhile_eq_nil_iff.mp h)

/-- A line with content is trimmed behind its indentation. -/
theorem trimEnd_of_body_ne_nil {l : Text} (h : body l ≠ []) :
    trimEnd isBlank l = margin l ++ trimEnd isBlank (body l) := by
  have htrim := trimEnd_append (margin l) (mt trimEnd_body_eq_nil.mp h)
  rwa [margin_append_body] at htrim

theorem body_trimEnd (l : Text) : body (trimEnd isBlank l) = trimEnd isBlank (body l) := by
  by_cases h : body l = []
  · rw [trimEnd_of_body_eq_nil h, h]
    rfl
  · have hmargin : ∀ c ∈ margin l, isBlank c = true := fun c hc => List.mem_takeWhile_imp hc
    have hhead := List.head_dropWhile_not isBlank h
    obtain ⟨t, ht⟩ := prefix_trimEnd isBlank (body l)
    rw [trimEnd_of_body_ne_nil h, body, List.dropWhile_append_of_pos hmargin]
    -- what is left of the body starts as the body does, with a character that is not blank
    cases htrim : trimEnd isBlank (body l) with
    | nil => exact absurd (trimEnd_body_eq_nil.mp htrim) h
    | cons c b =>
        rw [htrim, List.cons_append] at ht
        have hc : (body l).head h = c := by simp [← ht]
        rw [hc] at hhead
        rw [List.dropWhile_cons_of_neg (by simp [hhead])]

/-- Trimming the end of a line leaves the first character behind its indentation. -/
theorem head?_trimEnd_body (l : Text) : (trimEnd isBlank (body l)).head? = (body l).head? := by
  obtain ⟨t, ht⟩ := prefix_trimEnd isBlank (body l)
  by_cases hb : trimEnd isBlank (body l) = []
  · rw [hb, trimEnd_body_eq_nil.mp hb]
  · conv_rhs => rw [← ht]
    rw [List.head?_append_of_ne_nil _ hb]

theorem margin_trimEnd {l : Text} (h : body l ≠ []) : margin (trimEnd isBlank l) = margin l := by
  have hsplit := margin_append_body (trimEnd isBlank l)
  rw [body_trimEnd, trimEnd_of_body_ne_nil h] at hsplit
  rw [trimEnd_of_body_ne_nil h]
  exact List.append_cancel_right hsplit

end CaplLayout.Text
