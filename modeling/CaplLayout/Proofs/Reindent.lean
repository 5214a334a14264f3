import CaplLayout.Proofs.Lines
import CaplLayout.Proofs.Margins

/-!
# Indentation line by line

The indentation rule proposes at most one edit a line, so its edits are in order and apart as
they come. `reindent` says what becomes of the lines: `text_advance_edits` is the main
statement.
-/

set_option autoImplicit false

namespace CaplLayout.Indentation

open Text Edit Margins

variable {settings : Settings}

/-- A line that starts in scanner state `s`, with `pre` characters in front of it and `suf`
behind it, indented to its level if its indentation lies between the margins. -/
def indentLine (settings : Settings) (m : Margins) (s : Scan) (pre suf : Nat) (l : Text) :
    Text :=
  match s.level (body l) with
  | none => l
  | some n =>
    if body l ≠ [] ∧ m.Admit pre ((body l).length + suf) then settings.indentOf n ++ body l
    else l

/-- The lines after the rule, when the first starts at `pre` in scanner state `s`. -/
def reindent (settings : Settings) (m : Margins) : (s : Scan) → (pre : Nat) → List Text → List Text
  | _, _, [] => []
  | s, pre, l :: r =>
    indentLine settings m s pre (following r).length l
      :: reindent settings m (s.readLine l) (pre + l.length + 1) r

/-- Indentation consists of blanks. -/
theorem isBlank_indentOf (settings : Settings) (n : Nat) :
    ∀ c ∈ settings.indentOf n, isBlank c = true := by
  intro c hc
  obtain ⟨u, hu, hcu⟩ := List.mem_flatten.mp hc
  rw [List.eq_of_mem_replicate hu, Settings.indentUnit] at hcu
  split at hcu
  · rw [List.mem_singleton.mp hcu]
    rfl
  · rw [List.eq_of_mem_replicate hcu]
    rfl

/-! ## The edits in order -/

/-- The edits of some lines, the first of which starts at `pre` in scanner state `s`. -/
def lineEdits (settings : Settings) (s : Scan) (pre : Nat) (ls : List Text) : List Edit :=
  (Line.listFrom s pre ls).filterMap (lineEdit settings)

/-- The edit of a line, if it has one. -/
def editAt (settings : Settings) (s : Scan) (pre : Nat) (l : Text) : List Edit :=
  match s.level (body l) with
  | none => []
  | some n =>
    if body l = [] ∨ margin l = settings.indentOf n then []
    else [⟨pre, (pre + (margin l).length : Nat), settings.indentOf n, 0⟩]

theorem lineEdits_cons (s : Scan) (pre : Nat) (l : Text) (r : List Text) :
    lineEdits settings s pre (l :: r)
      = editAt settings s pre l ++ lineEdits settings (s.readLine l) (pre + l.length + 1) r := by
  have hedit : (lineEdit settings (Line.ofText s pre l)).toList = editAt settings s pre l := by
    unfold lineEdit editAt Line.ofText Line.indentEnd
    dsimp only
    cases s.level (body l) with
    | none => rfl
    | some n =>
        simp only [trimEnd_body_eq_nil]
        split <;> rfl
  rw [lineEdits, Line.listFrom, List.filterMap_cons, ← hedit]
  cases lineEdit settings (Line.ofText s pre l) <;> rfl

theorem mem_editAt {s : Scan} {pre : Nat} {l : Text} {d : Edit}
    (h : d ∈ editAt settings s pre l) :
    body l ≠ [] ∧ ∃ n, s.level (body l) = some n ∧ margin l ≠ settings.indentOf n
      ∧ d = ⟨pre, (pre + (margin l).length : Nat), settings.indentOf n, 0⟩ := by
  unfold editAt at h
  split at h
  · cases h
  · next n hn =>
      split at h
      · cases h
      · next hc =>
          rw [not_or] at hc
          exact ⟨hc.1, n, hn, hc.2, List.mem_singleton.mp h⟩

theorem within_editAt {s : Scan} {pre : Nat} {l : Text} {d : Edit}
    (h : d ∈ editAt settings s pre l) : Within pre (pre + l.length : Nat) d := by
  obtain ⟨-, n, -, -, rfl⟩ := mem_editAt h
  have := length_margin_add_body l
  exact ⟨le_rfl, by dsimp only; omega, by dsimp only; omega⟩

theorem within_lineEdits (s : Scan) (pre : Nat) (l : Text) (r : List Text) :
    ∀ d ∈ lineEdits settings s pre (l :: r),
      Within pre (pre + l.length + (following r).length : Nat) d := by
  induction r generalizing s pre l with
  | nil =>
      intro d hd
      rw [lineEdits_cons] at hd
      rcases List.mem_append.mp hd with hd | hd
      · exact (within_editAt hd).mono le_rfl (by omega)
      · cases hd
  | cons l' r ih =>
      intro d hd
      rw [lineEdits_cons] at hd
      rcases List.mem_append.mp hd with hd | hd
      · exact (within_editAt hd).mono le_rfl (by omega)
      · refine (ih _ _ l' d hd).mono (by omega) ?_
        rw [following_cons, List.length_cons, List.length_append]
        omega

theorem pairwise_lineEdits (settings : Settings) (s : Scan) (pre : Nat) (ls : List Text) :
    (lineEdits settings s pre ls).Pairwise Before := by
  induction ls generalizing s pre with
  | nil => exact List.Pairwise.nil
  | cons l r ih =>
      rw [lineEdits_cons]
      refine pairwise_append ?_ (ih _ _) fun a ha b hb => ?_
      · unfold editAt
        split
        · simp
        · split <;> simp
      · have h1 := within_editAt ha
        cases r with
        | nil => cases hb
        | cons l' r =>
            have h2 := (within_lineEdits _ _ l' r b hb).1
            exact before_of_start_lt (by have := h1.2; omega)

/-! ## Carrying them out -/

section

variable {m : Margins} {n : Nat} {admits : Edit → Bool}

/-- Over a line. -/
theorem carry_editAt (hadm : Respects admits m n) {s : Scan} {pre : Nat} {l t : Text}
    {es : List Edit} (hn : n = pre + l.length + t.length)
    (h : ∀ d ∈ es, Within (pre + l.length : Nat) n d) :
    carry pre (l ++ t) (separate pre ((editAt settings s pre l).filter admits ++ es))
      = indentLine settings m s pre t.length l
          ++ carry (pre + l.length) t (separate (pre + l.length : Nat) es) := by
  have hlen := length_margin_add_body l
  have htext : l ++ t = margin l ++ (body l ++ t) := by
    rw [← List.append_assoc, margin_append_body]
  have hstop : pre + l.length = pre + (margin l).length + (body l).length := by omega
  unfold editAt indentLine
  cases hlevel : s.level (body l) with
  | none => rw [List.filter_nil, List.nil_append, carry_piece h]
  | some k =>
      dsimp only
      by_cases hb : body l = []
      · rw [if_pos (.inl hb), if_neg (fun hc => hc.1 hb), List.filter_nil, List.nil_append,
          carry_piece h]
      · by_cases hk : margin l = settings.indentOf k
        · -- the line is indented already
          rw [if_pos (.inr hk), List.filter_nil, List.nil_append, carry_piece h, ← hk,
            margin_append_body, ite_self]
        · have hsuf : n - (pre + (margin l).length) = (body l).length + t.length := by omega
          rw [hstop] at h
          have hes : ∀ d ∈ es, Within (pre + (margin l).length : Nat) n d :=
            fun d hd => (h d hd).mono (by omega) le_rfl
          rw [if_neg (not_or.mpr ⟨hb, hk⟩), filter_singleton hadm (by omega), hsuf, htext,
            carry_step _ _ _ hes, carry_piece h, hstop, ← List.append_assoc]
          congr 1
          by_cases hm : m.Admit pre ((body l).length + t.length)
          · rw [if_pos hm, if_pos ⟨hb, hm⟩]
          · rw [if_neg hm, if_neg fun hc => hm hc.2, margin_append_body]

/-- **Along the text**: the edits that are carried out leave the lines of the walk. -/
theorem carry_lineEdits (hadm : Respects admits m n) (s : Scan) (pre : Nat) (l : Text)
    {r : List Text} (hn : n = pre + l.length + (following r).length) :
    carry pre (l ++ following r)
        (separate pre ((lineEdits settings s pre (l :: r)).filter admits))
      = unlines (reindent settings m s pre (l :: r)) := by
  induction r generalizing s pre l with
  | nil =>
      have hnone : ∀ d ∈ (lineEdits settings (s.readLine l) (pre + l.length + 1) []).filter admits,
          Within (pre + l.length : Nat) n d := by
        simp [lineEdits, Line.listFrom]
      rw [lineEdits_cons, List.filter_append, carry_editAt hadm hn hnone, reindent, reindent,
        unlines_cons]
      rfl
  | cons l' r ih =>
      rw [following_cons, List.length_cons, List.length_append] at hn
      have hrest : ∀ d ∈ (lineEdits settings (s.readLine l) (pre + l.length + 1)
          (l' :: r)).filter admits, Within (pre + l.length + 1 : Nat) n d := by
        intro d hd
        exact (within_lineEdits _ _ l' r d (List.mem_filter.mp hd).1).mono le_rfl (by omega)
      have hline : ∀ d ∈ (lineEdits settings (s.readLine l) (pre + l.length + 1)
          (l' :: r)).filter admits, Within (pre + l.length : Nat) n d :=
        fun d hd => (hrest d hd).mono (by omega) le_rfl
      -- the line feed behind the line stands in front of all edits that are left
      have hfeed := carry_piece (k := ['\n']) (t := l' ++ following r) hrest
      have hnext := ih (s.readLine l) (pre + l.length + 1) l' (by omega)
      rw [List.length_singleton, hnext, List.singleton_append] at hfeed
      rw [lineEdits_cons, List.filter_append,
        carry_editAt hadm (by rw [following_cons, List.length_cons, List.length_append]; omega)
          hline,
        following_cons, hfeed, List.singleton_append]
      have hne : reindent settings m (s.readLine l) (pre + l.length + 1) (l' :: r) ≠ [] := by
        simp [reindent]
      rw [← following_of_ne_nil hne, ← following_cons]
      exact (unlines_cons _ _).symm

end

/-- The first line of a text stands at level zero. -/
theorem level_initial (b : Text) : Scan.initial.level b = some 0 := by
  simp [Scan.level, Scan.initial]

/-- The edits lie in the text and none of them inserts something at its start. -/
theorem within_edits (source : Text) :
    ∀ d ∈ edits settings source, Within 0 source.length d ∧ 0 < d.stop := by
  intro d hd
  have hsource := unlines_lines source
  rw [edits, Line.ofSource] at hd
  change d ∈ lineEdits settings .initial 0 source.lines at hd
  cases hlines : source.lines with
  | nil => exact absurd hlines (lines_ne_nil source)
  | cons l r =>
      rw [hlines] at hd hsource
      rw [unlines_cons] at hsource
      have hin := within_lineEdits _ _ l r d hd
      rw [← hsource, List.length_append]
      refine ⟨hin.mono (by omega) (by omega), ?_⟩
      rw [lineEdits_cons] at hd
      rcases List.mem_append.mp hd with hd | hd
      · -- the first line stands at level zero, so there is something to remove
        obtain ⟨-, k, hlevel, hk, rfl⟩ := mem_editAt hd
        rw [level_initial] at hlevel
        cases hlevel
        have hpos := List.length_pos_iff.mpr hk
        dsimp only
        omega
      · cases r with
        | nil => cases hd
        | cons l' r =>
            have hin := within_lineEdits _ _ l' r d hd
            have := hin.1
            have := hin.2.1
            omega

/-- **The text after the rule.** -/
theorem text_advance_edits (settings : Settings) (p : Progress) :
    (p.advance (edits settings p.text)).text
      = unlines (reindent settings p.margins .initial 0 p.text.lines) := by
  have hadm : Respects p.admits p.margins p.text.length := p.admits_eq
  have hin : ∀ d ∈ (edits settings p.text).filter p.admits, Within 0 p.text.length d :=
    fun d hd => (within_edits p.text d (List.mem_filter.mp hd).1).1
  have hedits : edits settings p.text = lineEdits settings .initial 0 p.text.lines := rfl
  have hsort := mergeSort_eq (List.Perm.refl _)
    ((pairwise_lineEdits settings .initial 0 p.text.lines).filter p.admits)
  have hsource := unlines_lines p.text
  rw [Progress.text_advance, apply_fst hin, arrange, hedits, hsort]
  cases hlines : p.text.lines with
  | nil => exact absurd hlines (lines_ne_nil p.text)
  | cons l r =>
      rw [hlines, unlines_cons] at hsource
      rw [← hsource] at hadm
      rw [← hsource]
      exact carry_lineEdits hadm _ _ _ (by rw [List.length_append, Nat.zero_add])

theorem areLines_reindent (m : Margins) (s : Scan) (pre : Nat) {ls : List Text}
    (h : AreLines ls) : AreLines (reindent settings m s pre ls) := by
  induction ls generalizing s pre with
  | nil => exact h
  | cons l r ih =>
      rw [areLines_cons] at h
      refine areLines_cons.mpr ⟨?_, ih _ _ h.2⟩
      unfold indentLine
      split
      · exact h.1
      · split
        · next n _ _ =>
            intro hc
            rcases List.mem_append.mp hc with hc | hc
            · exact absurd (isBlank_indentOf settings n _ hc) (by decide)
            · exact h.1 ((List.dropWhile_suffix isBlank).subset hc)
        · exact h.1

/-- **The lines after the rule.** -/
theorem lines_advance_edits (settings : Settings) (p : Progress) :
    (p.advance (edits settings p.text)).text.lines
      = reindent settings p.margins .initial 0 p.text.lines := by
  rw [text_advance_edits]
  refine lines_unlines ?_ (areLines_reindent _ _ _ (areLines_lines p.text))
  cases hlines : p.text.lines with
  | nil => exact absurd hlines (lines_ne_nil p.text)
  | cons l r => simp [reindent]

end CaplLayout.Indentation
