import CaplLayout.Proofs.Lines
import CaplLayout.Proofs.Margins

/-!
# White space cleanup line by line

The cleanup rule proposes four families of edits, which overlap on the runs of line feeds at
either end of the text. `sweep` says in one walk over the lines what becomes of them:
`text_advance_edits` is the main statement.

The walk meets the edits in order. Behind a line that is not empty they are `ordered`; this
list is strictly ordered and has the members of the four families (`ordered_perm`), so it is
what sorting makes of them, and `carry_ordered` walks along it. Texts of line feeds only are
a case of their own: there the first and the last run are the same, and of two edits with the
same key the one found first wins.
-/

set_option autoImplicit false

namespace CaplLayout.Whitespace

open Text Edit Margins

/-! ## The walk -/

/-- A line with `pre` characters in front of it and `suf` behind it, without the blanks at its
end if these lie between the margins. -/
def trimLine (m : Margins) (pre suf : Nat) (l : Text) : Text :=
  if m.Admit (pre + (trimEnd isBlank l).length) suf then trimEnd isBlank l else l

/-- The number of line feeds that stand between `pre` and a line when `e` empty lines lie in
front of the line. At the start of the text no line feed ends a line before them. -/
def feeds (pre e : Nat) : Nat := if pre = 0 then e else e + 1

/-- How many of `e` empty lines between `pre` and a line are left. -/
def kept (m : Margins) (pre e suf : Nat) : Nat :=
  if m.Admit pre suf then (if pre = 0 then 0 else min e 1) else e

/-- The lines after the cleanup. The lines before have ended at `pre`, and `e` empty lines have
been met since. -/
def sweep (m : Margins) : (pre e : Nat) → List Text → List Text
  | pre, e, [] => if m.Admit pre 0 then [[]] else List.replicate e []
  | pre, e, l :: r =>
    if l = [] then sweep m pre (e + 1) r
    else
      let start := pre + feeds pre e
      List.replicate (kept m pre e (l.length + (following r).length)) []
        ++ trimLine m start (following r).length l :: sweep m (start + l.length) 0 r

/-! ## The edits in order -/

/-- The edit that squeezes `n` line feeds behind `pre`. -/
def squeezeAt (pre n : Nat) : List Edit :=
  if 3 ≤ n then [⟨pre, (pre + n : Nat), ['\n', '\n'], 1⟩] else []

/-- The edits behind a line that ends at `pre` and is not empty, when `e` empty lines have been
met since. -/
def ordered : (pre e : Nat) → List Text → List Edit
  | pre, e, [] =>
    if e = 0 then [⟨pre, pre, ['\n'], 0⟩]
    else (if 2 ≤ e then [⟨pre, (pre + e : Nat), ['\n'], 0⟩] else []) ++ squeezeAt pre e
  | pre, e, l :: r =>
    if l = [] then ordered pre (e + 1) r
    else
      squeezeAt pre (e + 1)
        ++ (trailingEdit (pre + e + 1) l ++ ordered (pre + e + 1 + l.length) 0 r)

/-- The edits that squeeze the long ones among some runs. -/
def squeezes (rs : List Run) : List Edit :=
  (rs.filter fun r => 3 ≤ r.length).map fun r => r.replaceBy ['\n', '\n'] 1

theorem squeezes_append (rs ss : List Run) : squeezes (rs ++ ss) = squeezes rs ++ squeezes ss := by
  simp [squeezes]

theorem squeezes_singleton (pre n : Nat) : squeezes [⟨pre, n⟩] = squeezeAt pre n := by
  by_cases h : 3 ≤ n
  · simp [squeezes, squeezeAt, h, Run.replaceBy]
  · simp [squeezes, squeezeAt, h]

theorem runsFrom_line_zero (off : Nat) {l : Text} (h : '\n' ∉ l) (t : Text) :
    runsFrom off 0 (l ++ t) = runsFrom (off + l.length) 0 t := by
  induction l generalizing off with
  | nil => rfl
  | cons c l ih =>
      rw [List.mem_cons, not_or] at h
      rw [List.cons_append, runsFrom, if_neg (Ne.symm h.1), if_pos rfl, ih (off + 1) h.2,
        List.length_cons]
      congr 1
      omega

/-- A line ends the run in front of it. -/
theorem runsFrom_line (off len : Nat) {l : Text} (h : '\n' ∉ l) (hne : l ≠ []) (t : Text) :
    runsFrom off len (l ++ t)
      = (if len = 0 then [] else [⟨off - len, len⟩]) ++ runsFrom (off + l.length) 0 t := by
  cases l with
  | nil => exact absurd rfl hne
  | cons c l =>
      rw [List.mem_cons, not_or] at h
      have hrest := runsFrom_line_zero (off + 1) h.2 t
      rw [List.cons_append, runsFrom, if_neg (Ne.symm h.1)]
      dsimp only
      rw [hrest, List.length_cons, Nat.add_assoc, Nat.add_comm 1]
      split <;> rfl

theorem runsFrom_replicate (off len n : Nat) (t : Text) :
    runsFrom off len (List.replicate n '\n' ++ t) = runsFrom (off + n) (len + n) t := by
  induction n generalizing off len with
  | zero => rfl
  | succ n ih =>
      rw [List.replicate_succ, List.cons_append, runsFrom, if_pos rfl, ih]
      congr 1 <;> omega

/-- The last edit of a text that ends in `n` line feeds. -/
theorem finalEdits_append_replicate {s : Text} (hne : s ≠ []) (hs : s.getLast? ≠ some '\n')
    (n : Nat) :
    finalEdits (s ++ List.replicate n '\n')
      = if 2 ≤ n then [⟨s.length, (s.length + n : Nat), ['\n'], 0⟩]
        else if n = 0 then [⟨s.length, s.length, ['\n'], 0⟩] else [] := by
  have hrun : ((s ++ List.replicate n '\n').reverse.takeWhile (· == '\n')).length = n := by
    rw [List.reverse_append, List.reverse_replicate,
      List.takeWhile_append_of_pos (by simp), List.length_append, List.length_replicate]
    cases hr : s.reverse with
    | nil => exact absurd (List.reverse_eq_nil_iff.mp hr) hne
    | cons c t =>
        have hc : c ≠ '\n' := by
          rintro rfl
          rw [← List.head?_reverse, hr] at hs
          exact hs rfl
        rw [List.takeWhile_cons_of_neg (by simpa using hc), List.length_nil, Nat.add_zero]
  unfold finalEdits
  rw [hrun]
  by_cases h2 : 2 ≤ n
  · simp [h2]
  · by_cases h0 : n = 0
    · simp [h0, hne]
    · simp [h2, h0]

theorem trailingEdit_nil (start : Nat) : trailingEdit start [] = [] := rfl

/-- **The ordered edits are the edits of the rule** behind a text `s` that ends in a line that is
not empty. -/
theorem ordered_perm {ls : List Text} (h : AreLines ls) (e : Nat) {s : Text} (hne : s ≠ [])
    (hs : s.getLast? ≠ some '\n') :
    (ordered s.length e ls).Perm
      (trailingEdits (s.length + e + 1) ls
        ++ (squeezes (runsFrom (s.length + e) e (following ls))
          ++ finalEdits (s ++ List.replicate e '\n' ++ following ls))) := by
  induction ls generalizing e s with
  | nil =>
      rw [following_nil, List.append_nil, finalEdits_append_replicate hne hs, ordered,
        trailingEdits, List.nil_append, runsFrom]
      by_cases h0 : e = 0
      · subst h0
        exact List.Perm.refl _
      · rw [if_neg h0, if_neg h0, if_neg h0, squeezes_singleton, Nat.add_sub_cancel]
        exact List.perm_append_comm
  | cons l r ih =>
      rw [areLines_cons] at h
      rw [following_cons, ordered, trailingEdits, runsFrom, if_pos rfl]
      by_cases hl : l = []
      · subst hl
        have hrun : s ++ List.replicate e '\n' ++ '\n' :: ([] ++ following r)
            = s ++ List.replicate (e + 1) '\n' ++ following r := by
          rw [List.replicate_succ']
          simp
        rw [if_pos rfl, trailingEdit_nil, List.nil_append, hrun]
        exact ih h.2 (e + 1) hne hs
      · have hne' : s ++ List.replicate (e + 1) '\n' ++ l ≠ [] := by simp [hl]
        have hlast : (s ++ List.replicate (e + 1) '\n' ++ l).getLast? ≠ some '\n' := by
          rw [List.getLast?_append_of_ne_nil _ hl]
          exact fun hc => h.1 (List.mem_of_getLast? hc)
        have hlen : (s ++ List.replicate (e + 1) '\n' ++ l).length
            = s.length + e + 1 + l.length := by
          simp only [List.length_append, List.length_replicate]
          omega
        have hrest := ih h.2 0 hne' hlast
        rw [hlen, List.replicate_zero, List.append_nil, Nat.add_zero] at hrest
        have htext : s ++ List.replicate e '\n' ++ '\n' :: (l ++ following r)
            = s ++ List.replicate (e + 1) '\n' ++ l ++ following r := by
          rw [List.replicate_succ']
          simp
        -- the run in front of `l` starts where `s` ends
        have hstart : s.length + e + 1 - (e + 1) = s.length := by omega
        rw [if_neg hl, runsFrom_line _ _ h.1 hl, if_neg (by omega), List.singleton_append,
          ← List.singleton_append, squeezes_append, squeezes_singleton, htext, hstart]
        -- both sides have the three families behind `l`, in different order
        refine ((hrest.append_left _).append_left _).trans ?_
        simp only [List.append_assoc, Nat.add_zero]
        exact (List.perm_append_comm_assoc _ _ _).trans
          ((List.perm_append_comm_assoc _ _ _).append_left _)

/-- A line keeps its start in front of its trimmed end. -/
theorem mem_trailingEdit {off : Nat} {l : Text} {d : Edit} (h : d ∈ trailingEdit off l) :
    (off : Int) ≤ d.start ∧ d.start < (off + l.length : Nat) ∧ d.stop = (off + l.length : Nat) := by
  have hle := length_trimEnd_le isBlank l
  unfold trailingEdit at h
  dsimp only at h
  split at h
  · cases h
  · rw [List.mem_singleton.mp h]
    dsimp only
    omega

theorem mem_squeezeAt {pre n : Nat} {d : Edit} (h : d ∈ squeezeAt pre n) :
    3 ≤ n ∧ d = ⟨pre, (pre + n : Nat), ['\n', '\n'], 1⟩ := by
  unfold squeezeAt at h
  split at h
  · next hn => exact ⟨hn, List.mem_singleton.mp h⟩
  · cases h

theorem within_ordered (pre e : Nat) (ls : List Text) :
    ∀ d ∈ ordered pre e ls, Within pre (pre + e + (following ls).length : Nat) d := by
  induction ls generalizing pre e with
  | nil =>
      intro d hd
      rw [ordered] at hd
      split at hd
      · rw [List.mem_singleton.mp hd]
        exact ⟨le_rfl, le_rfl, by dsimp only; omega⟩
      · rcases List.mem_append.mp hd with hd | hd
        · split at hd
          · rw [List.mem_singleton.mp hd]
            exact ⟨le_rfl, by dsimp only; omega, by dsimp only; omega⟩
          · cases hd
        · obtain ⟨-, rfl⟩ := mem_squeezeAt hd
          exact ⟨le_rfl, by dsimp only; omega, by dsimp only; omega⟩
  | cons l r ih =>
      intro d hd
      rw [following_cons, List.length_cons, List.length_append]
      rw [ordered] at hd
      split at hd
      · next hl =>
          subst hl
          exact (ih pre (e + 1) d hd).mono le_rfl (by simp only [List.length_nil]; omega)
      · rcases List.mem_append.mp hd with hd | hd
        · obtain ⟨-, rfl⟩ := mem_squeezeAt hd
          exact ⟨le_rfl, by dsimp only; omega, by dsimp only; omega⟩
        · rcases List.mem_append.mp hd with hd | hd
          · have := mem_trailingEdit hd
            exact ⟨by omega, by omega, by omega⟩
          · exact (ih _ 0 d hd).mono (by omega) (by omega)

theorem length_trailingEdit_le (off : Nat) (l : Text) : (trailingEdit off l).length ≤ 1 := by
  unfold trailingEdit
  dsimp only
  split <;> simp

theorem length_squeezeAt_le (pre n : Nat) : (squeezeAt pre n).length ≤ 1 := by
  unfold squeezeAt
  split <;> simp

/-- The edits of a line and those behind it. -/
theorem pairwise_line (off : Nat) (l : Text) {es : List Edit} (hes : es.Pairwise Before)
    (h : ∀ d ∈ es, ((off + l.length : Nat) : Int) ≤ d.start) :
    (trailingEdit off l ++ es).Pairwise Before := by
  refine pairwise_append (length_trailingEdit_le off l) hes fun a ha b hb => ?_
  have h1 := mem_trailingEdit ha
  have h2 := h b hb
  exact before_of_start_lt (by omega)

theorem start_of_mem_line {off : Nat} {l : Text} {r : List Text} {d : Edit}
    (h : d ∈ trailingEdit off l ++ ordered (off + l.length) 0 r) : (off : Int) ≤ d.start := by
  rcases List.mem_append.mp h with h | h
  · exact (mem_trailingEdit h).1
  · have := (within_ordered _ 0 r d h).1
    omega

theorem pairwise_ordered (pre e : Nat) (ls : List Text) :
    (ordered pre e ls).Pairwise Before := by
  induction ls generalizing pre e with
  | nil =>
      rw [ordered]
      split
      · exact List.pairwise_singleton _ _
      · refine pairwise_append (by split <;> simp) ?_ fun a ha b hb => ?_
        · simpa using pairwise_append (length_squeezeAt_le pre e) List.Pairwise.nil (by simp)
        · obtain ⟨-, rfl⟩ := mem_squeezeAt hb
          split at ha
          · rw [List.mem_singleton.mp ha, Before, le_iff, le_iff]
            dsimp only
            omega
          · cases ha
  | cons l r ih =>
      rw [ordered]
      split
      · exact ih pre (e + 1)
      · have hline := pairwise_line (pre + e + 1) l (ih _ 0)
          fun d hd => (within_ordered _ 0 r d hd).1
        refine pairwise_append (length_squeezeAt_le pre (e + 1)) hline fun a ha b hb => ?_
        obtain ⟨-, rfl⟩ := mem_squeezeAt ha
        have := start_of_mem_line hb
        exact before_of_start_lt (by dsimp only; omega)

/-! ## Carrying them out -/

section

variable {m : Margins} {n : Nat} {admits : Edit → Bool}

/-- Over a run of line feeds. -/
theorem carry_squeezeAt (hadm : Respects admits m n) {pre e : Nat} {t : Text} {es : List Edit}
    (hpre : 0 < pre) (hn : n = pre + (e + 1) + t.length)
    (h : ∀ d ∈ es, Within (pre + (e + 1) : Nat) n d) :
    carry pre (List.replicate (e + 1) '\n' ++ t)
        (separate pre ((squeezeAt pre (e + 1)).filter admits ++ es))
      = List.replicate (kept m pre e t.length + 1) '\n'
          ++ carry (pre + (e + 1)) t (separate (pre + (e + 1) : Nat) es) := by
  have hrun : (List.replicate (e + 1) '\n').length = e + 1 := List.length_replicate
  rw [← hrun] at h
  rw [kept, if_neg (Nat.ne_of_gt hpre)]
  by_cases h3 : 3 ≤ e + 1
  · have hsuf : n - (pre + (e + 1)) = t.length := by omega
    have hstep := carry_step pre (n := n) (t := t) (x := ['\n', '\n']) (q := 1) es
      (m.Admit pre t.length) h
    rw [hrun] at hstep
    rw [squeezeAt, if_pos h3, filter_singleton hadm (by omega), hsuf, hstep,
      Nat.min_eq_right (show 1 ≤ e by omega)]
    congr 1
    split <;> rfl
  · -- a run of one or two line feeds stays, and so does its empty line
    rw [squeezeAt, if_neg h3, List.filter_nil, List.nil_append, carry_piece h, hrun,
      Nat.min_eq_left (show e ≤ 1 by omega), ite_self]

/-- Over a line. -/
theorem carry_trailingEdit (hadm : Respects admits m n) {off : Nat} {l t : Text} {es : List Edit}
    (hn : n = off + l.length + t.length) (h : ∀ d ∈ es, Within (off + l.length : Nat) n d) :
    carry off (l ++ t) (separate off ((trailingEdit off l).filter admits ++ es))
      = trimLine m off t.length l
          ++ carry (off + l.length) t (separate (off + l.length : Nat) es) := by
  obtain ⟨v, hv⟩ := prefix_trimEnd isBlank l
  have hlen : (trimEnd isBlank l).length + v.length = l.length := by
    rw [← List.length_append, hv]
  have hsuf : n - (off + l.length) = t.length := by omega
  have htrail : trailingEdit off l
      = if (trimEnd isBlank l).length = l.length then []
        else [⟨(off + (trimEnd isBlank l).length : Nat), (off + l.length : Nat), [], 0⟩] := rfl
  rw [htrail]
  by_cases hfull : (trimEnd isBlank l).length = l.length
  · -- nothing to trim
    rw [if_pos hfull, List.filter_nil, List.nil_append, carry_piece h, trimLine,
      trimEnd_eq_self_of_length hfull, ite_self]
  · have hstop : off + l.length = off + (trimEnd isBlank l).length + v.length := by omega
    have htext : l ++ t = trimEnd isBlank l ++ (v ++ t) := by rw [← List.append_assoc, hv]
    rw [if_neg hfull, filter_singleton hadm (by omega), hsuf, htext]
    rw [hstop] at h ⊢
    rw [carry_piece (n := n), carry_step (n := n) _ _ _ h, trimLine, ← List.append_assoc]
    · congr 1
      by_cases hm : m.Admit (off + (trimEnd isBlank l).length) t.length
      · rw [if_pos hm, if_pos hm, List.append_nil]
      · rw [if_neg hm, if_neg hm, hv]
    · intro d hd
      rcases List.mem_append.mp hd with hd | hd
      · split at hd
        · rw [List.mem_singleton.mp hd]
          exact ⟨le_rfl, by dsimp only; omega, by dsimp only; omega⟩
        · cases hd
      · exact (h d hd).mono (by omega) le_rfl

theorem filter_squeezeAt (hadm : Respects admits m n) {pre e suf : Nat} (hn : n = pre + e + suf) :
    (squeezeAt pre e).filter admits = if m.Admit pre suf then squeezeAt pre e else [] := by
  have hsuf : n - (pre + e) = suf := by omega
  unfold squeezeAt
  split
  · rw [filter_singleton hadm (by omega), hsuf]
  · rw [List.filter_nil, ite_self]

/-- **Of a run that an edit replaces as a whole nothing is squeezed**: the squeezing edit starts
inside the other one, or both lie outside the margins. -/
theorem separate_run (hadm : Respects admits m n) {pre e suf : Nat} (hn : n = pre + e + suf)
    (x : Text) (es : List Edit) :
    separate pre ([⟨pre, (pre + e : Nat), x, 0⟩].filter admits
        ++ ((squeezeAt pre e).filter admits ++ es))
      = separate pre ((if m.Admit pre suf then [⟨pre, (pre + e : Nat), x, 0⟩] else []) ++ es) := by
  have hsuf : n - (pre + e) = suf := by omega
  rw [filter_singleton hadm (by omega), filter_squeezeAt hadm hn, hsuf]
  by_cases hm : m.Admit pre suf
  · have hdrop :
        separate (pre + e : Nat) (squeezeAt pre e ++ es) = separate (pre + e : Nat) es := by
      unfold squeezeAt
      split
      · rw [List.singleton_append, separate, if_pos (by dsimp only; omega)]
      · rfl
    rw [if_pos hm, if_pos hm, List.singleton_append, List.singleton_append, separate,
      if_neg (by dsimp only; omega), hdrop, separate, if_neg (by dsimp only; omega)]
  · rw [if_neg hm, if_neg hm]
    rfl

/-- Over the run at the end of the text. -/
theorem carry_end (hadm : Respects admits m n) {pre e : Nat} (hn : n = pre + e) :
    carry pre (List.replicate e '\n') (separate pre ((ordered pre e []).filter admits))
      = following (if m.Admit pre 0 then [[]] else List.replicate e []) := by
  have hrun : (List.replicate e '\n').length = e := List.length_replicate
  have hstep : carry pre (List.replicate e '\n')
      (separate pre (if m.Admit pre 0 then [⟨pre, (pre + e : Nat), ['\n'], 0⟩] else []))
        = if m.Admit pre 0 then ['\n'] else List.replicate e '\n' := by
    have h := carry_step pre (n := n) (v := List.replicate e '\n') (t := []) (x := ['\n']) (q := 0)
      [] (m.Admit pre 0) (by simp)
    simpa only [List.append_nil, hrun, separate, carry] using h
  have hend : following (if m.Admit pre 0 then [[]] else List.replicate e [])
      = if m.Admit pre 0 then ['\n'] else List.replicate e '\n' := by
    split
    · rfl
    · exact following_replicate_nil e
  rw [hend, ← hstep, ordered]
  by_cases h0 : e = 0
  · subst h0
    rw [if_pos rfl, filter_singleton hadm (by omega), hn]
    simp
  · rw [if_neg h0, List.filter_append]
    by_cases h2 : 2 ≤ e
    · have hend := separate_run hadm (show n = pre + e + 0 by omega) ['\n'] []
      rw [List.append_nil, List.append_nil] at hend
      rw [if_pos h2, hend]
    · -- one line feed at the end stays
      have h1 : e = 1 := by omega
      subst h1
      rw [hstep, if_neg h2, squeezeAt, if_neg (by omega)]
      split <;> rfl

/-- **Along the text behind a line**: the edits that are carried out leave the lines of the
walk. -/
theorem carry_ordered (hadm : Respects admits m n) (pre e : Nat) (ls : List Text)
    (hpre : 0 < pre) (hn : n = pre + e + (following ls).length) :
    carry pre (List.replicate e '\n' ++ following ls)
        (separate pre ((ordered pre e ls).filter admits))
      = following (sweep m pre e ls) := by
  induction ls generalizing pre e with
  | nil =>
      rw [following_nil, List.append_nil, sweep]
      exact carry_end hadm hn
  | cons l r ih =>
      rw [following_cons, List.length_cons, List.length_append] at hn
      rw [ordered, sweep, following_cons]
      by_cases hl : l = []
      · subst hl
        rw [if_pos rfl, if_pos rfl, ← ih _ _ hpre (by rw [hn, List.length_nil]; omega),
          List.replicate_succ']
        simp
      · have hrest : ∀ d ∈ (ordered (pre + e + 1 + l.length) 0 r).filter admits,
            Within (pre + e + 1 + l.length : Nat) n d := by
          intro d hd
          exact (within_ordered _ 0 r d (List.mem_filter.mp hd).1).mono le_rfl (by omega)
        have hline : ∀ d ∈ (trailingEdit (pre + e + 1) l).filter admits
              ++ (ordered (pre + e + 1 + l.length) 0 r).filter admits,
            Within (pre + (e + 1) : Nat) n d := by
          intro d hd
          rcases List.mem_append.mp hd with hd | hd
          · have := mem_trailingEdit (List.mem_filter.mp hd).1
            exact ⟨by omega, by omega, by omega⟩
          · exact (hrest d hd).mono (by omega) le_rfl
        have htext : List.replicate e '\n' ++ '\n' :: (l ++ following r)
            = List.replicate (e + 1) '\n' ++ (l ++ following r) := by
          rw [List.replicate_succ']
          simp
        have hnext := ih (pre + e + 1 + l.length) 0 (by omega) (by omega)
        rw [List.replicate_zero, List.nil_append] at hnext
        have hfeeds : pre + feeds pre e = pre + e + 1 := by
          rw [feeds, if_neg (Nat.ne_of_gt hpre)]
          omega
        rw [if_neg hl, if_neg hl, List.filter_append, List.filter_append, htext,
          carry_squeezeAt hadm hpre (by rw [List.length_append]; omega) hline, ← Nat.add_assoc pre,
          carry_trailingEdit hadm (by omega) hrest, hnext]
        dsimp only
        rw [hfeeds, List.length_append, following_append, following_replicate_nil, following_cons,
          List.replicate_succ']
        simp

/-! ## The start of the text -/

/-- The edit that removes `k` line feeds at the start of the text. -/
def leadAt (k : Nat) : List Edit := if k = 0 then [] else [⟨(0 : Nat), k, [], 0⟩]

theorem mem_leadAt {k : Nat} {d : Edit} (h : d ∈ leadAt k) :
    0 < k ∧ d = ⟨(0 : Nat), k, [], 0⟩ := by
  unfold leadAt at h
  split at h
  · cases h
  · next hk => exact ⟨Nat.pos_of_ne_zero hk, List.mem_singleton.mp h⟩

/-- Over the run at the start of the text. -/
theorem carry_leadAt (hadm : Respects admits m n) {k : Nat} {t : Text} {es : List Edit}
    (hn : n = k + t.length) (h : ∀ d ∈ es, Within (k : Nat) n d) :
    carry 0 (List.replicate k '\n' ++ t)
        (separate (0 : Nat) ((leadAt k).filter admits ++ ((squeezeAt 0 k).filter admits ++ es)))
      = List.replicate (kept m 0 k t.length) '\n' ++ carry k t (separate k es) := by
  have hrun : 0 + (List.replicate k '\n').length = k := by
    rw [Nat.zero_add, List.length_replicate]
  have hstep := carry_step 0 (n := n) (v := List.replicate k '\n') (t := t) (x := []) (q := 0) es
    (m.Admit 0 t.length) (by rw [hrun]; exact h)
  rw [hrun] at hstep
  have hkept : List.replicate (kept m 0 k t.length) '\n'
      = if m.Admit 0 t.length then [] else List.replicate k '\n' := by
    rw [kept, if_pos rfl]
    split <;> rfl
  rw [hkept, ← hstep, leadAt]
  by_cases hk : k = 0
  · subst hk
    rw [if_pos rfl, squeezeAt, if_neg (by omega)]
    exact (carry_piece (k := []) h).trans (by rw [hstep]; split <;> rfl)
  · have hlead := separate_run hadm (show n = 0 + k + t.length by omega) [] es
    rw [Nat.zero_add] at hlead
    rw [if_neg hk, hlead]

/-- All edits of the rule in order, for a text that starts with `k` line feeds and the line
`l`. -/
def fromStart (k : Nat) (l : Text) (r : List Text) : List Edit :=
  leadAt k ++ (squeezeAt 0 k ++ (trailingEdit k l ++ ordered (k + l.length) 0 r))

theorem trailingEdits_replicate_nil (start k : Nat) (ls : List Text) :
    trailingEdits start (List.replicate k [] ++ ls) = trailingEdits (start + k) ls := by
  induction k generalizing start with
  | zero => rfl
  | succ k ih =>
      rw [List.replicate_succ, List.cons_append, trailingEdits, trailingEdit_nil, List.nil_append,
        ih, List.length_nil]
      congr 1
      omega

theorem leadingEdits_replicate (k : Nat) {t : Text} (h : t.head? ≠ some '\n') :
    leadingEdits (List.replicate k '\n' ++ t) = leadAt k := by
  have hrun : ((List.replicate k '\n' ++ t).takeWhile (· == '\n')).length = k := by
    rw [List.takeWhile_append_of_pos (by simp), List.length_append, List.length_replicate]
    cases t with
    | nil => rfl
    | cons c t =>
        have hc : c ≠ '\n' := fun hc => h (by rw [hc]; rfl)
        rw [List.takeWhile_cons_of_neg (by simpa using hc)]
        rfl
  rw [leadingEdits, hrun]
  rfl

theorem fromStart_perm {k : Nat} {l : Text} {r : List Text} (hl : '\n' ∉ l) (hne : l ≠ [])
    (hr : AreLines r) :
    (fromStart k l r).Perm (edits (unlines (List.replicate k [] ++ l :: r))) := by
  have hlines : (unlines (List.replicate k [] ++ l :: r)).lines
      = List.replicate k [] ++ l :: r :=
    lines_unlines (by simp)
      (areLines_append.mpr ⟨areLines_replicate_nil k, areLines_cons.mpr ⟨hl, hr⟩⟩)
  have htext : unlines (List.replicate k [] ++ l :: r)
      = List.replicate k '\n' ++ (l ++ following r) := by
    rw [unlines_replicate_nil_append k (by simp), unlines_cons]
  have hhead : (l ++ following r).head? ≠ some '\n' := by
    cases l with
    | nil => exact absurd rfl hne
    | cons c l => exact fun hc => hl (by rw [Option.some.inj hc]; simp)
  have hruns : squeezeEdits (List.replicate k '\n' ++ (l ++ following r))
      = squeezeAt 0 k ++ squeezes (runsFrom (k + l.length) 0 (following r)) := by
    change squeezes (runsFrom 0 0 _) = _
    rw [runsFrom_replicate, runsFrom_line _ _ hl hne, squeezes_append, Nat.zero_add]
    by_cases hk : k = 0
    · simp [hk, squeezes, squeezeAt]
    · rw [if_neg hk, squeezes_singleton, Nat.sub_self]
  have hlast : (List.replicate k '\n' ++ l).getLast? ≠ some '\n' := by
    rw [List.getLast?_append_of_ne_nil _ hne]
    exact fun hc => hl (List.mem_of_getLast? hc)
  have hrest := ordered_perm hr 0 (s := List.replicate k '\n' ++ l) (by simp [hne]) hlast
  simp only [List.length_append, List.length_replicate, Nat.add_zero, List.append_assoc,
    List.replicate_zero, List.nil_append] at hrest
  -- the edits of the rule come family by family, those of the walk line by line
  rw [edits, hlines, htext, trailingEdits_replicate_nil, trailingEdits,
    leadingEdits_replicate k hhead, hruns, fromStart, Nat.zero_add]
  refine (((hrest.append_left _).append_left _).append_left _).trans ?_
  simpa only [List.append_assoc] using
    List.perm_append_comm_assoc (leadAt k ++ squeezeAt 0 k)
      (trailingEdit k l ++ trailingEdits (k + l.length + 1) r)
      (squeezes (runsFrom (k + l.length) 0 (following r))
        ++ finalEdits (List.replicate k '\n' ++ (l ++ following r)))

theorem within_fromStart (k : Nat) (l : Text) (r : List Text) :
    ∀ d ∈ fromStart k l r, Within 0 (k + l.length + (following r).length : Nat) d
      ∧ (l ≠ [] → 0 < d.stop) := by
  intro d hd
  rcases List.mem_append.mp hd with hd | hd
  · obtain ⟨hk, rfl⟩ := mem_leadAt hd
    exact ⟨⟨le_rfl, by dsimp only; omega, by dsimp only; omega⟩, fun _ => by dsimp only; omega⟩
  · rcases List.mem_append.mp hd with hd | hd
    · obtain ⟨hk, rfl⟩ := mem_squeezeAt hd
      exact ⟨⟨le_rfl, by dsimp only; omega, by dsimp only; omega⟩, fun _ => by dsimp only; omega⟩
    · rcases List.mem_append.mp hd with hd | hd
      · have := mem_trailingEdit hd
        exact ⟨⟨by omega, by omega, by omega⟩, fun _ => by omega⟩
      · have hin := within_ordered _ 0 r d hd
        refine ⟨hin.mono (by omega) (by omega), fun hl => ?_⟩
        have := List.length_pos_iff.mpr hl
        have := hin.1
        have := hin.2.1
        omega

theorem pairwise_fromStart (k : Nat) (l : Text) (r : List Text) :
    (fromStart k l r).Pairwise Before := by
  have hline := pairwise_line k l (pairwise_ordered (k + l.length) 0 r)
    fun d hd => (within_ordered _ 0 r d hd).1
  have hsqueeze : (squeezeAt 0 k ++ (trailingEdit k l ++ ordered (k + l.length) 0 r)).Pairwise
      Before := by
    refine pairwise_append (length_squeezeAt_le 0 k) hline fun a ha b hb => ?_
    obtain ⟨h3, rfl⟩ := mem_squeezeAt ha
    have := start_of_mem_line hb
    exact before_of_start_lt (by dsimp only; omega)
  refine pairwise_append (by rw [leadAt]; split <;> simp) hsqueeze fun a ha b hb => ?_
  obtain ⟨hk, rfl⟩ := mem_leadAt ha
  rcases List.mem_append.mp hb with hb | hb
  · obtain ⟨-, rfl⟩ := mem_squeezeAt hb
    rw [Before, le_iff, le_iff]
    dsimp only
    omega
  · have := start_of_mem_line hb
    exact before_of_start_lt (by dsimp only; omega)

/-! ## Texts of line feeds only -/

/-- The edit that leaves one of `k` line feeds, the whole text. -/
def onlyAt (k : Nat) : List Edit := if 2 ≤ k then [⟨(0 : Nat), k, ['\n'], 0⟩] else []

theorem edits_replicate (k : Nat) :
    edits (List.replicate k '\n') = leadAt k ++ (squeezeAt 0 k ++ onlyAt k) := by
  have hlines : Text.lines (List.replicate k '\n') = List.replicate (k + 1) [] := by
    have h := lines_unlines (show List.replicate k [] ++ [[]] ≠ [] by simp)
      (areLines_append.mpr ⟨areLines_replicate_nil k, areLines_replicate_nil 1⟩)
    rw [unlines_replicate_nil_append k (by simp)] at h
    simpa [unlines, List.replicate_succ'] using h
  have htrail := trailingEdits_replicate_nil 0 (k + 1) []
  have hlead := leadingEdits_replicate k (t := []) (by simp)
  have hruns : squeezeEdits (List.replicate k '\n') = squeezeAt 0 k := by
    have h := runsFrom_replicate 0 0 k []
    rw [List.append_nil, Nat.zero_add] at h
    change squeezes (runsFrom 0 0 _) = _
    rw [h, runsFrom, Nat.sub_self]
    by_cases hk : k = 0
    · simp [hk, squeezes, squeezeAt]
    · rw [if_neg hk, squeezes_singleton]
  have hfinal : finalEdits (List.replicate k '\n') = onlyAt k := by
    have hrun : ((List.replicate k '\n').reverse.takeWhile (· == '\n')).length = k := by
      rw [List.reverse_replicate, List.takeWhile_eq_self_iff.mpr (by simp), List.length_replicate]
    rw [finalEdits, hrun, onlyAt]
    by_cases h2 : 2 ≤ k
    · simp [h2]
    · simp [h2]
  rw [List.append_nil] at htrail hlead
  rw [edits, hlines, htrail, hlead, hruns, hfinal, trailingEdits, List.nil_append,
    List.append_assoc]

/-- All edits concern the whole text. -/
theorem mem_edits_replicate {k : Nat} {d : Edit} (h : d ∈ edits (List.replicate k '\n')) :
    0 < k ∧ ∃ x q, 0 ≤ q ∧ d = ⟨(0 : Nat), k, x, q⟩ := by
  rw [edits_replicate] at h
  rcases List.mem_append.mp h with h | h
  · obtain ⟨hk, rfl⟩ := mem_leadAt h
    exact ⟨hk, [], 0, le_rfl, rfl⟩
  · rcases List.mem_append.mp h with h | h
    · obtain ⟨h3, rfl⟩ := mem_squeezeAt h
      exact ⟨by omega, ['\n', '\n'], 1, by omega, by rw [Nat.zero_add]⟩
    · unfold onlyAt at h
      split at h
      · exact ⟨by omega, ['\n'], 0, le_rfl, List.mem_singleton.mp h⟩
      · cases h

end

/-! ## The whole text -/

theorem sweep_replicate_nil (m : Margins) (pre e k : Nat) (ls : List Text) :
    sweep m pre e (List.replicate k [] ++ ls) = sweep m pre (e + k) ls := by
  induction k generalizing e with
  | zero => rfl
  | succ k ih =>
      rw [List.replicate_succ, List.cons_append, sweep, if_pos rfl, ih]
      congr 1
      omega

theorem carry_of_replicate {m : Margins} {k : Nat} {admits : Edit → Bool}
    (hadm : Respects admits m k) :
    carry 0 (List.replicate k '\n') (arrange ((edits (List.replicate k '\n')).filter admits))
      = unlines (sweep m 0 0 (List.replicate (k + 1) [])) := by
  have hsweep : sweep m 0 0 (List.replicate (k + 1) [])
      = if m.Admit 0 0 then [[]] else List.replicate (k + 1) [] := by
    have h := sweep_replicate_nil m 0 0 (k + 1) []
    rwa [List.append_nil, Nat.zero_add, sweep] at h
  have hunlines : unlines (List.replicate (k + 1) []) = List.replicate k '\n' := by
    have h := unlines_replicate_nil_append k (List.cons_ne_nil [] [])
    rwa [← List.replicate_succ', unlines, List.append_nil] at h
  rw [hsweep]
  by_cases hm : m.Admit 0 0
  · have hall : (edits (List.replicate k '\n')).filter admits = edits (List.replicate k '\n') := by
      refine List.filter_eq_self.mpr fun d hd => ?_
      obtain ⟨-, x, q, -, rfl⟩ := mem_edits_replicate hd
      rw [hadm _ _ _ _ le_rfl, Nat.sub_self, decide_eq_true hm]
    rw [if_pos hm, hall]
    by_cases hk : k = 0
    · subst hk
      rw [edits_replicate]
      exact congrArg (carry 0 []) arrange_nil
    · have hrest : ∀ d ∈ squeezeAt 0 k ++ onlyAt k, ∃ x q, 0 ≤ q ∧ d = ⟨(0 : Nat), k, x, q⟩ := by
        intro d hd
        refine (mem_edits_replicate (k := k) ?_).2
        rw [edits_replicate]
        exact List.mem_append_right _ hd
      -- the sort is stable, so of the edits of the whole text the one found first is carried out
      rw [edits_replicate, leadAt, if_neg hk, List.singleton_append,
        arrange_cons_of_start_lt le_rfl]
      · simp [carry, unlines]
      · intro d hd
        obtain ⟨x, q, hq, rfl⟩ := hrest d hd
        rw [le_iff]
        dsimp only
        omega
      · intro d hd
        obtain ⟨x, q, -, rfl⟩ := hrest d hd
        dsimp only
        omega
  · have hnone : (edits (List.replicate k '\n')).filter admits = [] := by
      refine List.filter_eq_nil_iff.mpr fun d hd => ?_
      obtain ⟨-, x, q, -, rfl⟩ := mem_edits_replicate hd
      rw [hadm _ _ _ _ le_rfl, Nat.sub_self, decide_eq_true_eq]
      exact hm
    rw [if_neg hm, hnone, hunlines, arrange_nil]
    rfl

theorem carry_of_fromStart {m : Margins} {n : Nat} {admits : Edit → Bool}
    (hadm : Respects admits m n) {k : Nat} {l : Text} {r : List Text}
    (hn : n = k + l.length + (following r).length) (hne : l ≠ []) :
    carry 0 (List.replicate k '\n' ++ (l ++ following r))
        (separate (0 : Nat) ((fromStart k l r).filter admits))
      = unlines (sweep m 0 0 (List.replicate k [] ++ l :: r)) := by
  have hrest : ∀ d ∈ (ordered (k + l.length) 0 r).filter admits,
      Within (k + l.length : Nat) n d := by
    intro d hd
    exact (within_ordered _ 0 r d (List.mem_filter.mp hd).1).mono le_rfl (by omega)
  have hline : ∀ d ∈ (trailingEdit k l).filter admits
        ++ (ordered (k + l.length) 0 r).filter admits, Within (k : Nat) n d := by
    intro d hd
    rcases List.mem_append.mp hd with hd | hd
    · have := mem_trailingEdit (List.mem_filter.mp hd).1
      exact ⟨by omega, by omega, by omega⟩
    · exact (hrest d hd).mono (by omega) le_rfl
  have hpos := List.length_pos_iff.mpr hne
  have hnext := carry_ordered hadm (k + l.length) 0 r (by omega) (by omega)
  rw [List.replicate_zero, List.nil_append] at hnext
  rw [fromStart, List.filter_append, List.filter_append, List.filter_append,
    carry_leadAt hadm (by rw [List.length_append]; omega) hline,
    carry_trailingEdit hadm (by omega) hrest, hnext, sweep_replicate_nil, sweep, if_neg hne]
  dsimp only
  rw [unlines_replicate_nil_append _ (by simp), unlines_cons, feeds, if_pos rfl,
    List.length_append]
  simp only [Nat.zero_add]

/-- What the lines of a text are made of, from the first one that is not empty on. -/
theorem edits_cases (source : Text) :
    (∃ k, source = List.replicate k '\n' ∧ source.lines = List.replicate (k + 1) []) ∨
      ∃ k l r, l ≠ [] ∧ source.lines = List.replicate k [] ++ l :: r
        ∧ source = List.replicate k '\n' ++ (l ++ following r)
        ∧ (fromStart k l r).Perm (edits source) := by
  have hsource := unlines_lines source
  obtain ⟨n, h | ⟨l, r, h, hne⟩⟩ := exists_replicate_nil_append source.lines
  · cases n with
    | zero => exact absurd h (lines_ne_nil source)
    | succ k =>
        refine .inl ⟨k, ?_, h⟩
        rw [h, List.replicate_succ', unlines_replicate_nil_append k (by simp), unlines,
          List.append_nil] at hsource
        exact hsource.symm
  · have hare := areLines_lines source
    rw [h, areLines_append, areLines_cons] at hare
    have hperm := fromStart_perm (k := n) hare.2.1 hne hare.2.2
    rw [h] at hsource
    rw [hsource] at hperm
    rw [unlines_replicate_nil_append n (by simp), unlines_cons] at hsource
    exact .inr ⟨n, l, r, hne, h, hsource.symm, hperm⟩

/-- The edits lie in the text and none of them inserts something at its start. -/
theorem within_edits (source : Text) :
    ∀ d ∈ edits source, Within 0 source.length d ∧ 0 < d.stop := by
  rcases edits_cases source with ⟨k, rfl, -⟩ | ⟨k, l, r, hne, -, rfl, hperm⟩
  · intro d hd
    obtain ⟨hk, x, q, -, rfl⟩ := mem_edits_replicate hd
    rw [List.length_replicate]
    exact ⟨⟨le_rfl, by dsimp only; omega, le_rfl⟩, by dsimp only; omega⟩
  · intro d hd
    have hin := within_fromStart k l r d (hperm.mem_iff.mpr hd)
    refine ⟨?_, hin.2 hne⟩
    simpa only [List.length_append, List.length_replicate, Nat.add_assoc] using hin.1

/-- **The text after the cleanup.** -/
theorem text_advance_edits (p : Progress) :
    (p.advance (edits p.text)).text = unlines (sweep p.margins 0 0 p.text.lines) := by
  have hadm : Respects p.admits p.margins p.text.length := p.admits_eq
  have hin : ∀ d ∈ (edits p.text).filter p.admits, Within 0 p.text.length d :=
    fun d hd => (within_edits p.text d (List.mem_filter.mp hd).1).1
  rw [Progress.text_advance, apply_fst hin]
  rcases edits_cases p.text with ⟨k, htext, hlines⟩ | ⟨k, l, r, hne, hlines, htext, hperm⟩
  · rw [hlines]
    rw [htext, List.length_replicate] at hadm
    rw [htext]
    exact carry_of_replicate hadm
  · have hlen : p.text.length = k + l.length + (following r).length := by
      simp only [htext, List.length_append, List.length_replicate, Nat.add_assoc]
    have hsort := mergeSort_eq (hperm.filter p.admits) ((pairwise_fromStart k l r).filter _)
    rw [arrange, hsort, hlines]
    conv_lhs => rw [htext]
    exact carry_of_fromStart hadm hlen hne

theorem sweep_ne_nil (m : Margins) (pre e : Nat) {ls : List Text} (h : ls ≠ [] ∨ 0 < e) :
    sweep m pre e ls ≠ [] := by
  induction ls generalizing e with
  | nil =>
      have he : 0 < e := h.resolve_left (by simp)
      rw [sweep]
      split
      · simp
      · simpa using Nat.ne_of_gt he
  | cons l r ih =>
      rw [sweep]
      split
      · exact ih (e + 1) (.inr e.succ_pos)
      · simp

theorem areLines_sweep (m : Margins) (pre e : Nat) {ls : List Text} (h : AreLines ls) :
    AreLines (sweep m pre e ls) := by
  induction ls generalizing pre e with
  | nil =>
      rw [sweep]
      split
      · exact areLines_replicate_nil 1
      · exact areLines_replicate_nil e
  | cons l r ih =>
      rw [areLines_cons] at h
      rw [sweep]
      split
      · exact ih pre (e + 1) h.2
      · refine areLines_append.mpr ⟨areLines_replicate_nil _, areLines_cons.mpr ⟨?_, ih _ 0 h.2⟩⟩
        unfold trimLine
        split
        · exact fun hc => h.1 ((prefix_trimEnd isBlank l).subset hc)
        · exact h.1

/-- **The lines after the cleanup.** -/
theorem lines_advance_edits (p : Progress) :
    (p.advance (edits p.text)).text.lines = sweep p.margins 0 0 p.text.lines := by
  rw [text_advance_edits]
  exact lines_unlines (sweep_ne_nil _ 0 0 (.inl (lines_ne_nil p.text)))
    (areLines_sweep _ 0 0 (areLines_lines p.text))

end CaplLayout.Whitespace
