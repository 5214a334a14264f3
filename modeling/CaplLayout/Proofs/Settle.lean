import CaplLayout.Proofs.Cleanup
import CaplLayout.Proofs.Reindent

/-!
# What the rules leave behind

Three properties of the lines of a text say that a part of the two rules has nothing to do on
them: no line is trimmed (`Clean`), no empty lines are dropped or added (`Quiet`), no line is
indented (`Settled`).

Trimming makes lines clean, and from then on they stay so. The cleanup of clean lines makes
them quiet, indenting makes them settled, and the cleanup of clean and settled lines keeps
them settled. Each lemma speaks of the margins before and after the rule, because a range
moves with the text: a margin that has grown at the front lets through no more than before
(`Margins.Admit.of_moved`), and behind a line that ends in the margin at the end nothing
changes (`sweep_of_lt_back`, `reindent_of_lt_back`).
-/

set_option autoImplicit false

namespace CaplLayout

open Text

/-! ## Blanks -/

/-- The state behind a blank. -/
def Lex.behindBlank : Lex → Lex
  | .code | .slash => .code
  | .lineComment => .lineComment
  | .blockComment | .star => .blockComment
  | .string | .stringEscape => .string
  | .char | .charEscape => .char

theorem Lex.behindBlank_behindBlank (lex : Lex) :
    lex.behindBlank.behindBlank = lex.behindBlank := by
  cases lex <;> rfl

namespace Scan

theorem read_blank (directive : Bool) (s : Scan) {c : Char} (hc : isBlank c = true) :
    s.read directive c = ⟨s.lex.behindBlank, s.depth⟩ := by
  obtain ⟨lex, depth⟩ := s
  have hblank : c = ' ' ∨ c = '\t' := by simpa [isBlank] using hc
  rcases hblank with rfl | rfl <;> cases lex <;> cases directive <;> rfl

theorem foldl_read_blank (directive : Bool) (s : Scan) {t : Text} (hne : t ≠ [])
    (ht : ∀ c ∈ t, isBlank c = true) :
    t.foldl (read directive) s = ⟨s.lex.behindBlank, s.depth⟩ := by
  induction t generalizing s with
  | nil => exact absurd rfl hne
  | cons c t ih =>
      rw [List.forall_mem_cons] at ht
      rw [List.foldl_cons, read_blank directive s ht.1]
      by_cases htail : t = []
      · rw [htail]
        rfl
      · rw [ih _ htail ht.2]
        show Scan.mk s.lex.behindBlank.behindBlank s.depth = _
        rw [Lex.behindBlank_behindBlank]

end Scan

end CaplLayout

namespace CaplLayout.Layout

open Text Margins Whitespace Indentation

variable {settings : Settings} {m m' : Margins}

/-! ## The properties -/

/-- No line is trimmed, when the first one starts at `pre`. -/
def Clean (m : Margins) : (pre : Nat) → List Text → Prop
  | _, [] => True
  | pre, l :: r => trimLine m pre (following r).length l = l ∧ Clean m (pre + l.length + 1) r

/-- No empty line is dropped or added. As in the walk of the cleanup the lines before have
ended at `pre`, and `e` empty lines have been met since. -/
def Quiet (m : Margins) : (pre e : Nat) → List Text → Prop
  | pre, e, [] => m.Admit pre 0 → e = 1
  | pre, e, l :: r =>
    if l = [] then Quiet m pre (e + 1) r
    else
      kept m pre e (l.length + (following r).length) = e
        ∧ Quiet m (pre + feeds pre e + l.length) 0 r

/-- No line is indented, when the first one starts at `pre` in scanner state `s`. -/
def Settled (settings : Settings) (m : Margins) : (s : Scan) → (pre : Nat) → List Text → Prop
  | _, _, [] => True
  | s, pre, l :: r =>
    indentLine settings m s pre (following r).length l = l
      ∧ Settled settings m (s.readLine l) (pre + l.length + 1) r

theorem feeds_of_pos {pre : Nat} (h : 0 < pre) (e : Nat) : feeds pre e = e + 1 :=
  if_neg (Nat.ne_of_gt h)

theorem feeds_succ (pre e : Nat) : feeds pre (e + 1) = feeds pre e + 1 := by
  unfold feeds
  split <;> rfl

theorem feeds_zero_add (pre e : Nat) : feeds pre 0 + e = feeds pre e := by
  unfold feeds
  split <;> omega

/-! ## Lines that are left alone -/

theorem trimLine_nil (m : Margins) (pre suf : Nat) : trimLine m pre suf [] = [] := by
  rw [trimLine, trimEnd_nil, ite_self]

theorem trimEnd_trimLine (m : Margins) (pre suf : Nat) (l : Text) :
    trimEnd isBlank (trimLine m pre suf l) = trimEnd isBlank l := by
  unfold trimLine
  split
  · exact trimEnd_trimEnd isBlank l
  · rfl

theorem length_trimLine_le (m : Margins) (pre suf : Nat) (l : Text) :
    (trimLine m pre suf l).length ≤ l.length := by
  unfold trimLine
  split
  · exact length_trimEnd_le isBlank l
  · exact le_rfl

theorem trimLine_eq_self {pre suf : Nat} {l : Text} :
    trimLine m pre suf l = l ↔
      (m.Admit (pre + (trimEnd isBlank l).length) suf → trimEnd isBlank l = l) := by
  unfold trimLine
  split
  · next h => exact ⟨fun ht _ => ht, fun ht => ht h⟩
  · next h => exact ⟨fun _ ha => absurd ha h, fun _ => rfl⟩

theorem indentLine_eq_self {s : Scan} {pre suf : Nat} {l : Text} :
    indentLine settings m s pre suf l = l ↔
      ∀ n, s.level (body l) = some n → body l ≠ [] → m.Admit pre ((body l).length + suf) →
        margin l = settings.indentOf n := by
  have hsplit := margin_append_body l
  unfold indentLine
  cases s.level (body l) with
  | none => exact ⟨fun _ n hn => absurd hn (by simp), fun _ => rfl⟩
  | some k =>
      dsimp only
      split
      · next h =>
          constructor
          · intro heq n hn _ _
            cases hn
            exact List.append_cancel_right (hsplit.trans heq.symm)
          · intro hall
            rw [← hall k rfl h.1 h.2, hsplit]
      · next h => exact ⟨fun _ n _ hb ha => absurd ⟨hb, ha⟩ h, fun _ => rfl⟩

theorem indentLine_of_lt_front {s : Scan} {pre suf : Nat} (h : pre < m.front) (l : Text) :
    indentLine settings m s pre suf l = l :=
  indentLine_eq_self.mpr fun _ _ _ ha => absurd ha.1 (Nat.not_le_of_lt h)

theorem body_indentLine (s : Scan) (pre suf : Nat) (l : Text) :
    body (indentLine settings m s pre suf l) = body l := by
  unfold indentLine
  split
  · rfl
  · split
    · exact body_append (isBlank_indentOf settings _) l
    · rfl

/-- A trimmed line stays trimmed. -/
theorem trimEnd_indentLine (s : Scan) (pre suf : Nat) {l : Text}
    (h : trimEnd isBlank l = l) :
    trimEnd isBlank (indentLine settings m s pre suf l) = indentLine settings m s pre suf l := by
  unfold indentLine
  split
  · exact h
  · split
    · next hc =>
        have hne : trimEnd isBlank (body l) ≠ [] := fun hb => hc.1 (trimEnd_body_eq_nil.mp hb)
        have hbody : trimEnd isBlank (body l) = body l := by rw [← body_trimEnd, h]
        rw [trimEnd_append _ hne, hbody]
    · exact h

/-! ## The scanner -/

/-- Blanks of code change nothing. -/
theorem foldl_read_blanks (directive : Bool) (depth : Nat) {i : Text}
    (h : ∀ c ∈ i, isBlank c = true) :
    i.foldl (Scan.read directive) ⟨.code, depth⟩ = ⟨.code, depth⟩ := by
  by_cases hi : i = []
  · rw [hi]
    rfl
  · exact Scan.foldl_read_blank directive ⟨.code, depth⟩ hi h

/-- In code the indentation of a line does not matter to the scanner. -/
theorem readLine_append_body {s : Scan} (hs : s.lex = .code) {i l : Text}
    (hi : ∀ c ∈ i, isBlank c = true) (hl : body l ≠ []) :
    s.readLine (i ++ body l) = s.readLine l := by
  obtain ⟨lex, depth⟩ := s
  cases hs
  -- behind blanks of code the scanner stands where it has stood in front of them
  have hread : ∀ j : Text, (∀ c ∈ j, isBlank c = true) →
      Scan.readLine ⟨.code, depth⟩ (j ++ body l)
        = Scan.endLine (body l) ((body l).foldl
            (Scan.read (Scan.isDirective ⟨.code, depth⟩ (body l))) ⟨.code, depth⟩) := by
    intro j hj
    have hbody := body_append hj l
    unfold body at hbody
    rw [Scan.readLine, hbody, List.foldl_append, foldl_read_blanks _ _ hj]
    unfold Scan.endLine
    rw [List.getLast?_append_of_ne_nil _ hl]
  have hmargin : ∀ c ∈ margin l, isBlank c = true := fun c hc => List.mem_takeWhile_imp hc
  rw [hread i hi, ← hread (margin l) hmargin, margin_append_body]

theorem readLine_indentLine (s : Scan) (pre suf : Nat) (l : Text) :
    s.readLine (indentLine settings m s pre suf l) = s.readLine l := by
  unfold indentLine
  split
  · rfl
  · next n hlevel =>
      have hcode : s.lex = .code := by
        by_contra hlex
        rw [Scan.level, if_pos hlex] at hlevel
        cases hlevel
      split
      · next hc => exact readLine_append_body hcode (isBlank_indentOf settings n) hc.1
      · rfl

/-- A second empty line does not change the scanner's state. -/
theorem readLine_nil_nil (s : Scan) : (s.readLine []).readLine [] = s.readLine [] := by
  obtain ⟨lex, depth⟩ := s
  cases lex <;> rfl

/-- The scanner's state behind empty lines. -/
def behind (s : Scan) (e : Nat) : Scan := (Scan.readLine · [])^[e] s

theorem behind_succ (s : Scan) (e : Nat) : behind s (e + 1) = (behind s e).readLine [] :=
  Function.iterate_succ_apply' _ _ _

theorem behind_succ' (s : Scan) (e : Nat) : behind s (e + 1) = behind (s.readLine []) e := rfl

/-- Behind one empty line the state is the one behind all further ones. -/
theorem behind_eq_of_pos (s : Scan) {e : Nat} (h : 0 < e) : behind s e = s.readLine [] := by
  induction e with
  | zero => exact absurd h (Nat.lt_irrefl 0)
  | succ e ih =>
      -- the step from one line to two is the idempotence, the others are the same step again
      cases e with
      | zero => rfl
      | succ e => rw [behind_succ, ih e.succ_pos, readLine_nil_nil]

theorem kept_le (m : Margins) (pre e suf : Nat) : kept m pre e suf ≤ e := by
  unfold kept
  split
  · split <;> omega
  · exact le_rfl

/-- Where no line feed ends a line before, empty lines must not matter to the scanner; elsewhere
one of them is kept. -/
theorem behind_kept (m : Margins) {s : Scan} {pre : Nat} (h : pre = 0 → s.readLine [] = s)
    (e suf : Nat) : behind s (kept m pre e suf) = behind s e := by
  unfold kept
  split
  · cases e with
    | zero => split <;> rfl
    | succ e =>
        rw [behind_eq_of_pos s e.succ_pos]
        split
        · next h0 => exact (h h0).symm
        · exact behind_eq_of_pos s (by omega)
  · rfl

/-! ## Behind the margin at the end -/

theorem sweep_of_lt_back {pre e : Nat} {ls : List Text} (h : (following ls).length < m.back) :
    sweep m pre e ls = List.replicate e [] ++ ls := by
  induction ls generalizing pre e with
  | nil => rw [sweep, if_neg fun ha => absurd ha.2 (Nat.not_le_of_lt h), List.append_nil]
  | cons l r ih =>
      rw [following_cons, List.length_cons, List.length_append] at h
      rw [sweep]
      split
      · next hl =>
          rw [ih (by omega), hl, List.replicate_succ', List.append_assoc, List.singleton_append]
      · have hkept : kept m pre e (l.length + (following r).length) = e :=
          if_neg fun ha => by have := ha.2; omega
        have htrim : trimLine m (pre + feeds pre e) (following r).length l = l :=
          trimLine_eq_self.mpr fun ha => by have := ha.2; omega
        dsimp only
        rw [hkept, htrim, ih (by omega), List.replicate_zero, List.nil_append]

theorem reindent_of_lt_back {s : Scan} {pre : Nat} {ls : List Text}
    (h : (following ls).length < m.back) : reindent settings m s pre ls = ls := by
  induction ls generalizing s pre with
  | nil => rfl
  | cons l r ih =>
      rw [following_cons, List.length_cons, List.length_append] at h
      have hbody := length_margin_add_body l
      have hindent : indentLine settings m s pre (following r).length l = l :=
        indentLine_eq_self.mpr fun _ _ _ ha => by have := ha.2; omega
      rw [reindent, hindent, ih (by omega)]

theorem length_following_sweep (pre : Nat) (ls : List Text)
    (h : (following ls).length < m.back) :
    (following (sweep m pre 0 ls)).length ≤ (following ls).length := by
  rw [sweep_of_lt_back h]
  exact le_rfl

theorem length_following_reindent (settings : Settings) (s : Scan) (pre : Nat) (ls : List Text)
    (h : (following ls).length < m.back) :
    (following (reindent settings m s pre ls)).length ≤ (following ls).length := by
  rw [reindent_of_lt_back h]

/-! ## Empty lines in front -/

theorem clean_replicate_nil_append (m : Margins) (pre k : Nat) (ls : List Text) :
    Clean m pre (List.replicate k [] ++ ls) ↔ Clean m (pre + k) ls := by
  induction k generalizing pre with
  | zero => rfl
  | succ k ih =>
      rw [List.replicate_succ, List.cons_append, Clean, trimLine_nil, ih, List.length_nil,
        Nat.add_zero, Nat.add_right_comm, Nat.add_assoc]
      exact and_iff_right rfl

theorem quiet_replicate_nil_append (m : Margins) (pre e k : Nat) (ls : List Text) :
    Quiet m pre e (List.replicate k [] ++ ls) ↔ Quiet m pre (e + k) ls := by
  induction k generalizing e with
  | zero => rfl
  | succ k ih =>
      rw [List.replicate_succ, List.cons_append, Quiet, if_pos rfl, ih, Nat.add_right_comm,
        Nat.add_assoc]

theorem settled_replicate_nil_append (m : Margins) (s : Scan) (pre k : Nat) (ls : List Text) :
    Settled settings m s pre (List.replicate k [] ++ ls)
      ↔ Settled settings m (behind s k) (pre + k) ls := by
  induction k generalizing s pre with
  | zero => rfl
  | succ k ih =>
      have hnil : indentLine settings m s pre
          (following (List.replicate k [] ++ ls)).length [] = [] :=
        indentLine_eq_self.mpr fun _ _ hb => absurd rfl hb
      rw [List.replicate_succ, List.cons_append, Settled, ih, behind_succ', List.length_nil,
        Nat.add_zero, Nat.add_right_comm, Nat.add_assoc]
      exact and_iff_right hnil

/-! ## The cleanup -/

/-- **Trimming makes lines clean.** -/
theorem clean_sweep (h : m.Within m') {pre e pre' : Nat} {ls : List Text}
    (hpre : pre' ≤ pre + feeds pre 0) : Clean m' pre' (sweep m pre e ls) := by
  induction ls generalizing pre e pre' with
  | nil =>
      rw [sweep]
      split
      · exact ⟨trimLine_nil _ _ _, trivial⟩
      · rw [← List.append_nil (List.replicate e []), clean_replicate_nil_append]
        trivial
  | cons l r ih =>
      rw [sweep]
      split
      · exact ih hpre
      · next hl =>
          have hk := kept_le m pre e (l.length + (following r).length)
          have hfeeds := feeds_zero_add pre e
          have hpos := List.length_pos_iff.mpr hl
          have hnext := feeds_of_pos (show 0 < pre + feeds pre e + l.length by omega) 0
          have hlen := length_trimLine_le m (pre + feeds pre e) (following r).length l
          rw [clean_replicate_nil_append]
          refine ⟨?_, ih (by omega)⟩
          -- where the trimmed line could be trimmed, the line was trimmed already
          rw [trimLine_eq_self, trimEnd_trimLine]
          intro ha
          have hold : m.Admit (pre + feeds pre e + (trimEnd isBlank l).length)
              (following r).length :=
            ha.of_moved h (by omega) (length_following_sweep _ r)
          exact (if_pos hold).symm

theorem kept_kept (h : m.Within m') {pre pre' e suf suf' : Nat} (hpre : pre' ≤ pre)
    (hzero : pre' = 0 ↔ pre = 0) (hsuf : suf < m.back → suf' ≤ suf) :
    kept m' pre' (kept m pre e suf) suf' = kept m pre e suf := by
  by_cases ha : m'.Admit pre' suf'
  · -- the run was between the margins before, so that it has been shortened already
    have hold := ha.of_moved h (fun _ => hpre) hsuf
    rw [kept, if_pos ha, kept, if_pos hold]
    by_cases h0 : pre = 0
    · rw [if_pos h0, if_pos (hzero.mpr h0)]
    · rw [if_neg h0, if_neg fun hc => h0 (hzero.mp hc)]
      omega
  · rw [kept, if_neg ha]

/-- **The cleanup of clean lines makes them quiet.** -/
theorem quiet_sweep (h : m.Within m') {pre e pre' : Nat} {ls : List Text}
    (hclean : Clean m (pre + feeds pre e) ls) (hpre : pre' ≤ pre) (hzero : pre' = 0 ↔ pre = 0) :
    Quiet m' pre' 0 (sweep m pre e ls) := by
  induction ls generalizing pre e pre' with
  | nil =>
      rw [sweep]
      split
      · rw [Quiet, if_pos rfl]
        exact fun _ => rfl
      · next hm =>
          -- the end has been in the margin, and it still is
          rw [← List.append_nil (List.replicate e []), quiet_replicate_nil_append]
          exact fun ha => absurd (ha.of_moved h (fun _ => hpre) fun _ => le_rfl) hm
  | cons l r ih =>
      obtain ⟨htrim, hrest⟩ := hclean
      rw [sweep]
      split
      · next hl =>
          subst hl
          refine ih ?_ hpre hzero
          rwa [feeds_succ]
      · next hl =>
          have hpos := List.length_pos_iff.mpr hl
          have hk := kept_le m pre e (l.length + (following r).length)
          have hmono : feeds pre' (kept m pre e (l.length + (following r).length))
              ≤ feeds pre e := by
            unfold feeds
            simp only [hzero]
            split <;> omega
          have hnext := feeds_of_pos (show 0 < pre + feeds pre e + l.length by omega) 0
          dsimp only
          rw [quiet_replicate_nil_append, Nat.zero_add, htrim, Quiet, if_neg hl]
          refine ⟨kept_kept h hpre hzero fun hlt => ?_, ih (by rwa [hnext]) (by omega) (by omega)⟩
          have := length_following_sweep (m := m) (pre + feeds pre e + l.length) r (by omega)
          omega

/-- **The cleanup keeps clean lines settled.** -/
theorem settled_sweep (h : m.Within m') {s : Scan} {pre e pre' : Nat} {ls : List Text}
    (hclean : Clean m (pre + feeds pre e) ls)
    (hsettled : Settled settings m (behind s e) (pre + feeds pre e) ls)
    (hs : pre = 0 → s.readLine [] = s) (hpre : pre' ≤ pre + feeds pre 0) :
    Settled settings m' s pre' (sweep m pre e ls) := by
  induction ls generalizing s pre e pre' with
  | nil =>
      have hempty : ∀ k, Settled settings m' s pre' (List.replicate k []) := by
        intro k
        rw [← List.append_nil (List.replicate k []), settled_replicate_nil_append]
        trivial
      rw [sweep]
      split
      · exact hempty 1
      · exact hempty e
  | cons l r ih =>
      obtain ⟨htrim, hrest⟩ := hclean
      obtain ⟨hindent, hafter⟩ := hsettled
      rw [sweep]
      split
      · next hl =>
          subst hl
          refine ih ?_ ?_ hs hpre
          · rwa [feeds_succ]
          · rwa [feeds_succ, behind_succ]
      · next hl =>
          have hpos := List.length_pos_iff.mpr hl
          have hk := kept_le m pre e (l.length + (following r).length)
          have hfeeds := feeds_zero_add pre e
          have hnext := feeds_of_pos (show 0 < pre + feeds pre e + l.length by omega) 0
          dsimp only
          -- the scanner is in the same state in front of the line, however many are left
          rw [settled_replicate_nil_append, behind_kept m hs, htrim]
          refine ⟨?_, ih (by rwa [hnext]) (by rwa [hnext]) (by omega) (by omega)⟩
          rw [indentLine_eq_self] at hindent ⊢
          intro n hn hb ha
          refine hindent n hn hb (ha.of_moved h (by omega) fun hlt => ?_)
          have := length_following_sweep (m := m) (pre + feeds pre e + l.length) r (by omega)
          omega

/-- **The cleanup of clean and settled lines** leaves nothing to do for either rule. -/
theorem clean_quiet_settled_sweep (h : m.Within m') {ls : List Text} (hclean : Clean m 0 ls)
    (hsettled : Settled settings m .initial 0 ls) :
    Clean m' 0 (sweep m 0 0 ls) ∧ Quiet m' 0 0 (sweep m 0 0 ls)
      ∧ Settled settings m' .initial 0 (sweep m 0 0 ls) :=
  ⟨clean_sweep h (Nat.zero_le _), quiet_sweep h hclean le_rfl Iff.rfl,
    settled_sweep h hclean hsettled (fun _ => rfl) (Nat.zero_le _)⟩

/-- Clean and quiet lines are left as they are. -/
theorem sweep_eq_self {pre e : Nat} {ls : List Text} (hclean : Clean m (pre + feeds pre e) ls)
    (hquiet : Quiet m pre e ls) : sweep m pre e ls = List.replicate e [] ++ ls := by
  induction ls generalizing pre e with
  | nil =>
      rw [sweep, List.append_nil]
      split
      · next hm => rw [hquiet hm, List.replicate_one]
      · rfl
  | cons l r ih =>
      obtain ⟨htrim, hrest⟩ := hclean
      rw [Quiet] at hquiet
      -- both walks count the empty lines, so they are in step
      rw [sweep]
      split at hquiet
      · next hl =>
          subst hl
          rw [if_pos rfl, ih (by rwa [feeds_succ]) hquiet, List.replicate_succ', List.append_assoc,
            List.singleton_append]
      · next hl =>
          have hpos := List.length_pos_iff.mpr hl
          have hnext := feeds_of_pos (show 0 < pre + feeds pre e + l.length by omega) 0
          rw [if_neg hl]
          dsimp only
          rw [hquiet.1, htrim, ih (by rwa [hnext]) hquiet.2, List.replicate_zero, List.nil_append]

/-! ## Indenting -/

/-- **Indenting keeps lines clean.** -/
theorem clean_reindent (h : m.Within m') {s : Scan} {pre pre' : Nat} {ls : List Text}
    (hclean : Clean m pre ls) (hpre : pre < m.front → pre' ≤ pre) :
    Clean m' pre' (reindent settings m s pre ls) := by
  induction ls generalizing s pre pre' with
  | nil => trivial
  | cons l r ih =>
      obtain ⟨htrim, hrest⟩ := hclean
      have hfront : pre < m.front → indentLine settings m s pre (following r).length l = l :=
        fun hlt => indentLine_of_lt_front hlt l
      refine ⟨?_, ih hrest fun hlt => ?_⟩
      · rw [trimLine_eq_self] at htrim ⊢
        -- a line that starts in the margin at the front has not moved
        intro ha
        refine trimEnd_indentLine s pre _ (htrim (ha.of_moved h (fun hlt => ?_)
          (length_following_reindent _ _ _ r)))
        have hlt' : pre < m.front := by omega
        have := hpre hlt'
        rw [hfront hlt']
        omega
      · have hlt' : pre < m.front := by omega
        have := hpre hlt'
        rw [hfront hlt']
        omega

/-- **Indenting makes lines settled.** -/
theorem settled_reindent (h : m.Within m') {s : Scan} {pre pre' : Nat} {ls : List Text}
    (hpre : pre < m.front → pre' ≤ pre) :
    Settled settings m' s pre' (reindent settings m s pre ls) := by
  induction ls generalizing s pre pre' with
  | nil => trivial
  | cons l r ih =>
      refine ⟨?_, ?_⟩
      · rw [indentLine_eq_self, body_indentLine]
        intro n hn hb ha
        have hrest := length_following_reindent settings (m := m) (s.readLine l)
          (pre + l.length + 1) r
        have hold : m.Admit pre ((body l).length + (following r).length) := by
          refine ha.of_moved h hpre fun hlt => ?_
          have := hrest (by omega)
          omega
        unfold indentLine
        rw [hn]
        dsimp only
        rw [if_pos ⟨hb, hold⟩, margin_append (isBlank_indentOf settings n)]
      · rw [readLine_indentLine]
        refine ih fun hlt => ?_
        have hlt' : pre < m.front := by omega
        have := hpre hlt'
        rw [indentLine_of_lt_front hlt']
        omega

/-- Settled lines are left as they are. -/
theorem reindent_eq_self {s : Scan} {pre : Nat} {ls : List Text}
    (h : Settled settings m s pre ls) : reindent settings m s pre ls = ls := by
  induction ls generalizing s pre with
  | nil => rfl
  | cons l r ih => rw [reindent, h.1, ih h.2]

end CaplLayout.Layout
