import CaplLayout.Proofs.Settle

/-!
# Passes

A pass of the two built-in rules is the cleanup and then the indentation (`pass_builtin`). The
first pass leaves the lines clean and settled, the cleanup of the second one makes them quiet as
well, and then neither rule has anything to do (`rests_cleaned`). So a run stops at the
third pass at the latest, whatever its range, and the limit of passes is never reached
(`formatWith_stopsAt`).
-/

set_option autoImplicit false

namespace CaplLayout.Progress

open Text Layout

variable {settings : Settings} {rules : List Rule}

/-! ## Passes that change nothing -/

/-- The passes from `p` on stop behind number `k`, the first one that changes nothing, at `r`. -/
inductive StopsAt (settings : Settings) (rules : List Rule) : Nat → Progress → Progress → Prop
  | now {p r : Progress} : pass settings rules p = .ok (r, false) → StopsAt settings rules 1 p r
  | later {k : Nat} {p q r : Progress} : pass settings rules p = .ok (q, true) →
      StopsAt settings rules k q r → StopsAt settings rules (k + 1) p r

/-- What a pass has done when its first rule and the others have had an answer. -/
theorem pass_cons {rule : Rule} {p r : Progress} {b : Bool}
    (h : pass settings (rule :: rules) p = .ok (r, b)) :
    ∃ edits changed, pass settings rules (p.advance edits) = .ok (r, changed)
      ∧ b = (decide ((p.advance edits).text ≠ p.text) || changed) := by
  rw [pass] at h
  cases hedits : rule.analyze settings p.text with
  | error f =>
      rw [hedits] at h
      cases h
  | ok edits =>
      rw [hedits] at h
      cases hrest : pass settings rules (p.advance edits) with
      | error f =>
          change (pass settings rules (p.advance edits) >>= _) = _ at h
          rw [hrest] at h
          cases h
      | ok q =>
          change (pass settings rules (p.advance edits) >>= _) = _ at h
          rw [hrest] at h
          cases h
          exact ⟨edits, q.2, hrest, rfl⟩

/-- A pass that changes nothing ends where it has started. -/
theorem eq_of_pass {p r : Progress} (h : pass settings rules p = .ok (r, false)) : r = p := by
  induction rules generalizing p with
  | nil =>
      cases h
      rfl
  | cons rule rules ih =>
      obtain ⟨edits, changed, hrest, hflag⟩ := pass_cons h
      obtain ⟨htext, rfl⟩ := Bool.or_eq_false_iff.mp hflag.symm
      rw [decide_eq_false_iff_not, not_not] at htext
      rw [ih hrest, advance_of_text_eq htext]

/-- Where passes stop, a further one changes nothing either. -/
theorem StopsAt.pass_eq {k : Nat} {p r : Progress} (h : StopsAt settings rules k p r) :
    pass settings rules r = .ok (r, false) := by
  induction h with
  | now hpass =>
      have heq := eq_of_pass hpass
      rwa [← heq] at hpass
  | later _ _ ih => exact ih

/-- **A run whose limit is not less reaches the place where the passes stop.** -/
theorem StopsAt.run_eq {k limit : Nat} {p r : Progress} (h : StopsAt settings rules k p r)
    (hk : k ≤ limit) : run settings rules limit p = .ok r := by
  induction h generalizing limit with
  | now hpass =>
      obtain ⟨n, rfl⟩ : ∃ n, limit = n + 1 := ⟨limit - 1, by omega⟩
      rw [run, hpass]
      rfl
  | later hpass _ ih =>
      obtain ⟨n, rfl⟩ : ∃ n, limit = n + 1 := ⟨limit - 1, by omega⟩
      rw [run, hpass]
      exact ih (by omega)

/-! ## The built-in rules -/

/-- After the cleanup. -/
def cleaned (p : Progress) : Progress := p.advance (Whitespace.edits p.text)

/-- After a pass of the built-in rules. -/
def round (settings : Settings) (p : Progress) : Progress :=
  p.cleaned.advance (Indentation.edits settings p.cleaned.text)

/-- Neither rule changes anything. -/
def Rests (settings : Settings) (p : Progress) : Prop :=
  p.cleaned = p ∧ p.round settings = p

theorem pass_builtin (settings : Settings) (p : Progress) :
    ∃ b, pass settings Engine.builtinRules p = .ok (p.round settings, b)
      ∧ (Rests settings p → b = false) := by
  refine ⟨_, rfl, fun h => ?_⟩
  have hclean : p.cleaned.text = p.text := congrArg text h.1
  have hround : (p.round settings).text = p.cleaned.text := (congrArg text h.2).trans hclean.symm
  change (decide (p.cleaned.text ≠ p.text)
    || (decide ((p.round settings).text ≠ p.cleaned.text) || false)) = false
  simp [hclean, hround]

theorem lines_cleaned (p : Progress) :
    p.cleaned.text.lines = Whitespace.sweep p.margins 0 0 p.text.lines :=
  Whitespace.lines_advance_edits p

theorem lines_round (settings : Settings) (p : Progress) :
    (p.round settings).text.lines
      = Indentation.reindent settings p.cleaned.margins .initial 0 p.cleaned.text.lines :=
  Indentation.lines_advance_edits settings p.cleaned

theorem margins_cleaned (p : Progress) : p.margins.Within p.cleaned.margins :=
  margins_advance fun d hd => (Whitespace.within_edits p.text d hd).1

theorem margins_round (settings : Settings) (p : Progress) :
    p.cleaned.margins.Within (p.round settings).margins :=
  margins_advance fun d hd => (Indentation.within_edits p.cleaned.text d hd).1

theorem text_eq_of_lines_eq {s t : Text} (h : s.lines = t.lines) : s = t := by
  rw [← unlines_lines s, h, unlines_lines]

/-- **A pass leaves the lines clean and settled.** -/
theorem clean_settled_round (settings : Settings) (p : Progress) :
    Clean (p.round settings).margins 0 (p.round settings).text.lines
      ∧ Settled settings (p.round settings).margins .initial 0
          (p.round settings).text.lines := by
  have hclean : Clean p.cleaned.margins 0 p.cleaned.text.lines := by
    rw [lines_cleaned]
    exact clean_sweep (margins_cleaned p) (Nat.zero_le _)
  rw [lines_round]
  exact ⟨clean_reindent (margins_round settings p) hclean fun _ => le_rfl,
    settled_reindent (margins_round settings p) fun _ => le_rfl⟩

/-- On lines that are clean, quiet and settled neither rule has anything to do. -/
theorem rests_of_settled {p : Progress} (hclean : Clean p.margins 0 p.text.lines)
    (hquiet : Quiet p.margins 0 0 p.text.lines)
    (hsettled : Settled settings p.margins .initial 0 p.text.lines) : Rests settings p := by
  have hcleaned : p.cleaned = p :=
    advance_of_text_eq (text_eq_of_lines_eq ((lines_cleaned p).trans
      (sweep_eq_self hclean hquiet)))
  refine ⟨hcleaned, ?_⟩
  rw [round, hcleaned]
  refine advance_of_text_eq (text_eq_of_lines_eq ?_)
  rw [Indentation.lines_advance_edits, reindent_eq_self hsettled]

/-- **The cleanup of clean and settled lines is the last change.** -/
theorem rests_cleaned {p : Progress} (hclean : Clean p.margins 0 p.text.lines)
    (hsettled : Settled settings p.margins .initial 0 p.text.lines) :
    Rests settings p.cleaned ∧ p.round settings = p.cleaned := by
  have hswept := clean_quiet_settled_sweep (margins_cleaned p) hclean hsettled
  rw [← lines_cleaned] at hswept
  obtain ⟨hagain, hround⟩ := rests_of_settled hswept.1 hswept.2.1 hswept.2.2
  refine ⟨⟨hagain, hround⟩, ?_⟩
  -- indenting starts from the same place, cleaned up once or twice
  rw [round, hagain] at hround
  exact hround

/-- Where every run of the built-in rules from `p` ends. -/
def final (settings : Settings) (p : Progress) : Progress := (p.round settings).cleaned

theorem rests_final (settings : Settings) (p : Progress) :
    Rests settings (p.final settings)
      ∧ (p.round settings).round settings = p.final settings :=
  rests_cleaned (clean_settled_round settings p).1 (clean_settled_round settings p).2

theorem stopsAt_of_rests {p : Progress} (h : Rests settings p) :
    StopsAt settings Engine.builtinRules 1 p p := by
  obtain ⟨b, hpass, hb⟩ := pass_builtin settings p
  rw [h.2, hb h] at hpass
  exact .now hpass

/-- One pass further back. -/
theorem stopsAt_of_round {n : Nat} {p r : Progress}
    (h : ∃ k ≤ n, StopsAt settings Engine.builtinRules k (p.round settings) r) :
    ∃ k ≤ n + 1, StopsAt settings Engine.builtinRules k p r := by
  obtain ⟨k, hk, hstop⟩ := h
  obtain ⟨b, hpass, -⟩ := pass_builtin settings p
  cases b with
  | true => exact ⟨k + 1, by omega, .later hpass hstop⟩
  | false =>
      -- this pass has changed nothing, so the next one is the same pass
      rw [eq_of_pass hpass] at hstop
      exact ⟨k, by omega, hstop⟩

/-- **Passes of the built-in rules stop with the third one at the latest.** -/
theorem exists_stopsAt_final (settings : Settings) (p : Progress) :
    ∃ k ≤ 3, StopsAt settings Engine.builtinRules k p (p.final settings) := by
  obtain ⟨hrests, hround⟩ := rests_final settings p
  refine stopsAt_of_round (stopsAt_of_round ⟨1, le_rfl, ?_⟩)
  rw [hround]
  exact stopsAt_of_rests hrests

end CaplLayout.Progress

namespace CaplLayout.Engine

open Progress

variable {g : Grammar} {settings : Settings} {source : Text} {tree : Tree}

/-- The text and the cursor of a formatting call whose parse succeeds. -/
theorem formatWith_eq (hparse : (standard g).parse settings source = .ok tree) :
    (standard g).formatWith settings source
      = .ok ⟨((start settings source).final settings).text,
          ((start settings source).final settings).cursor⟩ := by
  obtain ⟨k, hk, hstop⟩ := exists_stopsAt_final settings (start settings source)
  have hrun : run settings (standard g).rules maxPasses (start settings source) = .ok _ :=
    hstop.run_eq (hk.trans (by decide))
  rw [formatWith, hparse, hrun]
  rfl

/-- **The limit of passes is never what ends a call.** Whatever the range, some pass within the
limit changes nothing; the call's result is the text it starts from, and the rules have
nothing left to do there, inside the range as it has moved. -/
theorem formatWith_stopsAt (hparse : (standard g).parse settings source = .ok tree) :
    ∃ k ≤ maxPasses, ∃ r, StopsAt settings (standard g).rules k (start settings source) r
      ∧ (standard g).formatWith settings source = .ok ⟨r.text, r.cursor⟩
      ∧ pass settings (standard g).rules r = .ok (r, false) := by
  obtain ⟨k, hk, hstop⟩ := exists_stopsAt_final settings (start settings source)
  exact ⟨k, hk.trans (by decide), _, hstop, formatWith_eq hparse, hstop.pass_eq⟩

/-- A parser that finds the same tree without an error in every source accepts every source. -/
theorem parse_default (settings : Settings) (source : Text) :
    (standard fun _ => default).parse settings source = .ok default := rfl

/-- A range in the middle of a text with three kinds of edits. -/
theorem formatWith_stopsAt_range :
    ∃ k ≤ maxPasses, ∃ r,
      StopsAt { rangeStart := 3, rangeEnd := some 9 } (standard fun _ => default).rules k
          (start { rangeStart := 3, rangeEnd := some 9 } "a \n  b\n\n\n c".toList) r
        ∧ (standard fun _ => default).formatWith { rangeStart := 3, rangeEnd := some 9 }
            "a \n  b\n\n\n c".toList = .ok ⟨r.text, r.cursor⟩
        ∧ pass { rangeStart := 3, rangeEnd := some 9 } (standard fun _ => default).rules r
            = .ok (r, false) :=
  formatWith_stopsAt (parse_default _ _)

end CaplLayout.Engine
