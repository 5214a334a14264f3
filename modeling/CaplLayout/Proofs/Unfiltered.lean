import CaplLayout.Proofs.Canonical
import CaplLayout.Proofs.Frame

/-!
# Calls without a range

A call without a range starts with the whole text as its range, and it should carry out every edit
that a rule proposes. Whether it does is decided at the start of the text (`formatWith_unfiltered`).
The end of the range is measured anew at every step, but its start moves like any other offset:
what a rule inserts at the start of the text ends up in front of the range. From then on the range
starts there or further back, and edits in front of it are dropped.

The built-in rules insert nothing there, so a call loses no edit as long as the further rules leave
the start of the text alone (`formatWith_of_keepsFront`).

`runBy` is the loop of a call with the treatment of a rule's edits as a parameter. A `Turn` is what
happens between two steps of a run: a rule meets a text and proposes edits.
-/

set_option autoImplicit false

namespace CaplLayout

/-- Under the settings the rule inserts nothing at the start of a text. -/
def Rule.KeepsFront (settings : Settings) (r : Rule) : Prop :=
  ∀ text edits, r.analyze settings text = .ok edits → ∀ d ∈ edits, d.stop = 0 → d.text = []

/-- The start of a text stays where it is exactly when nothing is inserted there. -/
theorem Edit.mapFrom_zero_eq_iff {shift hi : Int} {es : List Edit} (h : Apart 0 hi es) :
    mapFrom shift 0 es = shift ↔ ∀ e ∈ es, e.stop = 0 → e.text = [] := by
  induction es generalizing shift with
  | nil => simp [mapFrom]
  | cons e es ih =>
      obtain ⟨hlo, hord, hrest⟩ := h
      rw [mapFrom, List.forall_mem_cons]
      by_cases hstop : e.stop ≤ 0
      · have hzero : e.stop = 0 := by omega
        have hgain : e.gain = e.text.length := by rw [gain]; omega
        rw [hzero] at hrest
        rw [if_pos hstop, hgain]
        by_cases htext : e.text = []
        · -- an empty insertion moves nothing
          have hsame : shift + (e.text.length : Int) = shift := by simp [htext]
          rw [hsame, ih hrest]
          exact (and_iff_right fun _ => htext).symm
        · have hpos := List.length_pos_iff.mpr htext
          have hback := hrest.le_mapFrom le_rfl (shift + e.text.length)
          refine iff_of_false (by omega) ?_
          exact fun hall => htext (hall.1 hzero)
      · -- this edit and all behind it end behind the start
        have hbehind : ∀ d ∈ es, d.stop ≠ 0 := by
          intro d hd
          have hin := hrest.within d hd
          have := hin.1
          have := hin.2.1
          omega
        rw [if_neg hstop, if_neg (by omega)]
        refine iff_of_true (by omega) ⟨fun h0 => absurd h0 (by omega), ?_⟩
        exact fun d hd h0 => absurd h0 (hbehind d hd)

namespace Progress

variable {settings : Settings} {rules : List Rule}

/-! ## The loop without the filter -/

/-- Runs the rules of one pass in order, when `next` says where the edits of a rule lead. -/
def passBy (next : Progress → List Edit → Progress) (settings : Settings) :
    List Rule → Progress → Except Fault (Progress × Bool)
  | [], p => .ok (p, false)
  | r :: rs, p => do
    let edits ← r.analyze settings p.text
    let q := next p edits
    let (q', changed) ← passBy next settings rs q
    .ok (q', decide (q.text ≠ p.text) || changed)

/-- Runs up to `limit` passes, when `next` says where the edits of a rule lead. -/
def runBy (next : Progress → List Edit → Progress) (settings : Settings) (rules : List Rule) :
    (limit : Nat) → Progress → Except Fault Progress
  | 0, p => .ok p
  | n + 1, p => do
    let (q, changed) ← passBy next settings rules p
    if changed then runBy next settings rules n q else .ok q

/-- Carries out all edits of one rule, inside the range or not. -/
def advanceFreely (p : Progress) (edits : List Edit) : Progress :=
  let (text, applied) := Edit.apply p.text edits
  if text = p.text then p
  else
    { text := text
      cursor := p.cursor.map (Edit.mapOffset applied)
      rangeStart := Edit.mapOffset applied p.rangeStart
      rangeEnd := p.rangeEnd.map (Edit.mapOffset applied) }

theorem passBy_advance (settings : Settings) (rules : List Rule) (p : Progress) :
    passBy advance settings rules p = pass settings rules p := by
  induction rules generalizing p with
  | nil => rfl
  | cons r rs ih =>
      rw [passBy, pass]
      simp only [ih]

theorem runBy_advance (settings : Settings) (rules : List Rule) (limit : Nat) (p : Progress) :
    runBy advance settings rules limit p = run settings rules limit p := by
  induction limit generalizing p with
  | zero => rfl
  | succ n ih =>
      rw [runBy, run, passBy_advance]
      simp only [ih]

/-! ## Turns -/

/-- A rule has its turn. -/
structure Turn where
  /-- Where the call stands. -/
  before : Progress
  /-- What the rule proposes. -/
  edits : List Edit

namespace Turn

/-- Where the call stands behind the turn. -/
def after (t : Turn) : Progress := t.before.advance t.edits

/-- No edit is filtered out. -/
def Unfiltered (t : Turn) : Prop := ∀ d ∈ t.edits, t.before.admits d = true

/-- The text changes, and something is inserted at its start. -/
def InsertsInFront (t : Turn) : Prop :=
  t.after.text ≠ t.before.text
    ∧ ∃ d ∈ Edit.arrange (t.edits.filter t.before.admits), d.stop = 0 ∧ d.text ≠ []

/-- The call has no range but for its start, which may have moved, and the rule's edits lie in the
text. -/
structure Open (t : Turn) : Prop where
  rangeEnd : t.before.rangeEnd = none
  within : ∀ d ∈ t.edits, Edit.Within 0 t.before.text.length d

variable {t : Turn}

theorem advanceFreely_eq (h : t.Unfiltered) : t.before.advanceFreely t.edits = t.after := by
  have hall : t.edits.filter t.before.admits = t.edits := List.filter_eq_self.mpr h
  rw [after, advance, hall, advanceFreely]

/-- **An edit is dropped** when it starts in front of the range, and for no other reason. -/
theorem admits_eq_false_iff (h : t.Open) :
    ∀ d ∈ t.edits, t.before.admits d = false ↔ d.start < t.before.rangeStart := by
  intro d hd
  have hstop : t.before.stop = t.before.text.length := by rw [stop, h.rangeEnd]; rfl
  have hin := (h.within d hd).2.2
  rw [admits, hstop, Bool.and_eq_false_iff, decide_eq_false_iff_not, decide_eq_false_iff_not]
  omega

theorem unfiltered_of_rangeStart_eq_zero (h : t.Open) (hs : t.before.rangeStart = 0) :
    t.Unfiltered := by
  intro d hd
  by_contra hdrop
  rw [Bool.not_eq_true, admits_eq_false_iff h d hd, hs] at hdrop
  have := (h.within d hd).1
  omega

/-- **One turn**: the range goes on to start with the text unless something is inserted there. -/
theorem rangeStart_after_eq_zero_iff (h : t.Open) (hs : t.before.rangeStart = 0) :
    t.after.rangeStart = 0 ↔ ¬ t.InsertsInFront := by
  have hwithin : ∀ d ∈ t.edits.filter t.before.admits, Edit.Within 0 t.before.text.length d :=
    fun d hd => h.within d (List.mem_filter.mp hd).1
  by_cases hsame : t.after.text = t.before.text
  · have hstay : t.after = t.before := advance_of_text_eq hsame
    rw [hstay]
    exact iff_of_true hs fun hfront => hfront.1 hsame
  · have hmove : t.after.rangeStart
        = Edit.mapFrom 0 0 (Edit.arrange (t.edits.filter t.before.admits)) := by
      rw [after, advance_of_text_ne hsame, hs]
      rfl
    rw [hmove, Edit.mapFrom_zero_eq_iff (Edit.apart_arrange hwithin), InsertsInFront]
    push Not
    exact ⟨fun hall _ => hall, fun hall => hall hsame⟩

/-- The start of the range never moves back. -/
theorem rangeStart_le_after (h : t.Open) : t.before.rangeStart ≤ t.after.rangeStart := by
  by_cases hsame : t.after.text = t.before.text
  · have hstay : t.after = t.before := advance_of_text_eq hsame
    rw [hstay]
  · rw [after, advance_of_text_ne hsame]
    refine Edit.le_mapOffset fun d hd => ?_
    have hin := within_of_mem_arrange h.within d hd
    exact ⟨hin.1, hin.2.1⟩

/-- Edits of a rule that leaves the start of every text alone insert nothing there. -/
theorem not_insertsInFront (h : ∀ d ∈ t.edits, d.stop = 0 → d.text = []) :
    ¬ t.InsertsInFront := by
  rintro ⟨-, d, hd, hstop, htext⟩
  exact htext (h d (List.mem_filter.mp (Edit.mem_of_mem_arrange hd)).1 hstop)

end Turn

/-! ## The turns of a run -/

/-- The turns of a pass. A rule that throws has none, and neither have those behind it. -/
def passTurns (settings : Settings) : List Rule → Progress → List Turn
  | [], _ => []
  | r :: rs, p =>
    match r.analyze settings p.text with
    | .ok edits => ⟨p, edits⟩ :: passTurns settings rs (p.advance edits)
    | .error _ => []

/-- The turns of a run. -/
def turns (settings : Settings) (rules : List Rule) : (limit : Nat) → Progress → List Turn
  | 0, _ => []
  | n + 1, p =>
    passTurns settings rules p ++
      match pass settings rules p with
      | .ok (q, true) => turns settings rules n q
      | _ => []

/-- **A pass that loses no edit** is the pass without the filter. -/
theorem passBy_advanceFreely {p : Progress}
    (h : ∀ t ∈ passTurns settings rules p, t.Unfiltered) :
    passBy advanceFreely settings rules p = pass settings rules p := by
  induction rules generalizing p with
  | nil => rfl
  | cons r rs ih =>
      rw [passTurns] at h
      rw [passBy, pass]
      cases hr : r.analyze settings p.text with
      | error f => rfl
      | ok edits =>
          rw [hr] at h
          obtain ⟨hturn, hrest⟩ := List.forall_mem_cons.mp h
          have hfree : p.advanceFreely edits = p.advance edits := Turn.advanceFreely_eq hturn
          show (passBy advanceFreely settings rs (p.advanceFreely edits) >>= _)
            = (pass settings rs (p.advance edits) >>= _)
          rw [hfree, ih hrest]

/-- **A run that loses no edit** is the run without the filter. -/
theorem runBy_advanceFreely (limit : Nat) {p : Progress}
    (h : ∀ t ∈ turns settings rules limit p, t.Unfiltered) :
    runBy advanceFreely settings rules limit p = run settings rules limit p := by
  induction limit generalizing p with
  | zero => rfl
  | succ n ih =>
      rw [turns] at h
      obtain ⟨hpass, hrest⟩ := List.forall_mem_append.mp h
      rw [runBy, run, passBy_advanceFreely hpass]
      cases hp : pass settings rules p with
      | error f => rfl
      | ok qb =>
          obtain ⟨q, b⟩ := qb
          rw [hp] at hrest
          cases b with
          | false => rfl
          | true => exact ih hrest

theorem mem_passSteps_self (settings : Settings) (rules : List Rule) (p : Progress) :
    p ∈ passSteps settings rules p := by
  cases rules with
  | nil => exact List.mem_singleton.mpr rfl
  | cons r rs => exact List.mem_cons_self

/-- A pass ends at its last step. -/
theorem exists_passSteps_eq {p q : Progress} {b : Bool}
    (h : pass settings rules p = .ok (q, b)) :
    ∃ front, passSteps settings rules p = front ++ [q] := by
  induction rules generalizing p b with
  | nil =>
      cases h
      exact ⟨[], rfl⟩
  | cons r rs ih =>
      rw [pass] at h
      rw [passSteps]
      cases hr : r.analyze settings p.text with
      | error f =>
          rw [hr] at h
          cases h
      | ok edits =>
          rw [hr] at h
          change (pass settings rs (p.advance edits) >>= _) = _ at h
          cases hrest : pass settings rs (p.advance edits) with
          | error f =>
              rw [hrest] at h
              cases h
          | ok qb =>
              rw [hrest] at h
              cases h
              obtain ⟨front, hfront⟩ := ih hrest
              exact ⟨p :: front, congrArg (p :: ·) hfront⟩

theorem mem_passTurns {p : Progress} {t : Turn} (ht : t ∈ passTurns settings rules p) :
    t.before ∈ passSteps settings rules p
      ∧ ∃ r ∈ rules, r.analyze settings t.before.text = .ok t.edits := by
  induction rules generalizing p with
  | nil => cases ht
  | cons r rs ih =>
      rw [passTurns] at ht
      rw [passSteps]
      cases hr : r.analyze settings p.text with
      | error f =>
          rw [hr] at ht
          cases ht
      | ok edits =>
          rw [hr] at ht
          rcases List.mem_cons.mp ht with rfl | ht
          · exact ⟨List.mem_cons_self, r, List.mem_cons_self, hr⟩
          · obtain ⟨hstep, r', hr', hedits⟩ := ih ht
            exact ⟨List.mem_cons_of_mem p hstep, r', List.mem_cons_of_mem r hr', hedits⟩

/-- A turn belongs to one of the steps of its run and to one of the rules. -/
theorem mem_turns {limit : Nat} {p : Progress} {t : Turn} (ht : t ∈ turns settings rules limit p) :
    t.before ∈ steps settings rules limit p
      ∧ ∃ r ∈ rules, r.analyze settings t.before.text = .ok t.edits := by
  induction limit generalizing p with
  | zero => cases ht
  | succ n ih =>
      rw [turns] at ht
      rw [steps]
      rcases List.mem_append.mp ht with ht | ht
      · obtain ⟨hstep, hrule⟩ := mem_passTurns ht
        exact ⟨List.mem_append_left _ hstep, hrule⟩
      · cases hp : pass settings rules p with
        | error f =>
            rw [hp] at ht
            cases ht
        | ok qb =>
            obtain ⟨q, b⟩ := qb
            rw [hp] at ht
            cases b with
            | false => cases ht
            | true =>
                obtain ⟨hstep, hrule⟩ := ih ht
                exact ⟨List.mem_append_right _ hstep, hrule⟩

/-! ## The start of the range along a run -/

section

variable {p : Progress} (hin : ∀ r ∈ rules, r.InText settings) (hend : p.rangeEnd = none)

include hin hend

theorem open_of_analyze {r : Rule} (hr : r ∈ rules) {edits : List Edit}
    (hedits : r.analyze settings p.text = .ok edits) : (Turn.mk p edits).Open :=
  ⟨hend, hin r hr p.text edits hedits⟩

/-- At every step of a run the range has no end and starts where it did or further back. -/
theorem range_of_mem_steps (limit : Nat) :
    ∀ q ∈ steps settings rules limit p, q.rangeEnd = none ∧ p.rangeStart ≤ q.rangeStart := by
  have hstep : ∀ r ∈ rules, ∀ (q : Progress) (edits : List Edit),
      q.rangeEnd = none ∧ p.rangeStart ≤ q.rangeStart →
      r.analyze settings q.text = .ok edits →
      (q.advance edits).rangeEnd = none ∧ p.rangeStart ≤ (q.advance edits).rangeStart := by
    intro r hr q edits hq hedits
    have hturn := Turn.rangeStart_le_after (open_of_analyze hin hq.1 hr hedits)
    exact ⟨rangeEnd_advance hq.1, hq.2.trans hturn⟩
  exact forall_mem_steps hstep limit ⟨hend, le_rfl⟩

theorem open_of_mem_turns (limit : Nat) : ∀ t ∈ turns settings rules limit p, t.Open := by
  intro t ht
  obtain ⟨hstep, r, hr, hedits⟩ := mem_turns ht
  exact open_of_analyze hin (range_of_mem_steps hin hend limit _ hstep).1 hr hedits

/-- **One pass**: the range starts with the text throughout unless something is inserted there. -/
theorem passSteps_rangeStart_iff (hs : p.rangeStart = 0) :
    (∀ q ∈ passSteps settings rules p, q.rangeStart = 0)
      ↔ ∀ t ∈ passTurns settings rules p, ¬ t.InsertsInFront := by
  induction rules generalizing p with
  | nil => simp [passSteps, passTurns, hs]
  | cons r rs ih =>
      rw [passSteps, passTurns]
      cases hr : r.analyze settings p.text with
      | error f => simp [hs]
      | ok edits =>
          have hturn := Turn.rangeStart_after_eq_zero_iff
            (open_of_analyze hin hend List.mem_cons_self hr) hs
          have hrest : (p.advance edits).rangeEnd = none := rangeEnd_advance hend
          have hin' : ∀ r' ∈ rs, r'.InText settings :=
            fun r' hr' => hin r' (List.mem_cons_of_mem r hr')
          dsimp only
          rw [List.forall_mem_cons, List.forall_mem_cons, ← hturn]
          constructor
          · rintro ⟨-, hall⟩
            have hafter : (p.advance edits).rangeStart = 0 :=
              hall _ (mem_passSteps_self settings rs _)
            exact ⟨hafter, (ih hin' hrest hafter).mp hall⟩
          · rintro ⟨hafter, hall⟩
            exact ⟨hs, (ih hin' hrest hafter).mpr hall⟩

/-- **A run**: the range starts with the text throughout unless something is inserted there. -/
theorem steps_rangeStart_iff (hs : p.rangeStart = 0) (limit : Nat) :
    (∀ q ∈ steps settings rules limit p, q.rangeStart = 0)
      ↔ ∀ t ∈ turns settings rules limit p, ¬ t.InsertsInFront := by
  induction limit generalizing p with
  | zero => simp [steps, turns, hs]
  | succ n ih =>
      rw [steps, turns, List.forall_mem_append, List.forall_mem_append,
        passSteps_rangeStart_iff hin hend hs]
      refine and_congr_right fun hpass => ?_
      rcases pass_cases settings rules p with ⟨q, b, hq, hmem⟩ | ⟨f, hf, -⟩
      · rw [hq]
        cases b with
        | false => simp
        | true =>
            -- the next pass starts where this one ends
            have hzero := (passSteps_rangeStart_iff hin hend hs).mpr hpass q hmem
            have hopen := (range_of_mem_steps hin hend (n + 1) q
              (List.mem_append_left _ hmem)).1
            exact ih hopen hzero
      · rw [hf]
        simp

/-- Along a pass the start of the range never moves back. -/
theorem pairwise_passSteps :
    (passSteps settings rules p).Pairwise (fun q q' => q.rangeStart ≤ q'.rangeStart) := by
  induction rules generalizing p with
  | nil => exact List.pairwise_singleton _ _
  | cons r rs ih =>
      rw [passSteps]
      cases hr : r.analyze settings p.text with
      | error f => exact List.pairwise_singleton _ _
      | ok edits =>
          have hstep := Turn.rangeStart_le_after
            (open_of_analyze hin hend List.mem_cons_self hr)
          have hin' : ∀ r' ∈ rs, r'.InText settings :=
            fun r' hr' => hin r' (List.mem_cons_of_mem r hr')
          have hrest : (p.advance edits).rangeEnd = none := rangeEnd_advance hend
          refine List.pairwise_cons.mpr ⟨fun q hq => ?_, ih hin' hrest⟩
          have hlater := range_of_mem_steps hin' hrest 1 q (List.mem_append_left _ hq)
          exact hstep.trans hlater.2

/-- **Along a run the start of the range never moves back.** -/
theorem pairwise_steps (limit : Nat) :
    (steps settings rules limit p).Pairwise (fun q q' => q.rangeStart ≤ q'.rangeStart) := by
  induction limit generalizing p with
  | zero => exact List.pairwise_singleton _ _
  | succ n ih =>
      have hpass := pairwise_passSteps hin hend
      rw [steps]
      cases hp : pass settings rules p with
      | error f =>
          rw [List.append_nil]
          exact hpass
      | ok qb =>
          obtain ⟨q, b⟩ := qb
          cases b with
          | false =>
              rw [List.append_nil]
              exact hpass
          | true =>
              -- in between stands the last step of this pass, where the next one starts
              obtain ⟨front, hfront⟩ := exists_passSteps_eq hp
              have hmem : q ∈ passSteps settings rules p := by
                rw [hfront]
                exact List.mem_append_right _ (List.mem_singleton.mpr rfl)
              have hopen := (range_of_mem_steps hin hend (n + 1) q
                (List.mem_append_left _ hmem)).1
              refine List.pairwise_append.mpr ⟨hpass, ih hopen, fun a ha c hc => ?_⟩
              have hlater := (range_of_mem_steps hin hopen n c hc).2
              have hearlier : a.rangeStart ≤ q.rangeStart := by
                rw [hfront] at ha hpass
                rcases List.mem_append.mp ha with ha | ha
                · exact (List.pairwise_append.mp hpass).2.2 a ha q (List.mem_singleton.mpr rfl)
                · rw [List.mem_singleton.mp ha]
              exact hearlier.trans hlater

end

end Progress

namespace Engine

open Progress

variable {e : Engine} {extra : List Rule} {settings : Settings} {source : Text}

/-- The call without the filter. -/
def formatFreely (e : Engine) (settings : Settings) (source : Text) : Except Fault Formatted := do
  let _ ← e.parse settings source
  let p ← runBy advanceFreely settings e.rules maxPasses (start settings source)
  .ok ⟨p.text, p.cursor⟩

theorem inText_of_mem_rules (hrules : e.rules = builtinRules ++ extra)
    (hextra : ∀ r ∈ extra, r.InText settings) : ∀ r ∈ e.rules, r.InText settings := by
  intro r hr
  rw [hrules] at hr
  rcases List.mem_append.mp hr with hr | hr
  · exact inText_of_mem_builtinRules settings r hr
  · exact hextra r hr

/-- A call whose turns insert nothing at the start of the text loses no edit. -/
theorem unfiltered_of_turns (hin : ∀ r ∈ e.rules, r.InText settings)
    (hstart : settings.rangeStart = 0) (hend : settings.rangeEnd = none)
    (hfront : ∀ t ∈ turns settings e.rules maxPasses (start settings source),
      ¬ t.InsertsInFront) :
    (∀ t ∈ turns settings e.rules maxPasses (start settings source), t.Unfiltered)
      ∧ e.formatWith settings source = e.formatFreely settings source := by
  obtain ⟨hzero, hnone⟩ := whole_start source hstart hend
  have hall : ∀ t ∈ turns settings e.rules maxPasses (start settings source), t.Unfiltered := by
    intro t ht
    have hstep := (steps_rangeStart_iff hin hnone hzero maxPasses).mpr hfront t.before
      (mem_turns ht).1
    exact Turn.unfiltered_of_rangeStart_eq_zero (open_of_mem_turns hin hnone maxPasses t ht) hstep
  refine ⟨hall, ?_⟩
  rw [formatWith, formatFreely, runBy_advanceFreely maxPasses hall]

/-- **What the filter does to a call without a range.** An edit is dropped exactly when it starts in
front of the range. The range starts with the text throughout exactly when no turn inserts something
there, and its start never moves back. In a call without such a turn nothing is dropped, and the
result is that of the call without the filter. -/
theorem formatWith_unfiltered (hrules : e.rules = builtinRules ++ extra)
    (hextra : ∀ r ∈ extra, r.InText settings) (hstart : settings.rangeStart = 0)
    (hend : settings.rangeEnd = none) :
    (∀ t ∈ turns settings e.rules maxPasses (start settings source),
        ∀ d ∈ t.edits, t.before.admits d = false ↔ d.start < t.before.rangeStart)
      ∧ ((∀ p ∈ steps settings e.rules maxPasses (start settings source), p.rangeStart = 0)
        ↔ ∀ t ∈ turns settings e.rules maxPasses (start settings source), ¬ t.InsertsInFront)
      ∧ (steps settings e.rules maxPasses (start settings source)).Pairwise
          (fun p q => p.rangeStart ≤ q.rangeStart)
      ∧ ((∀ t ∈ turns settings e.rules maxPasses (start settings source), ¬ t.InsertsInFront) →
          (∀ t ∈ turns settings e.rules maxPasses (start settings source), t.Unfiltered)
          ∧ e.formatWith settings source = e.formatFreely settings source) := by
  have hin := inText_of_mem_rules hrules hextra
  obtain ⟨hzero, hnone⟩ := whole_start source hstart hend
  refine ⟨fun t ht => ?_, ?_, ?_, ?_⟩
  · exact Turn.admits_eq_false_iff (open_of_mem_turns hin hnone maxPasses t ht)
  · exact steps_rangeStart_iff hin hnone hzero maxPasses
  · exact pairwise_steps hin hnone maxPasses
  · exact unfiltered_of_turns hin hstart hend

/-! ## Rules that leave the start alone -/

theorem keepsFront_of_mem_builtinRules (settings : Settings) :
    ∀ r ∈ builtinRules, r.KeepsFront settings := by
  intro r hr text edits hedits d hd hstop
  rcases List.mem_cons.mp hr with rfl | hr
  · cases hedits
    have := (Whitespace.within_edits text d hd).2
    omega
  · rw [List.mem_singleton.mp hr] at hedits
    cases hedits
    have := (Indentation.within_edits text d hd).2
    omega

/-- What is replaced is not empty, so nothing is inserted. -/
theorem keepsFront_replaceAll (settings : Settings) {find : Text} (hfind : find ≠ [])
    (replace : Text) (priority : Int) :
    (Recipe.replaceAll find replace priority).rule.KeepsFront settings := by
  intro text edits hedits d hd hstop
  cases hedits
  obtain ⟨o, -, rfl⟩ := List.mem_map.mp hd
  have hpos := List.length_pos_iff.mpr hfind
  change (o : Int) + find.length = 0 at hstop
  omega

theorem not_insertsInFront_of_mem_turns (hrules : e.rules = builtinRules ++ extra)
    (hfront : ∀ r ∈ extra, r.KeepsFront settings) :
    ∀ t ∈ turns settings e.rules maxPasses (start settings source), ¬ t.InsertsInFront := by
  intro t ht
  obtain ⟨-, r, hr, hedits⟩ := mem_turns ht
  have hkeeps : r.KeepsFront settings := by
    rw [hrules] at hr
    rcases List.mem_append.mp hr with hr | hr
    · exact keepsFront_of_mem_builtinRules settings r hr
    · exact hfront r hr
  exact Turn.not_insertsInFront (hkeeps _ _ hedits)

/-- **Rules that insert nothing at the start** make calls without a range that lose no edit. -/
theorem formatWith_of_keepsFront (hrules : e.rules = builtinRules ++ extra)
    (hextra : ∀ r ∈ extra, r.InText settings) (hfront : ∀ r ∈ extra, r.KeepsFront settings)
    (hstart : settings.rangeStart = 0) (hend : settings.rangeEnd = none) :
    e.formatWith settings source = e.formatFreely settings source :=
  (unfiltered_of_turns (inText_of_mem_rules hrules hextra) hstart hend
    (not_insertsInFront_of_mem_turns hrules hfront)).2

/-- A rule that replaces the first letter of the text, and others, in every pass. -/
theorem formatWith_unfiltered_replaceAll :
    ((standard fun _ => default).addRule (Recipe.replaceAll ['b'] ['b', 'b'] 0).rule).formatWith {}
        "b \n\n\n b".toList
      = ((standard fun _ => default).addRule
          (Recipe.replaceAll ['b'] ['b', 'b'] 0).rule).formatFreely {} "b \n\n\n b".toList := by
  have hextra : ∀ r ∈ [(Recipe.replaceAll ['b'] ['b', 'b'] 0).rule],
      r.InText {} ∧ r.KeepsFront {} := by
    intro r hr
    rw [List.mem_singleton.mp hr]
    exact ⟨inText_replaceAll _ _ _ _, keepsFront_replaceAll _ (by decide) _ _⟩
  refine ((formatWith_unfiltered ?_ (fun r hr => (hextra r hr).1) rfl rfl).2.2.2 ?_).2
  · rfl
  · exact not_insertsInFront_of_mem_turns rfl fun r hr => (hextra r hr).2

/-- **An edit that is dropped**: what the rule inserts at the start of the text moves the range, and
in the next pass the rule's edit stands in front of it. -/
theorem exists_formatWith_ne_formatFreely :
    (Recipe.always [⟨0, 0, ['x'], 0⟩]).rule.InText {}
      ∧ (((standard fun _ => default).addRule
          (Recipe.always [⟨0, 0, ['x'], 0⟩]).rule).formatWith {} "a\n".toList).map Formatted.text
        = .ok "xa\n".toList
      ∧ (((standard fun _ => default).addRule
          (Recipe.always [⟨0, 0, ['x'], 0⟩]).rule).formatFreely {} "a\n".toList).map Formatted.text
        = .ok "xxxxxa\n".toList := by
  refine ⟨?_, by with_unfolding_all rfl, by with_unfolding_all rfl⟩
  intro text edits hedits d hd
  cases hedits
  rw [List.mem_singleton.mp hd]
  exact ⟨le_rfl, le_rfl, Int.natCast_nonneg _⟩

end Engine

end CaplLayout
