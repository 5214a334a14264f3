import CaplLayout.Proofs.Cursor
import CaplLayout.Rule.Custom

/-!
# What a range leaves alone

A call with a range keeps the text in front of the range and the text behind it, once the pairs
are unified, whatever rules the engine has (`formatWith_frame`). All that is asked of a rule
is that its edits lie in the text it looks at (`Rule.InText`).

The range moves with the text. `Framed` says where it may be: behind the front that is kept, with
its start not behind its end, and in front of the back that is kept. One rule preserves that
(`Framed.advance`), and so it holds at every step of a call (`forall_mem_steps`).
-/

set_option autoImplicit false

namespace CaplLayout

/-- Under the settings the rule proposes edits inside of the text only. -/
def Rule.InText (settings : Settings) (r : Rule) : Prop :=
  ∀ text edits, r.analyze settings text = .ok edits → ∀ e ∈ edits, Edit.Within 0 text.length e

/-- A text is what stands in front of a span, the span, and what stands behind it. -/
theorem Text.slice_append_slice {s : Text} {a b : Int} (ha : 0 ≤ a) (hab : a ≤ b)
    (hb : b ≤ s.length) :
    s = s.slice 0 a ++ s.slice a b ++ s.sliceFrom b ∧ ((s.slice 0 a).length : Int) = a
      ∧ ((s.sliceFrom b).length : Int) = s.length - b := by
  have hpos : ∀ i : Int, 0 ≤ i → i ≤ s.length → position s.length i = i.toNat :=
    fun i h0 hi => Edit.position_of_le h0 hi
  have hfront : s.slice 0 a = (s.take b.toNat).take a.toNat := by
    rw [slice, hpos 0 le_rfl (by omega), hpos a ha (by omega), List.take_take,
      Nat.min_eq_left (by omega)]
    rfl
  have hmiddle : s.slice a b = (s.take b.toNat).drop a.toNat := by
    rw [slice, hpos a ha (by omega), hpos b (by omega) hb]
  have hback : s.sliceFrom b = s.drop b.toNat := by rw [sliceFrom, hpos b (by omega) hb]
  refine ⟨?_, ?_, ?_⟩
  · rw [hfront, hmiddle, hback, List.take_append_drop, List.take_append_drop]
  · rw [hfront, List.length_take, List.length_take]
    omega
  · rw [hback, List.length_drop]
    omega

/-! ## Edits in the middle of a text -/

namespace Edit

/-- Edits that are in order and apart are so between any offsets that they lie between. -/
theorem Apart.of_within {lo hi lo' hi' : Int} {es : List Edit} (h : Apart lo hi es)
    (hle : lo' ≤ hi') (hin : ∀ e ∈ es, Within lo' hi' e) : Apart lo' hi' es := by
  induction es generalizing lo lo' with
  | nil => exact hle
  | cons e es ih =>
      obtain ⟨-, hord, hrest⟩ := h
      obtain ⟨hstart, -, hstop⟩ := hin e List.mem_cons_self
      refine ⟨hstart, hord, ih hrest hstop fun d hd => ?_⟩
      exact ⟨(hrest.within d hd).1, (hin d (List.mem_cons_of_mem e hd)).2⟩

/-- What stands behind all edits stays. -/
theorem carry_append {off : Nat} {t : Text} (w : Text) {es : List Edit}
    (h : Apart off (off + t.length : Nat) es) : carry off (t ++ w) es = carry off t es ++ w := by
  induction es generalizing off t with
  | nil => rfl
  | cons e es ih =>
      obtain ⟨hlo, hord, hrest⟩ := h
      have hstop := hrest.le
      have htail : Apart e.stop.toNat
          (e.stop.toNat + (t.drop (e.stop.toNat - off)).length : Nat) es := by
        have hhi : e.stop.toNat + (t.drop (e.stop.toNat - off)).length = off + t.length := by
          rw [List.length_drop]
          omega
        rw [hhi, Int.toNat_of_nonneg (by omega)]
        exact hrest
      rw [carry, carry, List.take_append_of_le_length (by omega),
        List.drop_append_of_le_length (by omega), ih htail]
      simp only [List.append_assoc]

/-- Edits between a front and a back keep both. -/
theorem apply_middle {u m w : Text} {es : List Edit}
    (h : ∀ e ∈ es, Within 0 (u ++ m ++ w).length e)
    (hmiddle : ∀ e ∈ arrange es, Within u.length (u.length + m.length : Nat) e) :
    (apply (u ++ m ++ w) es).1 = u ++ carry u.length m (arrange es) ++ w := by
  have hapart := (apart_arrange h).of_within (by omega) hmiddle
  have hbehind : ∀ e ∈ arrange es, (0 + u.length : Nat) ≤ e.start ∧ e.start ≤ e.stop := by
    intro e he
    rw [Nat.zero_add]
    exact ⟨(hmiddle e he).1, (hmiddle e he).2.1⟩
  rw [apply_fst h, List.append_assoc, carry_keep hbehind, Nat.zero_add, carry_append w hapart,
    List.append_assoc]

end Edit

namespace Progress

open Text

variable {settings : Settings} {rules : List Rule}

/-! ## The steps of a call -/

/-- Where a pass stands in front of each of its rules and behind the last one. A rule that throws
ends it. -/
def passSteps (settings : Settings) : List Rule → Progress → List Progress
  | [], p => [p]
  | r :: rs, p =>
    p :: match r.analyze settings p.text with
      | .ok edits => passSteps settings rs (p.advance edits)
      | .error _ => []

/-- Where a run stands at each step of its passes. -/
def steps (settings : Settings) (rules : List Rule) : (limit : Nat) → Progress → List Progress
  | 0, p => [p]
  | n + 1, p =>
    passSteps settings rules p ++
      match pass settings rules p with
      | .ok (q, true) => steps settings rules n q
      | _ => []

/-- A pass ends at its last step, or with what a rule throws at one of them. -/
theorem pass_cases (settings : Settings) (rules : List Rule) (p : Progress) :
    (∃ q b, pass settings rules p = .ok (q, b) ∧ q ∈ passSteps settings rules p)
      ∨ ∃ f, pass settings rules p = .error f
        ∧ ∃ q ∈ passSteps settings rules p, ∃ r ∈ rules, r.analyze settings q.text = .error f := by
  induction rules generalizing p with
  | nil => exact .inl ⟨p, false, rfl, List.mem_singleton.mpr rfl⟩
  | cons r rs ih =>
      rw [pass, passSteps]
      cases hr : r.analyze settings p.text with
      | error f => exact .inr ⟨f, rfl, p, List.mem_cons_self, r, List.mem_cons_self, hr⟩
      | ok edits =>
          dsimp only
          rcases ih (p.advance edits) with ⟨q, b, hpass, hq⟩ | ⟨f, hpass, q, hq, r', hr', hf⟩
          · refine .inl ⟨q, decide ((p.advance edits).text ≠ p.text) || b, ?_,
              List.mem_cons_of_mem p hq⟩
            show (pass settings rs (p.advance edits) >>= _) = _
            rw [hpass]
            rfl
          · refine .inr ⟨f, ?_, q, List.mem_cons_of_mem p hq, r', List.mem_cons_of_mem r hr', hf⟩
            show (pass settings rs (p.advance edits) >>= _) = _
            rw [hpass]
            rfl

/-- A run ends at one of its steps, or with what a rule throws at one of them. -/
theorem run_cases (settings : Settings) (rules : List Rule) (limit : Nat) (p : Progress) :
    (∃ q, run settings rules limit p = .ok q ∧ q ∈ steps settings rules limit p)
      ∨ ∃ f, run settings rules limit p = .error f
        ∧ ∃ q ∈ steps settings rules limit p, ∃ r ∈ rules,
          r.analyze settings q.text = .error f := by
  induction limit generalizing p with
  | zero => exact .inl ⟨p, rfl, List.mem_singleton.mpr rfl⟩
  | succ n ih =>
      rw [run, steps]
      rcases pass_cases settings rules p with ⟨q, b, hpass, hq⟩ | ⟨f, hpass, q, hq, r, hr, hf⟩
      · rw [hpass]
        cases b with
        | false => exact .inl ⟨q, rfl, List.mem_append_left _ hq⟩
        | true =>
            rcases ih q with ⟨q', hrun, hq'⟩ | ⟨f, hrun, q', hq', r, hr, hf⟩
            · exact .inl ⟨q', hrun, List.mem_append_right _ hq'⟩
            · exact .inr ⟨f, hrun, q', List.mem_append_right _ hq', r, hr, hf⟩
      · rw [hpass]
        exact .inr ⟨f, rfl, q, List.mem_append_left _ hq, r, hr, hf⟩

section

variable {Inv : Progress → Prop}

/-- What every rule preserves holds at every step of a pass. -/
theorem forall_mem_passSteps
    (hstep : ∀ r ∈ rules, ∀ p edits, Inv p → r.analyze settings p.text = .ok edits →
      Inv (p.advance edits))
    {p : Progress} (hp : Inv p) : ∀ q ∈ passSteps settings rules p, Inv q := by
  induction rules generalizing p with
  | nil =>
      intro q hq
      rwa [List.mem_singleton.mp hq]
  | cons r rs ih =>
      intro q hq
      rw [passSteps] at hq
      rcases List.mem_cons.mp hq with rfl | hq
      · exact hp
      · cases hr : r.analyze settings p.text with
        | error f =>
            rw [hr] at hq
            cases hq
        | ok edits =>
            rw [hr] at hq
            exact ih (fun r' hr' => hstep r' (List.mem_cons_of_mem r hr'))
              (hstep r List.mem_cons_self p edits hp hr) q hq

/-- **What every rule preserves holds at every step of a run.** -/
theorem forall_mem_steps
    (hstep : ∀ r ∈ rules, ∀ p edits, Inv p → r.analyze settings p.text = .ok edits →
      Inv (p.advance edits))
    (limit : Nat) {p : Progress} (hp : Inv p) : ∀ q ∈ steps settings rules limit p, Inv q := by
  induction limit generalizing p with
  | zero =>
      intro q hq
      rwa [List.mem_singleton.mp hq]
  | succ n ih =>
      intro q hq
      have hpass := forall_mem_passSteps hstep hp
      rw [steps] at hq
      rcases List.mem_append.mp hq with hq | hq
      · exact hpass q hq
      · rcases pass_cases settings rules p with ⟨q', b, hrun, hq'⟩ | ⟨f, hrun, -⟩
        · rw [hrun] at hq
          cases b with
          | false => cases hq
          | true =>
              -- the next pass starts at the last step of this one
              exact ih (hpass q' hq') q hq
        · rw [hrun] at hq
          cases hq

end

/-! ## One rule -/

/-- The text starts with `u` and ends with `w`, and the range lies between them, with its start not
behind its end. -/
structure Framed (u w : Text) (p : Progress) : Prop where
  text : ∃ m, p.text = u ++ m ++ w
  front : u.length ≤ p.rangeStart
  ordered : p.rangeStart ≤ p.stop
  back : p.stop ≤ p.text.length - w.length

/-- **A rule keeps what stands in front of the range and behind it.** -/
theorem Framed.advance {u w : Text} {p : Progress} {edits : List Edit} (h : Framed u w p)
    (hin : ∀ e ∈ edits, Edit.Within 0 p.text.length e) : Framed u w (p.advance edits) := by
  by_cases hsame : (p.advance edits).text = p.text
  · rwa [advance_of_text_eq hsame]
  · obtain ⟨⟨m, hm⟩, hfront, hord, hback⟩ := h
    have hin' : ∀ e ∈ edits.filter p.admits, Edit.Within 0 p.text.length e :=
      fun e he => hin e (List.mem_filter.mp he).1
    have hrange := within_of_mem_arrange hin
    have hlen := congrArg List.length hm
    rw [List.length_append, List.length_append] at hlen
    -- all edits that are carried out lie between `u` and `w`
    have hmiddle : ∀ e ∈ Edit.arrange (edits.filter p.admits),
        Edit.Within u.length (u.length + m.length : Nat) e :=
      fun e he => (hrange e he).mono hfront (by omega)
    have htext : (p.advance edits).text
        = u ++ Edit.carry u.length m (Edit.arrange (edits.filter p.admits)) ++ w := by
      rw [text_advance, hm]
      exact Edit.apply_middle (hm ▸ hin') hmiddle
    have hstop := stop_advance hin hsame
    have hstart : (p.advance edits).rangeStart
        = Edit.mapOffset (Edit.arrange (edits.filter p.admits)) p.rangeStart := by
      rw [advance_of_text_ne hsame]
    constructor
    · exact ⟨_, htext⟩
    · rw [hstart]
      apply hfront.trans
      exact Edit.le_mapOffset fun e he => ⟨(hrange e he).1, (hrange e he).2.1⟩
    · rw [hstart, hstop]
      exact Edit.mapOffset_mono (Edit.apart_arrange hin') hord
    · -- the text and the end of the range grow by the same
      have hgain := length_apply hin
      have hend := Edit.mapOffset_of_stop_le fun e he => (hrange e he).2.2
      rw [hstop, hend, text_advance, hgain]
      omega

/-- The ends of the range of a call lie in the text, in order. -/
theorem range_start (settings : Settings) (source : Text) :
    0 ≤ (start settings source).rangeStart
      ∧ (start settings source).rangeStart ≤ (start settings source).stop
      ∧ (start settings source).stop ≤ source.unifyPairs.length := by
  have hle : ∀ n, min n source.length ≤ source.length := fun n => Nat.min_le_right _ _
  refine ⟨unifiedOffset_nonneg source (hle _), ?_⟩
  unfold stop start
  dsimp only
  cases hend : settings.rangeEnd with
  | none => exact ⟨unifiedOffset_le source (hle _), le_rfl⟩
  | some n =>
      have := settings.range_ordered n hend
      exact ⟨unifiedOffset_mono source (by omega), unifiedOffset_le source (hle n)⟩

/-- A call starts between the texts in front of its range and behind it. -/
theorem framed_start (settings : Settings) (source : Text) :
    Framed (source.unifyPairs.slice 0 (start settings source).rangeStart)
      (source.unifyPairs.sliceFrom (start settings source).stop) (start settings source) := by
  obtain ⟨h0, hord, hn⟩ := range_start settings source
  obtain ⟨hsplit, hfront, hback⟩ := slice_append_slice h0 hord hn
  constructor
  · exact ⟨_, hsplit⟩
  · omega
  · exact hord
  · show (start settings source).stop ≤ source.unifyPairs.length - _
    omega

end Progress

namespace Engine

open Text Progress

variable {e : Engine} {extra : List Rule} {settings : Settings} {source : Text} {tree : Tree}

/-- The built-in rules propose edits inside of the text. -/
theorem inText_of_mem_builtinRules (settings : Settings) :
    ∀ r ∈ builtinRules, r.InText settings := by
  intro r hr text edits hedits
  rcases List.mem_cons.mp hr with rfl | hr
  · cases hedits
    exact fun d hd => (Whitespace.within_edits text d hd).1
  · rw [List.mem_singleton.mp hr] at hedits
    cases hedits
    exact fun d hd => (Indentation.within_edits text d hd).1

/-- **A call leaves everything outside of its range alone.** Let `a` and `b` be the ends of the
range once the pairs are unified. At each step of the call the text in front of `a` and the text
behind `b` are there, and the range lies between them in order. The call ends with such a text,
or with what one of the further rules throws. -/
theorem formatWith_frame (hrules : e.rules = builtinRules ++ extra)
    (hextra : ∀ r ∈ extra, r.InText settings) (hparse : e.parse settings source = .ok tree) :
    ∃ a b : Int, a = unifiedOffset source (min settings.rangeStart source.length : Nat)
      ∧ b = (settings.rangeEnd.map fun n => unifiedOffset source (min n source.length : Nat)).getD
          source.unifyPairs.length
      ∧ 0 ≤ a ∧ a ≤ b ∧ b ≤ source.unifyPairs.length
      ∧ (∀ p ∈ steps settings e.rules maxPasses (start settings source),
          Framed (source.unifyPairs.slice 0 a) (source.unifyPairs.sliceFrom b) p)
      ∧ ((∃ out m, e.formatWith settings source = .ok out
            ∧ out.text = source.unifyPairs.slice 0 a ++ m ++ source.unifyPairs.sliceFrom b)
          ∨ ∃ f, e.formatWith settings source = .error f
            ∧ ∃ p ∈ steps settings e.rules maxPasses (start settings source),
                ∃ r ∈ extra, r.analyze settings p.text = .error f) := by
  have hin : ∀ r ∈ e.rules, r.InText settings := by
    intro r hr
    rw [hrules] at hr
    rcases List.mem_append.mp hr with hr | hr
    · exact inText_of_mem_builtinRules settings r hr
    · exact hextra r hr
  have hframed := forall_mem_steps (fun r hr p edits hp hedits => hp.advance (hin r hr _ _ hedits))
    maxPasses (framed_start settings source)
  obtain ⟨h0, hord, hn⟩ := range_start settings source
  refine ⟨_, _, rfl, rfl, h0, hord, hn, hframed, ?_⟩
  rw [formatWith, hparse]
  rcases run_cases settings e.rules maxPasses (start settings source) with
    ⟨p, hrun, hp⟩ | ⟨f, hrun, p, hp, r, hr, hf⟩
  · obtain ⟨m, hm⟩ := (hframed p hp).text
    refine .inl ⟨⟨p.text, p.cursor⟩, m, ?_, hm⟩
    show (run settings e.rules maxPasses (start settings source) >>= _) = _
    rw [hrun]
    rfl
  · refine .inr ⟨f, ?_, p, hp, r, ?_, hf⟩
    · show (run settings e.rules maxPasses (start settings source) >>= _) = _
      rw [hrun]
      rfl
    · -- the built-in rules do not throw
      rw [hrules] at hr
      rcases List.mem_append.mp hr with hr | hr
      · rcases List.mem_cons.mp hr with rfl | hr
        · cases hf
        · rw [List.mem_singleton.mp hr] at hf
          cases hf
      · exact hr

/-! ## A further rule -/

/-- What is found ends inside of the text. -/
theorem mem_occurrencesFrom {find : Text} {offset skip : Nat} {s : Text} {o : Nat}
    (h : o ∈ Recipe.occurrencesFrom find offset skip s) :
    o + find.length ≤ offset + s.length := by
  induction s generalizing offset skip with
  | nil =>
      rw [Recipe.occurrencesFrom] at h
      split at h
      · next hfind =>
          rw [List.mem_singleton.mp h, hfind.2]
      · cases h
  | cons c r ih =>
      rw [Recipe.occurrencesFrom] at h
      rw [List.length_cons]
      split at h
      · have := ih h
        omega
      · split at h
        · next hprefix =>
            rcases List.mem_cons.mp h with rfl | h
            · have := (List.isPrefixOf_iff_prefix.mp hprefix).length_le
              rw [List.length_cons] at this
              omega
            · have := ih h
              omega
        · have := ih h
          omega

theorem inText_replaceAll (settings : Settings) (find replace : Text) (priority : Int) :
    (Recipe.replaceAll find replace priority).rule.InText settings := by
  intro text edits hedits d hd
  cases hedits
  obtain ⟨o, ho, rfl⟩ := List.mem_map.mp hd
  have := mem_occurrencesFrom ho
  simp only [Edit.Within, Recipe.replaceAt]
  omega

/-- A rule that doubles a letter in every pass, until the limit of passes is reached, and a range
from inside of one pair up to inside of another. -/
theorem formatWith_frame_replaceAll :
    ∃ out m, ((standard fun _ => default).addRule
          (Recipe.replaceAll ['b'] ['b', 'b'] 0).rule).formatWith
        { rangeStart := 3, rangeEnd := some 9 } "a \r\n  b \r\n b".toList = .ok out
      ∧ out.text = "a \n".toList ++ m ++ " b".toList := by
  have hextra : ∀ r ∈ [(Recipe.replaceAll ['b'] ['b', 'b'] 0).rule],
      r.InText { rangeStart := 3, rangeEnd := some 9 } := by
    intro r hr
    rw [List.mem_singleton.mp hr]
    exact inText_replaceAll _ _ _ _
  have hparse : ((standard fun _ => default).addRule
      (Recipe.replaceAll ['b'] ['b', 'b'] 0).rule).parse
        { rangeStart := 3, rangeEnd := some 9 } "a \r\n  b \r\n b".toList = .ok default := rfl
  obtain ⟨a, b, ha, hb, -, -, -, -, hresult⟩ := formatWith_frame rfl hextra hparse
  have hfront : (unifyPairs "a \r\n  b \r\n b".toList).slice 0 a = "a \n".toList := by
    rw [ha]
    decide
  have hback : (unifyPairs "a \r\n  b \r\n b".toList).sliceFrom b = " b".toList := by
    rw [hb]
    decide
  rw [hfront, hback] at hresult
  rcases hresult with hok | ⟨f, -, p, -, r, hr, hf⟩
  · exact hok
  · rw [List.mem_singleton.mp hr] at hf
    cases hf

end Engine

end CaplLayout
