import CaplLayout.Proofs.Passes
import Mathlib.Data.List.Forall2

/-!
# What formatting keeps

Formatting changes layout only: the lines that are not blank stay, in order and with their
content, and those that continue a comment or a string keep their indentation as well
(`formatWith_keeps`).

A line's level depends on the text in front of it, and trimming may change it: a backslash at
the end of a line of a string counts only when no blanks follow it. This happens in the
first cleanup only, which does not look at levels. From then on the lines are clean, the
level of a line that is not blank never changes, and so a line without a level at the end has
had none whenever it might have been indented.
-/

set_option autoImplicit false

namespace CaplLayout.Layout

open Text Margins Whitespace Indentation

variable {settings : Settings} {m : Margins}

/-! ## Lines that are not blank -/

/-- The lines that are not blank, without the blanks around them. -/
def outline (s : Text) : List Text := (s.lines.filter fun l => !l.all isBlank).map (trim isBlank)

/-- The lines that are not blank, as the scanner sees them. -/
def visible (s : Text) : List Line := (Line.ofSource s).filter fun l => l.content ≠ []

/-- Those of some lines, the first of which starts at `pre` in scanner state `s`. -/
def visibleFrom (s : Scan) (pre : Nat) (ls : List Text) : List Line :=
  (Line.listFrom s pre ls).filter fun l => l.content ≠ []

theorem visibleFrom_of_blank (s : Scan) (pre : Nat) {l : Text} (hb : body l = []) (r : List Text) :
    visibleFrom s pre (l :: r) = visibleFrom (s.readLine l) (pre + l.length + 1) r := by
  have hcontent : (Line.ofText s pre l).content = [] := trimEnd_body_eq_nil.mpr hb
  rw [visibleFrom, Line.listFrom, List.filter_cons_of_neg (by simpa using hcontent)]
  rfl

theorem visibleFrom_of_content (s : Scan) (pre : Nat) {l : Text} (hb : body l ≠ [])
    (r : List Text) :
    visibleFrom s pre (l :: r)
      = Line.ofText s pre l :: visibleFrom (s.readLine l) (pre + l.length + 1) r := by
  have hcontent : (Line.ofText s pre l).content ≠ [] := mt trimEnd_body_eq_nil.mp hb
  rw [visibleFrom, Line.listFrom, List.filter_cons_of_pos (by simpa using hcontent)]
  rfl

theorem visibleFrom_replicate_nil_append (s : Scan) (pre k : Nat) (ls : List Text) :
    visibleFrom s pre (List.replicate k [] ++ ls) = visibleFrom (behind s k) (pre + k) ls := by
  induction k generalizing s pre with
  | zero => rfl
  | succ k ih =>
      rw [List.replicate_succ, List.cons_append, visibleFrom_of_blank s pre rfl, ih, behind_succ',
        List.length_nil, Nat.add_zero, Nat.add_right_comm, Nat.add_assoc]

theorem outline_eq (s : Text) : outline s = (visible s).map Line.content := by
  have h : ∀ (t : Scan) (pre : Nat) (ls : List Text),
      (ls.filter fun l => !l.all isBlank).map (trim isBlank)
        = (visibleFrom t pre ls).map Line.content := by
    intro t pre ls
    induction ls generalizing t pre with
    | nil => rfl
    | cons l r ih =>
        by_cases hb : body l = []
        · rw [visibleFrom_of_blank t pre hb, ← ih,
            List.filter_cons_of_neg (by simp [all_isBlank.mpr hb])]
        · have hall : l.all isBlank = false := Bool.eq_false_iff.mpr (mt all_isBlank.mp hb)
          rw [visibleFrom_of_content t pre hb, List.filter_cons_of_pos (by simp [hall]),
            List.map_cons, List.map_cons, ← ih]
          rfl
  exact h .initial 0 s.lines

/-! ## The rules -/

/-- The same indentation and content. -/
def SameText (a b : Line) : Prop := a.indent = b.indent ∧ a.content = b.content

/-- The same content and level, and the same indentation as well when there is no level. -/
def SameLevel (a b : Line) : Prop :=
  a.content = b.content ∧ a.level = b.level ∧ (a.level = none → a.indent = b.indent)

theorem body_trimLine (m : Margins) (pre suf : Nat) (l : Text) :
    trimEnd isBlank (body (trimLine m pre suf l)) = trimEnd isBlank (body l) := by
  rw [← body_trimEnd, trimEnd_trimLine, body_trimEnd]

theorem margin_trimLine (pre suf : Nat) {l : Text} (hb : body l ≠ []) :
    margin (trimLine m pre suf l) = margin l := by
  unfold trimLine
  split
  · exact margin_trimEnd hb
  · rfl

/-- **The cleanup keeps texts**, whatever the scanner makes of them, and under the condition `c`
that the lines are clean it keeps their levels, too. -/
theorem sameText_sweep (c : Prop) (s s' : Scan) (pre e : Nat) {ls : List Text}
    (hclean : c → Clean m (pre + feeds pre e) ls ∧ s' = behind s e
      ∧ (pre = 0 → s.readLine [] = s)) (q q' : Nat) :
    List.Forall₂ (fun a b => SameText a b ∧ (c → a.level = b.level))
      (visibleFrom s q (sweep m pre e ls)) (visibleFrom s' q' ls) := by
  induction ls generalizing s s' pre e q q' with
  | nil =>
      have hempty : ∀ k, visibleFrom s q (List.replicate k []) = [] := by
        intro k
        rw [← List.append_nil (List.replicate k []), visibleFrom_replicate_nil_append]
        rfl
      rw [sweep]
      split
      · rw [← List.replicate_one, hempty]
        exact List.Forall₂.nil
      · rw [hempty]
        exact List.Forall₂.nil
  | cons l r ih =>
      rw [sweep]
      split
      · next hl =>
          subst hl
          rw [visibleFrom_of_blank s' q' rfl]
          refine ih _ _ _ _ (fun hc => ?_) _ _
          obtain ⟨hc1, hc2, hc3⟩ := hclean hc
          exact ⟨by rw [feeds_succ]; exact hc1.2, by rw [hc2, behind_succ], hc3⟩
      · next hl =>
          have htrim := body_trimLine m (pre + feeds pre e) (following r).length l
          have hnil : body (trimLine m (pre + feeds pre e) (following r).length l) = []
              ↔ body l = [] := by
            rw [← trimEnd_body_eq_nil, htrim, trimEnd_body_eq_nil]
          -- of a clean text the scanner sees the same line in the same state
          have hstate : c → behind s (kept m pre e (l.length + (following r).length)) = s'
              ∧ trimLine m (pre + feeds pre e) (following r).length l = l := by
            intro hc
            obtain ⟨hc1, hc2, hc3⟩ := hclean hc
            exact ⟨(behind_kept m hc3 _ _).trans hc2.symm, hc1.1⟩
          have hpos : 0 < pre + feeds pre e + l.length := by
            have := List.length_pos_iff.mpr hl
            omega
          have hrest := ih ((behind s (kept m pre e (l.length + (following r).length))).readLine
              (trimLine m (pre + feeds pre e) (following r).length l)) (s'.readLine l)
            (pre + feeds pre e + l.length) 0 fun hc => by
              rw [feeds_of_pos hpos, (hstate hc).1, (hstate hc).2]
              exact ⟨(hclean hc).1.2, rfl, by omega⟩
          dsimp only
          rw [visibleFrom_replicate_nil_append]
          by_cases hb : body l = []
          · rw [visibleFrom_of_blank _ _ (hnil.mpr hb), visibleFrom_of_blank _ _ hb]
            exact hrest _ _
          · rw [visibleFrom_of_content _ _ (mt hnil.mp hb), visibleFrom_of_content _ _ hb]
            refine List.Forall₂.cons ⟨⟨margin_trimLine _ _ hb, htrim⟩, fun hc => ?_⟩ (hrest _ _)
            rw [(hstate hc).1, (hstate hc).2]
            rfl

/-- **Indenting keeps levels**, and the indentation of lines without one. -/
theorem sameLevel_reindent (s : Scan) (pre q q' : Nat) (ls : List Text) :
    List.Forall₂ SameLevel (visibleFrom s q (reindent settings m s pre ls))
      (visibleFrom s q' ls) := by
  induction ls generalizing s pre q q' with
  | nil => exact List.Forall₂.nil
  | cons l r ih =>
      have hbody : body (indentLine settings m s pre (following r).length l) = body l :=
        body_indentLine s pre _ l
      rw [reindent]
      by_cases hb : body l = []
      · rw [visibleFrom_of_blank _ _ (hbody.trans hb), visibleFrom_of_blank _ _ hb,
          readLine_indentLine]
        exact ih _ _ _ _
      · rw [visibleFrom_of_content _ _ (by rwa [hbody]), visibleFrom_of_content _ _ hb,
          readLine_indentLine]
        refine List.Forall₂.cons ⟨?_, ?_, fun hlevel => ?_⟩ (ih _ _ _ _)
        · exact congrArg (trimEnd isBlank) hbody
        · exact congrArg s.level hbody
        · -- no level, no edit
          have hnone : s.level (body l) = none := (congrArg s.level hbody).symm.trans hlevel
          have hsame : indentLine settings m s pre (following r).length l = l :=
            indentLine_eq_self.mpr fun n hn => by rw [hnone] at hn; cases hn
          exact congrArg margin hsame

/-! ## A call -/

theorem forall₂_trans {α : Type} {R S T : α → α → Prop} (h : ∀ a b c, R a b → S b c → T a c)
    {as bs cs : List α} (hab : List.Forall₂ R as bs) (hbc : List.Forall₂ S bs cs) :
    List.Forall₂ T as cs := by
  induction hab generalizing cs with
  | nil =>
      cases hbc
      exact List.Forall₂.nil
  | cons hr _ ih =>
      cases hbc with
      | cons hs hbc => exact List.Forall₂.cons (h _ _ _ hr hs) (ih hbc)

/-- What a call keeps of a line that is not blank: its content and, when it has no level in the
end, its indentation. -/
def Keeps (after before : Line) : Prop :=
  after.content = before.content ∧ (after.level = none → after.indent = before.indent)

/-- **Behind the first cleanup levels stay**: no line that is not blank gets another level, and none
without a level another indentation. -/
theorem sameLevel_final (settings : Settings) (p : Progress) :
    List.Forall₂ SameLevel (visible (p.final settings).text) (visible p.cleaned.text) := by
  have hclean := (Progress.clean_settled_round settings p).1
  have hlast : List.Forall₂ (fun a b => SameText a b ∧ (True → a.level = b.level))
      (visible (p.final settings).text) (visible (p.round settings).text) := by
    have hlines := Progress.lines_cleaned (p.round settings)
    unfold visible Line.ofSource
    rw [Progress.final, hlines]
    exact sameText_sweep True _ _ _ _ (fun _ => ⟨hclean, rfl, fun _ => rfl⟩) 0 0
  have hindent : List.Forall₂ SameLevel (visible (p.round settings).text)
      (visible p.cleaned.text) := by
    unfold visible Line.ofSource
    rw [Progress.lines_round]
    exact sameLevel_reindent .initial 0 0 0 _
  -- from the end backwards: the level at the end is the one under which the line was indented
  refine forall₂_trans ?_ hlast hindent
  rintro a b c ⟨⟨hindent, hcontent⟩, hlevel⟩ ⟨hcontent', hlevel', hkeep⟩
  have hlevel := hlevel trivial
  refine ⟨hcontent.trans hcontent', hlevel.trans hlevel', fun hnone => hindent.trans (hkeep ?_)⟩
  rwa [← hlevel]

/-- **The built-in rules keep the lines that are not blank.** -/
theorem keeps_final (settings : Settings) (p : Progress) :
    List.Forall₂ Keeps (visible (p.final settings).text) (visible p.text) := by
  have hfirst : List.Forall₂ (fun a b => SameText a b ∧ (False → a.level = b.level))
      (visible p.cleaned.text) (visible p.text) := by
    unfold visible Line.ofSource
    rw [Progress.lines_cleaned]
    exact sameText_sweep False _ _ _ _ False.elim 0 0
  refine forall₂_trans ?_ (sameLevel_final settings p) hfirst
  rintro a b c ⟨hcontent, -, hkeep⟩ ⟨⟨hindent, hcontent'⟩, -⟩
  exact ⟨hcontent.trans hcontent', fun hnone => (hkeep hnone).trans hindent⟩

theorem outline_final (settings : Settings) (p : Progress) :
    outline (p.final settings).text = outline p.text := by
  have hcontent := List.forall₂_map_left_iff.mpr
    (List.forall₂_map_right_iff.mpr ((keeps_final settings p).imp fun _ _ h => h.1))
  rw [List.forall₂_eq_eq_eq] at hcontent
  rw [outline_eq, outline_eq]
  exact hcontent

end CaplLayout.Layout

namespace CaplLayout.Engine

open Layout

/-- **Formatting changes layout only.** Under all settings and in every range the lines that are
not blank stay, with their content and in order, and those without a level keep their
indentation. -/
theorem formatWith_keeps {g : Grammar} {settings : Settings} {source : Text} {tree : Tree}
    (hparse : (standard g).parse settings source = .ok tree) :
    ∃ out, (standard g).formatWith settings source = .ok out
      ∧ outline out.text = outline source.unifyPairs
      ∧ List.Forall₂ (fun a b => a.content = b.content ∧ (a.level = none → a.indent = b.indent))
          (visible out.text) (visible source.unifyPairs) :=
  ⟨_, formatWith_eq hparse, outline_final settings _, keeps_final settings _⟩

/-- A block comment inside braces, formatted with tabs from the second character on. -/
theorem formatWith_keeps_comment :
    ∃ out, (standard fun _ => default).formatWith { useTabs := true, rangeStart := 1 }
        "on \x7b\r\n/* a \n   b */ \n\x7d".toList = .ok out
      ∧ outline out.text = outline (Text.unifyPairs "on \x7b\r\n/* a \n   b */ \n\x7d".toList)
      ∧ List.Forall₂ (fun a b => a.content = b.content ∧ (a.level = none → a.indent = b.indent))
          (visible out.text)
          (visible (Text.unifyPairs "on \x7b\r\n/* a \n   b */ \n\x7d".toList)) :=
  formatWith_keeps (parse_default _ _)

end CaplLayout.Engine
