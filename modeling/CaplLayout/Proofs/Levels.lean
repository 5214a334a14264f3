import CaplLayout.Proofs.Literals
import CaplLayout.Proofs.Outline

/-!
# Levels

Under what conditions a call without a range keeps the levels of the lines that are not blank
(`formatWith_levels`). Indenting never changes a level, and neither does the cleanup of lines
without blanks at their ends, so all depends on the first cleanup, which trims the lines
(`levels_trimEnd_iff`).

The scanner looks at the last character of a line only to see whether a string goes on. Where
blanks stand behind a backslash the string ends with the line; trimming brings the backslash to the
end of the line, and the string goes on. A blank line behind it ends the string all the same. Any
other line loses its level, and so this is the only way in which one changes.
-/

set_option autoImplicit false

namespace CaplLayout

open Text

/-! ## Blanks at the end of a line -/

namespace Scan

/-- The line ends inside a string, in blanks behind a backslash. -/
def BlankBehindBackslash (s : Scan) (l : Text) : Prop :=
  (s.atLineEnd l).lex = .string ∧ trimEnd isBlank l ≠ l ∧ (trimEnd isBlank l).getLast? = some '\\'

instance (s : Scan) (l : Text) : Decidable (s.BlankBehindBackslash l) :=
  inferInstanceAs (Decidable (_ ∧ _ ∧ _))

/-- A line that is not trimmed is read like the trimmed one with a blank behind it, and a blank is
not a backslash. -/
theorem atLineEnd_of_trimEnd_ne {s : Scan} {l : Text} (h : trimEnd isBlank l ≠ l) :
    s.atLineEnd l = ⟨(s.atLineEnd (trimEnd isBlank l)).lex.behindBlank,
        (s.atLineEnd (trimEnd isBlank l)).depth⟩
      ∧ l.getLast? ≠ some '\\' := by
  obtain ⟨t, ht, hblank⟩ := trimEnd_append_exists isBlank l
  have hne : t ≠ [] := by
    intro hnil
    rw [hnil, List.append_nil] at ht
    exact h ht.symm
  constructor
  · rw [← foldl_read_blank (s.isDirective (body l)) _ hne hblank, atLineEnd, atLineEnd,
      Reading.isDirective_trimEnd, ← List.foldl_append, ← ht]
  · intro hlast
    rw [ht, List.getLast?_append_of_ne_nil _ hne] at hlast
    exact absurd (hblank _ (List.mem_of_getLast? hlast)) (by decide)

/-- **Behind a trimmed line** the scanner is where it is behind the line itself, unless a string
goes on that had ended. -/
theorem readLine_trimEnd (s : Scan) (l : Text) :
    s.readLine (trimEnd isBlank l)
      = if s.BlankBehindBackslash l then ⟨.string, (s.readLine l).depth⟩ else s.readLine l := by
  by_cases hself : trimEnd isBlank l = l
  · rw [hself, if_neg fun h => h.2.1 hself]
  · obtain ⟨hread, hlast⟩ := atLineEnd_of_trimEnd_ne (s := s) hself
    have hcond : s.BlankBehindBackslash l ↔
        (s.atLineEnd (trimEnd isBlank l)).lex.behindBlank = .string
          ∧ (trimEnd isBlank l).getLast? = some '\\' := by
      rw [BlankBehindBackslash, hread]
      exact and_congr_right fun _ => and_iff_right hself
    rw [readLine_eq, readLine_eq, hread]
    simp only [hcond]
    -- the end of the line, in each of the states that the trimmed line may end in
    generalize s.atLineEnd (trimEnd isBlank l) = u
    obtain ⟨lex, depth⟩ := u
    cases lex with
    | code | slash | lineComment | blockComment | star | char | charEscape => rfl
    | string | stringEscape => simp [endLine, Lex.behindBlank, hlast]

theorem lex_readLine_of_blankBehindBackslash {s : Scan} {l : Text} (h : s.BlankBehindBackslash l) :
    (s.readLine l).lex = .code := by
  obtain ⟨-, hlast⟩ := atLineEnd_of_trimEnd_ne (s := s) h.2.1
  rw [readLine_eq, endLine, h.1]
  exact congrArg lex (if_neg hlast)

/-- Only the first character behind the indentation matters for a level. -/
theorem level_trimEnd (s : Scan) (l : Text) :
    s.level (body (trimEnd isBlank l)) = s.level (body l) := by
  rw [body_trimEnd, level, level, head?_trimEnd_body]

/-- Lines of code have a level, and no others. -/
theorem level_eq_none {s : Scan} {b : Text} : s.level b = none ↔ s.lex ≠ .code := by
  unfold level
  split
  · next h => exact iff_of_true rfl h
  · next h =>
      refine iff_of_false ?_ h
      split
      · simp
      · split <;> simp

end Scan

namespace Layout

/-! ## The levels of the lines that are not blank -/

/-- The levels of those lines that are not blank, when the first line starts in scanner state
`s`. -/
def levels : Scan → List Text → List (Option Nat)
  | _, [] => []
  | s, l :: r =>
    if body l = [] then levels (s.readLine l) r else s.level (body l) :: levels (s.readLine l) r

theorem map_level_visibleFrom (s : Scan) (pre : Nat) (ls : List Text) :
    (visibleFrom s pre ls).map Line.level = levels s ls := by
  induction ls generalizing s pre with
  | nil => rfl
  | cons l r ih =>
      rw [levels]
      split
      · next hb => rw [visibleFrom_of_blank s pre hb, ih]
      · next hb =>
          rw [visibleFrom_of_content s pre hb, List.map_cons, ih]
          rfl

theorem map_level_visible (source : Text) :
    (visible source).map Line.level = levels .initial source.lines :=
  map_level_visibleFrom .initial 0 source.lines

theorem levels_nil_cons (s : Scan) (r : List Text) :
    levels s ([] :: r) = levels (s.readLine []) r := if_pos rfl

theorem levels_append_nil (s : Scan) (ls : List Text) : levels s (ls ++ [[]]) = levels s ls := by
  induction ls generalizing s with
  | nil => rfl
  | cons l r ih => rw [List.cons_append, levels, levels, ih]

/-- Empty lines do not count, and of a run of them the scanner notices one. -/
theorem levels_put (s : Scan) (l : Text) (ls : List Text) :
    levels s (put l ls) = levels s (l :: ls) := by
  unfold put
  split
  · next h =>
      obtain ⟨rfl, rfl | hhead⟩ := h
      · rfl
      · obtain ⟨t, rfl⟩ : ∃ t, ls = [] :: t := by
          cases ls with
          | nil => cases hhead
          | cons a t => cases hhead; exact ⟨t, rfl⟩
        rw [levels_nil_cons, levels_nil_cons, levels_nil_cons, readLine_nil_nil]
  · rfl

theorem levels_tidy (s : Scan) (ls : List Text) : levels s (tidy ls) = levels s ls := by
  induction ls generalizing s with
  | nil => rfl
  | cons l r ih => rw [tidy_cons, levels_put, levels, levels, ih]

/-- Empty lines in front do not count where the scanner does not notice them. -/
theorem levels_dropWhile {s : Scan} (hs : s.readLine [] = s) (ls : List Text) :
    levels s (ls.dropWhile List.isEmpty) = levels s ls := by
  induction ls with
  | nil => rfl
  | cons l r ih =>
      cases l with
      | nil =>
          rw [levels_nil_cons, hs, ← ih]
          rfl
      | cons c l => rfl

theorem levels_compact {s : Scan} (hs : s.readLine [] = s) (ls : List Text) :
    levels s (compact ls) = levels s ls := by
  rw [compact, levels_dropWhile hs, levels_tidy]

/-- **The cleanup of a whole text** has the effect on levels that trimming the lines has. -/
theorem levels_sweep_zero (ls : List Text) :
    levels .initial (Whitespace.sweep Margins.zero 0 0 ls)
      = levels .initial (ls.map (trimEnd isBlank)) := by
  have hs : Scan.initial.readLine [] = Scan.initial := rfl
  calc levels .initial (Whitespace.sweep Margins.zero 0 0 ls)
      = levels .initial ((compact ls).map (trimEnd isBlank)) := by
        rw [sweep_zero, levels_append_nil]
    _ = levels .initial (compact ((compact ls).map (trimEnd isBlank))) :=
        (levels_compact hs _).symm
    _ = levels .initial (compact (ls.map (trimEnd isBlank))) := by
        rw [compact_map_compact rfl]
    _ = levels .initial (ls.map (trimEnd isBlank)) := levels_compact hs _

/-! ## Trimming -/

/-- In front of a line that is not blank no line of a string ends in blanks behind a backslash, when
the first line starts in scanner state `s`. -/
def KeepsLevels : (s : Scan) → List Text → Prop
  | _, [] => True
  | s, l :: r =>
    (s.BlankBehindBackslash l → ∀ m ∈ r.head?, body m = []) ∧ KeepsLevels (s.readLine l) r

instance : (s : Scan) → (ls : List Text) → Decidable (KeepsLevels s ls)
  | _, [] => inferInstanceAs (Decidable True)
  | s, l :: r =>
    have : Decidable (KeepsLevels (s.readLine l) r) :=
      instDecidableKeepsLevels (s.readLine l) r
    inferInstanceAs (Decidable (_ ∧ _))

/-- A string that goes on over a line makes the difference when that line is not blank. -/
theorem levels_string_eq_iff (depth : Nat) (ls : List Text) :
    levels ⟨.string, depth⟩ (ls.map (trimEnd isBlank)) = levels ⟨.code, depth⟩ ls
      ↔ (∀ m ∈ ls.head?, body m = [])
        ∧ levels ⟨.code, depth⟩ (ls.map (trimEnd isBlank)) = levels ⟨.code, depth⟩ ls := by
  cases ls with
  | nil => simp [levels]
  | cons m r =>
      rw [List.head?_cons, List.map_cons]
      by_cases hb : body m = []
      · -- a blank line ends the string
        have htrim : trimEnd isBlank m = [] := trimEnd_of_body_eq_nil hb
        have hsame : levels ⟨.string, depth⟩ ([] :: r.map (trimEnd isBlank))
            = levels ⟨.code, depth⟩ ([] :: r.map (trimEnd isBlank)) := rfl
        have hhead : ∀ m' ∈ some m, body m' = [] := by
          intro m' hm'
          rw [← Option.some.inj hm']
          exact hb
        rw [htrim, hsame]
        exact (and_iff_right hhead).symm
      · -- inside the string the line has no level, in code it has one
        have htrim : body (trimEnd isBlank m) ≠ [] := by
          rw [body_trimEnd]
          exact mt trimEnd_body_eq_nil.mp hb
        constructor
        · intro heq
          rw [levels, levels, if_neg htrim, if_neg hb] at heq
          have hlevel := List.head_eq_of_cons_eq heq
          have hnone : Scan.level ⟨.string, depth⟩ (body (trimEnd isBlank m)) = none :=
            Scan.level_eq_none.mpr (nofun : Lex.string ≠ .code)
          rw [hnone] at hlevel
          exact absurd rfl (Scan.level_eq_none.mp hlevel.symm)
        · rintro ⟨hhead, -⟩
          exact absurd (hhead m rfl) hb

/-- **Trimming the lines keeps their levels** exactly when no string goes on over a line that is not
blank. -/
theorem levels_trimEnd_iff (s : Scan) (ls : List Text) :
    levels s (ls.map (trimEnd isBlank)) = levels s ls ↔ KeepsLevels s ls := by
  induction ls generalizing s with
  | nil => exact iff_of_true rfl trivial
  | cons l r ih =>
      have hbody : body (trimEnd isBlank l) = [] ↔ body l = [] := by
        rw [body_trimEnd, trimEnd_body_eq_nil]
      -- the line itself keeps its level in any case
      have hrest : levels s ((l :: r).map (trimEnd isBlank)) = levels s (l :: r)
          ↔ levels (s.readLine (trimEnd isBlank l)) (r.map (trimEnd isBlank))
            = levels (s.readLine l) r := by
        rw [List.map_cons, levels, levels, Scan.level_trimEnd]
        by_cases hb : body l = []
        · rw [if_pos (hbody.mpr hb), if_pos hb]
        · rw [if_neg (mt hbody.mp hb), if_neg hb]
          simp
      rw [hrest, Scan.readLine_trimEnd, KeepsLevels]
      by_cases hbreak : s.BlankBehindBackslash l
      · have hcode : s.readLine l = ⟨.code, (s.readLine l).depth⟩ := by
          rw [← Scan.lex_readLine_of_blankBehindBackslash hbreak]
        rw [if_pos hbreak, ← ih, forall_prop_of_true hbreak]
        rw [hcode]
        exact levels_string_eq_iff _ r
      · rw [if_neg hbreak, ih]
        exact (and_iff_right fun h => absurd h hbreak).symm

/-! ## A call -/

/-- The levels in the end are those of the trimmed lines. -/
theorem map_level_visible_final (settings : Settings) {p : Progress} (h : p.Whole) :
    (visible (p.final settings).text).map Line.level
      = levels .initial (p.text.lines.map (trimEnd isBlank)) := by
  have hlevel : List.Forall₂ (fun a b => a = b)
      ((visible (p.final settings).text).map Line.level)
      ((visible p.cleaned.text).map Line.level) := by
    rw [List.forall₂_map_left_iff, List.forall₂_map_right_iff]
    exact (sameLevel_final settings p).imp fun _ _ hsame => hsame.2.1
  rw [List.forall₂_eq_eq_eq] at hlevel
  rw [hlevel, map_level_visible, Progress.lines_cleaned, h.margins_eq, levels_sweep_zero]

end Layout

namespace Engine

open Layout Progress

variable {g : Grammar} {settings : Settings} {source : Text} {tree : Tree}

/-- **When a call without a range keeps the levels** of the lines that are not blank: exactly when
in front of such a line no line of a string ends in blanks behind a backslash. -/
theorem formatWith_levels (hparse : (standard g).parse settings source = .ok tree)
    (hstart : settings.rangeStart = 0) (hend : settings.rangeEnd = none) :
    ∃ out, (standard g).formatWith settings source = .ok out
      ∧ ((visible out.text).map Line.level = (visible source.unifyPairs).map Line.level
          ↔ KeepsLevels .initial source.unifyPairs.lines) := by
  refine ⟨_, formatWith_eq hparse, ?_⟩
  rw [map_level_visible_final settings (whole_start source hstart hend), map_level_visible]
  exact levels_trimEnd_iff .initial source.unifyPairs.lines

/-- Blanks behind a backslash in front of an empty line, inside a block. -/
theorem formatWith_levels_blank :
    ∃ out, (standard fun _ => default).formatWith {} "f \x7b\ns = \"a\\ \n\n b;\n\x7d".toList
        = .ok out
      ∧ (visible out.text).map Line.level
        = (visible (unifyPairs "f \x7b\ns = \"a\\ \n\n b;\n\x7d".toList)).map Line.level := by
  obtain ⟨out, hout, hiff⟩ := formatWith_levels
    (parse_default {} "f \x7b\ns = \"a\\ \n\n b;\n\x7d".toList) rfl rfl
  exact ⟨out, hout, hiff.mpr (by decide)⟩

/-- **A line that becomes part of a string**: the blank behind the backslash is trimmed, and the
line of code behind it loses its level. -/
theorem exists_formatWith_levels_ne :
    ∃ out, (standard fun _ => default).formatWith {} "\"a\\ \nb\n".toList = .ok out
      ∧ (visible (unifyPairs "\"a\\ \nb\n".toList)).map Line.level = [some 0, some 0]
      ∧ (visible out.text).map Line.level = [some 0, none] := by
  refine ⟨_, formatWith_eq (parse_default _ _), by decide, ?_⟩
  rw [text_final_start _ rfl rfl]
  decide

end Engine

end CaplLayout
