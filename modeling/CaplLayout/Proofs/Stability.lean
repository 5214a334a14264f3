import CaplLayout.Proofs.Canonical
import CaplLayout.Proofs.Offsets
import CaplLayout.Proofs.Outline

/-!
# Formatting twice

Without a range a formatted text is formatted to the same text as its source if it has no pair of
a carriage return and a line feed (`canonical_canonical_of_unified`). The settings of the two
calls may differ: the indentation of the first one leaves no trace (`formatWith_formatWith`).

Pairs are unified before the first pass, but trimming can make new ones: of a carriage return,
blanks and a line feed, or of two carriage returns and a line feed. A second call unifies those
and so takes carriage returns from the text, which the rules never do (`count_final`). Whether
that happens can be read off the source: some line of it, once the pairs are unified, ends in a
carriage return apart from blanks (`format_format_iff`).
-/

set_option autoImplicit false

namespace CaplLayout.Text

/-! ## Carriage returns -/

theorem count_unifyPairs (s : Text) : (unifyPairs s).count '\r' + pairs s = s.count '\r' := by
  induction s with
  | nil => rfl
  | cons c r ih =>
      cases r with
      | nil => rfl
      | cons d r =>
          unfold unifyPairs pairs
          split
          · next h => rw [h.1, List.count_cons_self]; omega
          · simp only [List.count_cons] at *; omega

theorem unifyPairs_of_pairs_eq_zero {s : Text} (h : pairs s = 0) : unifyPairs s = s := by
  induction s with
  | nil => rfl
  | cons c r ih =>
      cases r with
      | nil => rfl
      | cons d r =>
          unfold pairs at h
          unfold unifyPairs
          split
          · next hc => rw [if_pos hc] at h; omega
          · rw [ih (by omega)]

/-- A line ends in a pair when its last character is a carriage return. -/
theorem pairs_line_append {l : Text} (h : '\n' ∉ l) (s : Text) :
    pairs (l ++ '\n' :: s) = (if l.getLast? = some '\r' then 1 else 0) + pairs s := by
  induction l with
  | nil =>
      cases s with
      | nil => rfl
      | cons c s => rfl
  | cons c l ih =>
      rw [List.mem_cons, not_or] at h
      cases l with
      | nil =>
          rw [List.nil_append] at ih
          rw [List.singleton_append, pairs, ih h.2]
          simp
      | cons d l =>
          have hd : d ≠ '\n' := fun hd => h.2 (by simp [hd])
          rw [List.cons_append, List.cons_append, pairs, if_neg fun hc => hd hc.2,
            ← List.cons_append, ih h.2, List.getLast?_cons_cons]
          omega

/-- There is no pair in a text whose last line is empty exactly when no line ends in a carriage
return. -/
theorem pairs_eq_zero {ls : List Text} (h : AreLines ls) :
    pairs (unlines (ls ++ [[]])) = 0 ↔ ∀ l ∈ ls, l.getLast? ≠ some '\r' := by
  induction ls with
  | nil => simp [unlines, pairs]
  | cons l r ih =>
      rw [areLines_cons] at h
      have hunlines : unlines (l :: (r ++ [[]])) = l ++ '\n' :: unlines (r ++ [[]]) := by
        rw [unlines_cons, following_of_ne_nil (by simp)]
      rw [List.cons_append, hunlines, pairs_line_append h.1, List.forall_mem_cons, ← ih h.2]
      split
      · next hl => exact ⟨fun hc => absurd hc (by omega), fun hc => absurd hl hc.1⟩
      · next hl => rw [Nat.zero_add]; exact ⟨fun hc => ⟨hl, hc⟩, fun hc => hc.2⟩

/-! ## Marks -/

theorem marks_unlines (ls : List Text) : marks (unlines ls) = marks ls.flatten := by
  have hfeed : ∀ s : Text, marks ('\n' :: s) = marks s :=
    fun s => List.filter_cons_of_neg (by simp [isMark])
  have hfollowing : ∀ ls : List Text, marks (following ls) = marks ls.flatten := by
    intro ls
    induction ls with
    | nil => rfl
    | cons l r ih =>
        rw [following_cons, hfeed, marks_append, ih, List.flatten_cons, marks_append]
  cases ls with
  | nil => rfl
  | cons l r => rw [unlines_cons, marks_append, hfollowing, List.flatten_cons, marks_append]

theorem marks_trim (l : Text) : marks (trim isBlank l) = marks l := by
  -- blanks are cut off at either side, and they are no marks
  obtain ⟨t, ht, hblank⟩ := trimEnd_append_exists isBlank (body l)
  have hmargin : marks (margin l) = [] := marks_of_blank fun c hc => List.mem_takeWhile_imp hc
  have htail : marks t = [] := marks_of_blank hblank
  calc marks (trim isBlank l)
      = marks (trimEnd isBlank (body l) ++ t) := by
        rw [marks_append, htail, List.append_nil]
        rfl
    _ = marks (margin l ++ body l) := by
        rw [← ht, marks_append, hmargin, List.nil_append]
    _ = marks l := by rw [margin_append_body]

end CaplLayout.Text

namespace CaplLayout.Layout

open Text

variable {settings : Settings}

/-- The outline of a text has all its marks. -/
theorem marks_outline (s : Text) : marks (outline s).flatten = marks s := by
  rw [← unlines_lines s, marks_unlines, unlines_lines, outline]
  induction s.lines with
  | nil => rfl
  | cons l r ih =>
      rw [List.filter_cons]
      split
      · rw [List.map_cons, List.flatten_cons, List.flatten_cons, marks_append, marks_append, ih,
          marks_trim]
      · next hl =>
          have hmarks : marks l = [] := marks_of_blank (by simpa using hl)
          rw [ih, List.flatten_cons, marks_append, hmarks, List.nil_append]

/-- **The rules move no other characters than blanks and line feeds.** -/
theorem marks_final (settings : Settings) (p : Progress) :
    marks (p.final settings).text = marks p.text := by
  calc marks (p.final settings).text
      = marks (outline (p.final settings).text).flatten := (marks_outline _).symm
    _ = marks (outline p.text).flatten := by rw [outline_final]
    _ = marks p.text := marks_outline _

theorem count_final {c : Char} (hc : isMark c = true) (settings : Settings) (p : Progress) :
    (p.final settings).text.count c = p.text.count c := by
  have hcount : ∀ s : Text, (marks s).count c = s.count c := fun s => List.count_filter hc
  rw [← hcount, marks_final, hcount]

/-- No line of a text ends in a carriage return, apart from blanks. -/
def NoReturnAtEnd (s : Text) : Prop :=
  ∀ l ∈ s.lines, (trimEnd isBlank l).getLast? ≠ some '\r'

instance (s : Text) : Decidable (NoReturnAtEnd s) :=
  inferInstanceAs (Decidable (∀ l ∈ s.lines, (trimEnd isBlank l).getLast? ≠ some '\r'))

theorem noReturnAtEnd_iff_outline (s : Text) :
    NoReturnAtEnd s ↔ ∀ l ∈ outline s, l.getLast? ≠ some '\r' := by
  have hlast : ∀ l : Text, body l ≠ [] →
      (trimEnd isBlank l).getLast? = (trim isBlank l).getLast? := by
    intro l hb
    have hne : trimEnd isBlank (body l) ≠ [] := mt trimEnd_body_eq_nil.mp hb
    rw [trimEnd_of_body_ne_nil hb, List.getLast?_append_of_ne_nil _ hne]
    rfl
  rw [outline, List.forall_mem_map]
  constructor
  · intro h l hl
    obtain ⟨hmem, hl⟩ := List.mem_filter.mp hl
    rw [← hlast l (mt all_isBlank.mpr (by simpa using hl))]
    exact h l hmem
  · intro h l hmem
    by_cases hb : body l = []
    · rw [trimEnd_of_body_eq_nil hb]
      simp
    · rw [hlast l hb]
      exact h l (List.mem_filter.mpr ⟨hmem, by simpa using mt all_isBlank.mp hb⟩)

/-- **There are pairs in a formatted text when a line of the source ends in a carriage return.** -/
theorem pairs_final_eq_zero (settings : Settings) {p : Progress} (h : p.Whole) :
    pairs (p.final settings).text = 0 ↔ NoReturnAtEnd p.text := by
  have hlines := h.lines_final settings
  have hlines' := areLines_lines (p.final settings).text
  have htrimmed : Trimmed (p.final settings).text.lines := by
    rw [hlines]
    exact (trimmed_emitFrom _ (trimmed_blocks p.text)).append_nil
  rw [hlines] at hlines' htrimmed
  have hpairs := pairs_eq_zero (areLines_append.mp hlines').1
  rw [← hlines, unlines_lines] at hpairs
  rw [hpairs, noReturnAtEnd_iff_outline, ← outline_final settings p, ← noReturnAtEnd_iff_outline,
    NoReturnAtEnd, hlines]
  constructor
  · intro hall l hl
    rw [htrimmed l hl]
    rcases List.mem_append.mp hl with hl | hl
    · exact hall l hl
    · rw [List.mem_singleton.mp hl]
      simp
  · intro hall l hl
    have := hall l (List.mem_append_left _ hl)
    rwa [htrimmed l (List.mem_append_left _ hl)] at this

/-- **Of two settings the last ones decide**, if the text formatted under the first has no pairs. -/
theorem canonical_canonical_of_unified {settings' : Settings} {source : Text}
    (h : (canonical settings source).unifyPairs = canonical settings source) :
    canonical settings' (canonical settings source) = canonical settings' source := by
  apply Progress.text_eq_of_lines_eq
  rw [lines_canonical, lines_canonical, h, blocks_canonical, emitFrom_emitFrom _ (trimmed_blocks _)]

/-- A text without carriage returns is formatted to one that has none either. -/
theorem unifyPairs_canonical_of_not_mem {source : Text} (hreturn : '\r' ∉ source)
    (hstart : settings.rangeStart = 0) (hend : settings.rangeEnd = none) :
    (canonical settings source).unifyPairs = canonical settings source := by
  have hcount := count_final (c := '\r') rfl settings
    (Progress.start settings source)
  have hsource := count_unifyPairs source
  have hunify := count_unifyPairs (canonical settings source)
  have hnone : source.count '\r' = 0 := List.count_eq_zero.mpr hreturn
  rw [Progress.text_final_start source hstart hend] at hcount
  change _ = source.unifyPairs.count '\r' at hcount
  exact unifyPairs_of_pairs_eq_zero (by omega)

/-- **A canonical text is its own canonical text** unless a line of the source ends in a carriage
return. -/
theorem canonical_canonical_iff (source : Text) (hstart : settings.rangeStart = 0)
    (hend : settings.rangeEnd = none) :
    canonical settings (canonical settings source) = canonical settings source
      ↔ NoReturnAtEnd source.unifyPairs := by
  have hpairs := pairs_final_eq_zero settings (Progress.whole_start source hstart hend)
  rw [Progress.text_final_start source hstart hend] at hpairs
  refine Iff.trans ⟨fun h => ?_, fun h => ?_⟩ hpairs
  · -- the second call keeps the carriage returns that are left behind the unification of pairs
    have hcount := count_final (c := '\r') rfl settings
      (Progress.start settings (canonical settings source))
    have hunify := count_unifyPairs (canonical settings source)
    rw [Progress.text_final_start _ hstart hend, h] at hcount
    change _ = (canonical settings source).unifyPairs.count '\r' at hcount
    omega
  · exact canonical_canonical_of_unified (unifyPairs_of_pairs_eq_zero h)

end CaplLayout.Layout

namespace CaplLayout.Engine

open Layout Progress

variable {g : Grammar} {options : Options} {settings : Settings} {source : Text} {tree : Tree}

theorem format_eq (hresolve : resolve options = .ok settings)
    (hparse : (standard g).parse settings source = .ok tree) :
    (standard g).format options source
      = .ok ⟨((start settings source).final settings).text,
          ((start settings source).final settings).cursor⟩ := by
  rw [format, hresolve]
  exact formatWith_eq hparse

/-- A call without a range makes the canonical text, in a language that has nothing more to say. -/
theorem exists_format_default (hresolve : resolve options = .ok settings)
    (hstart : settings.rangeStart = 0) (hend : settings.rangeEnd = none) {text : Text}
    (htext : canonical settings source = text) :
    ∃ cursor, (standard fun _ => default).format options source = .ok ⟨text, cursor⟩ := by
  rw [format_eq hresolve (parse_default settings source), text_final_start source hstart hend, htext]
  exact ⟨_, rfl⟩

theorem isFormatted_eq (hresolve : resolve options = .ok settings)
    (hparse : (standard g).parse settings source = .ok tree) :
    (standard g).isFormatted options source
      = .ok (decide (((start settings source).final settings).text = source)) := by
  rw [isFormatted, format_eq hresolve hparse]
  rfl

/-- **Formatting twice without a range** makes the same text as formatting once exactly when no
line of the source, once the pairs in it are unified, ends in a carriage return apart from
blanks, and only then does the formatted text count as formatted. -/
theorem format_format_iff (hresolve : resolve options = .ok settings)
    (hstart : settings.rangeStart = 0) (hend : settings.rangeEnd = none)
    (hparse : (standard g).parse settings source = .ok tree) :
    ∃ out, (standard g).format options source = .ok out
      ∧ ∀ tree', (standard g).parse settings out.text = .ok tree' →
        ∃ again, (standard g).format options out.text = .ok again
          ∧ (again.text = out.text ↔ NoReturnAtEnd source.unifyPairs)
          ∧ (standard g).isFormatted options out.text
              = .ok (decide (NoReturnAtEnd source.unifyPairs)) := by
  have htext := text_final_start source hstart hend
  have hagain := text_final_start (canonical settings source) hstart hend
  have hiff := canonical_canonical_iff source hstart hend
  refine ⟨_, format_eq hresolve hparse, fun tree' hparse' => ⟨_, format_eq hresolve hparse', ?_⟩⟩
  dsimp only at hparse' ⊢
  rw [isFormatted_eq hresolve hparse', htext, hagain]
  exact ⟨hiff, congrArg Except.ok (decide_eq_decide.mpr hiff)⟩

theorem resolve_nil : resolve [] = .ok {} := rfl

/-- A return in the middle of a line and a pair at its end do no harm. -/
theorem format_format_pair :
    ∃ out, (standard fun _ => default).format [] "a\rb \r\n".toList = .ok out
      ∧ ∃ again, (standard fun _ => default).format [] out.text = .ok again
        ∧ again.text = out.text := by
  obtain ⟨out, hout, hagain⟩ := format_format_iff resolve_nil rfl rfl
    (parse_default {} "a\rb \r\n".toList)
  obtain ⟨again, hformat, hiff, -⟩ := hagain default (parse_default _ _)
  exact ⟨out, hout, again, hformat, hiff.mpr (by decide)⟩

/-- **Formatting is not idempotent**: the text that comes of two returns in front of a line feed
is not formatted. -/
theorem exists_format_format_ne :
    ∃ out again, (standard fun _ => default).format [] "a\r\r\n".toList = .ok out
      ∧ (standard fun _ => default).format [] out.text = .ok again
      ∧ again.text ≠ out.text
      ∧ (standard fun _ => default).isFormatted [] out.text = .ok false := by
  have hfirst : ((start {} "a\r\r\n".toList).final {}).text = "a\r\n".toList :=
    (text_final_start _ rfl rfl).trans (by decide)
  have hsecond : ((start {} "a\r\n".toList).final {}).text = "a\n".toList :=
    (text_final_start _ rfl rfl).trans (by decide)
  have hformat := format_eq resolve_nil (parse_default {} "a\r\r\n".toList)
  have hagain := format_eq resolve_nil (parse_default {} "a\r\n".toList)
  have hcheck := isFormatted_eq resolve_nil (parse_default {} "a\r\n".toList)
  rw [hfirst] at hformat
  rw [hsecond] at hagain hcheck
  exact ⟨_, _, hformat, hagain, by decide, hcheck.trans rfl⟩

/-! ## Under other settings -/

/-- **The layout of a source leaves no trace.** Without carriage returns and without a range,
formatting under some settings and then under others makes what the others alone make of the
source. -/
theorem formatWith_formatWith {settings' : Settings} {tree' : Tree} (hreturn : '\r' ∉ source)
    (hstart : settings.rangeStart = 0) (hend : settings.rangeEnd = none)
    (hstart' : settings'.rangeStart = 0) (hend' : settings'.rangeEnd = none)
    (hparse : (standard g).parse settings source = .ok tree)
    (hparse' : (standard g).parse settings' source = .ok tree') :
    ∃ first direct, (standard g).formatWith settings source = .ok first
      ∧ (standard g).formatWith settings' source = .ok direct
      ∧ ∀ tree'', (standard g).parse settings' first.text = .ok tree'' →
        ∃ second, (standard g).formatWith settings' first.text = .ok second
          ∧ second.text = direct.text := by
  refine ⟨_, _, formatWith_eq hparse, formatWith_eq hparse', fun tree'' hparse'' =>
    ⟨_, formatWith_eq hparse'', ?_⟩⟩
  dsimp only
  rw [text_final_start _ hstart' hend', text_final_start _ hstart' hend',
    text_final_start _ hstart hend]
  exact canonical_canonical_of_unified (unifyPairs_canonical_of_not_mem hreturn hstart hend)

/-- Tabs first and then four blanks, for a text with a directive, a comment over two lines, a
string that a backslash continues, and more closing braces than opening ones. -/
theorem formatWith_formatWith_tabs :
    ∃ source first second,
      source = "#if \x7b\n /* a\n  b */ \x7b\n\n\n s = \"\\ \n \\\n t\";\n\x7d \x7d\n\x7d".toList
      ∧ (standard fun _ => default).formatWith { useTabs := true } source = .ok first
      ∧ (standard fun _ => default).formatWith { indentSize := 4 } first.text = .ok second
      ∧ ((standard fun _ => default).formatWith { indentSize := 4 } source).map Formatted.text
          = .ok second.text := by
  let source := "#if \x7b\n /* a\n  b */ \x7b\n\n\n s = \"\\ \n \\\n t\";\n\x7d \x7d\n\x7d".toList
  have hreturn : '\r' ∉ source := by decide
  obtain ⟨first, direct, hfirst, hdirect, hsecond⟩ := formatWith_formatWith hreturn rfl rfl rfl rfl
    (parse_default { useTabs := true } source) (parse_default { indentSize := 4 } source)
  obtain ⟨second, hformat, htext⟩ := hsecond default (parse_default _ _)
  refine ⟨_, first, second, rfl, hfirst, hformat, ?_⟩
  rw [hdirect, htext]
  rfl

end CaplLayout.Engine
