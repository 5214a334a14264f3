import CaplLayout.Proofs.Blocks
import CaplLayout.Proofs.Passes

/-!
# The canonical text

`canonical` says in one pass over the lines what a call without a range makes of a source:
trim the lines, compact the empty ones, and indent each line to the level that the scanner gives
it there. `formatWith_eq_canonical` shows that the engine's passes end at this text.

Without a range nothing depends on where a line stands. The cleanup compacts the lines and trims
what is left (`sweep_zero`); indenting trimmed lines commutes with compacting them
(`compact_emitFrom`), because an empty line takes the scanner nowhere that one empty line has
not taken it already.
-/

set_option autoImplicit false

namespace CaplLayout.Layout

open Text Margins Whitespace Indentation

variable {settings : Settings}

/-! ## The definition -/

/-- The lines of a text, trimmed, without empty ones at either end and without two empty ones in a
row. -/
def blocks (s : Text) : List Text := squeeze (strip (s.lines.map (trimEnd isBlank)))

/-- A line under a level: an empty line and a line without a level as they are, any other one
behind the level's indentation. -/
def emit (settings : Settings) (l : Text) (level : Option Nat) : Text :=
  if l = [] then []
  else
    match level with
    | none => l
    | some n => settings.indentOf n ++ body l

/-- Some lines under the levels that the scanner gives them in their text. -/
def emitLines (settings : Settings) (ls : List Text) : List Text :=
  List.zipWith (emit settings) ls ((Line.ofSource (unlines ls)).map Line.level)

/-- The text that a source is formatted to: its blocks under their levels, with a line feed at the
end, or no text if there are none. -/
def canonical (settings : Settings) (source : Text) : Text :=
  let ls := blocks source.unifyPairs
  if ls = [] then [] else unlines (emitLines settings ls) ++ ['\n']

/-! ## Trimmed lines -/

/-- Lines without blanks at their ends. -/
def Trimmed (ls : List Text) : Prop := ∀ l ∈ ls, trimEnd isBlank l = l

theorem trimmed_cons {l : Text} {r : List Text} :
    Trimmed (l :: r) ↔ trimEnd isBlank l = l ∧ Trimmed r :=
  List.forall_mem_cons

theorem trimmed_map (ls : List Text) : Trimmed (ls.map (trimEnd isBlank)) := by
  intro l hl
  obtain ⟨k, -, rfl⟩ := List.mem_map.mp hl
  exact trimEnd_trimEnd isBlank k

theorem Trimmed.map_eq {ls : List Text} (h : Trimmed ls) : ls.map (trimEnd isBlank) = ls :=
  (List.map_congr_left h).trans (List.map_id' ls)

theorem Trimmed.compact {ls : List Text} (h : Trimmed ls) : Trimmed (compact ls) :=
  fun l hl => h l (mem_of_mem_compact hl)

theorem Trimmed.append_nil {ls : List Text} (h : Trimmed ls) : Trimmed (ls ++ [[]]) := by
  intro l hl
  rcases List.mem_append.mp hl with hl | hl
  · exact h l hl
  · rw [List.mem_singleton.mp hl]
    rfl

theorem body_ne_nil {l : Text} (h : trimEnd isBlank l = l) (hne : l ≠ []) : body l ≠ [] := by
  intro hb
  rw [← h, trimEnd_of_body_eq_nil hb] at hne
  exact hne rfl

theorem trimmed_blocks (s : Text) : Trimmed (blocks s) := by
  rw [blocks, squeeze_strip]
  exact (trimmed_map _).compact

theorem areLines_blocks (s : Text) : AreLines (blocks s) := by
  rw [blocks, squeeze_strip]
  intro l hl hfeed
  obtain ⟨k, hk, rfl⟩ := List.mem_map.mp (mem_of_mem_compact hl)
  exact areLines_lines s k hk ((prefix_trimEnd isBlank k).subset hfeed)

/-! ## The rules without a range -/

theorem trimLine_zero (pre suf : Nat) (l : Text) :
    trimLine Margins.zero pre suf l = trimEnd isBlank l :=
  if_pos (admit_zero _ _)

theorem kept_zero (pre e suf : Nat) :
    kept Margins.zero pre e suf = if pre = 0 then 0 else min e 1 :=
  if_pos (admit_zero _ _)

theorem sweep_zero_of_pos {pre : Nat} (h : 0 < pre) (e : Nat) (ls : List Text) :
    sweep Margins.zero pre e ls
      = (tidy (List.replicate e [] ++ ls)).map (trimEnd isBlank) ++ [[]] := by
  induction ls generalizing pre e with
  | nil => rw [sweep, if_pos (admit_zero _ _), List.append_nil, tidy_replicate_nil]; rfl
  | cons l r ih =>
      rw [sweep]
      split
      · next hl =>
          rw [ih h, hl, List.replicate_succ', List.append_assoc, List.singleton_append]
      · next hl =>
          dsimp only
          rw [kept_zero, if_neg (Nat.ne_of_gt h), trimLine_zero, ih (by omega), List.replicate_zero,
            List.nil_append, tidy_replicate_nil_append e hl, List.map_append, List.map_replicate,
            List.map_cons, trimEnd_nil, List.append_assoc, List.cons_append]

/-- **The cleanup of a whole text** compacts its lines and trims what is left. -/
theorem sweep_zero (e : Nat) (ls : List Text) :
    sweep Margins.zero 0 e ls = (compact ls).map (trimEnd isBlank) ++ [[]] := by
  induction ls generalizing e with
  | nil => rw [sweep, if_pos (admit_zero _ _)]; rfl
  | cons l r ih =>
      rw [sweep]
      split
      · next hl => rw [ih, hl, compact_nil_cons]
      · next hl =>
          have hpos := List.length_pos_iff.mpr hl
          dsimp only
          rw [kept_zero, if_pos rfl, trimLine_zero, sweep_zero_of_pos (by omega), compact_cons hl,
            List.replicate_zero, List.nil_append, List.nil_append, List.map_cons, List.cons_append]

/-- Lines under the levels they have when the first one starts in scanner state `s`. -/
def emitFrom (settings : Settings) : Scan → List Text → List Text
  | _, [] => []
  | s, l :: r => emit settings l (s.level (body l)) :: emitFrom settings (s.readLine l) r

theorem emit_nil (settings : Settings) (level : Option Nat) : emit settings [] level = [] := rfl

theorem indentLine_zero (s : Scan) (pre suf : Nat) {l : Text} (h : trimEnd isBlank l = l) :
    indentLine settings Margins.zero s pre suf l = emit settings l (s.level (body l)) := by
  unfold indentLine emit
  by_cases hl : l = []
  · subst hl
    rw [if_pos rfl]
    cases s.level (body []) with
    | none => rfl
    | some n => exact if_neg fun hc => hc.1 rfl
  · rw [if_neg hl]
    cases s.level (body l) with
    | none => rfl
    | some n => exact if_pos ⟨body_ne_nil h hl, admit_zero _ _⟩

/-- **Indenting a whole text** puts each line under its level. -/
theorem reindent_zero (s : Scan) (pre : Nat) {ls : List Text} (h : Trimmed ls) :
    reindent settings Margins.zero s pre ls = emitFrom settings s ls := by
  induction ls generalizing s pre with
  | nil => rfl
  | cons l r ih =>
      rw [trimmed_cons] at h
      rw [reindent, emitFrom, indentLine_zero _ _ _ h.1, ih _ _ h.2]

theorem trimmed_emitFrom (s : Scan) {ls : List Text} (h : Trimmed ls) :
    Trimmed (emitFrom settings s ls) := by
  induction ls generalizing s with
  | nil => exact h
  | cons l r ih =>
      rw [trimmed_cons] at h
      have hline : trimEnd isBlank (indentLine settings Margins.zero s 0 0 l)
          = indentLine settings Margins.zero s 0 0 l :=
        trimEnd_indentLine s 0 0 h.1
      rw [indentLine_zero _ _ _ h.1] at hline
      exact trimmed_cons.mpr ⟨hline, ih _ h.2⟩

theorem emit_ne_nil (settings : Settings) {l : Text} (h : trimEnd isBlank l = l) (hne : l ≠ [])
    (level : Option Nat) : emit settings l level ≠ [] := by
  unfold emit
  rw [if_neg hne]
  cases level with
  | none => exact hne
  | some n => exact fun hc => body_ne_nil h hne (List.append_eq_nil_iff.mp hc).2

/-- Indenting commutes with dropping empty lines: the first one of a run stays. -/
theorem tidy_emitFrom (s : Scan) {ls : List Text} (h : Trimmed ls) :
    tidy (emitFrom settings s ls) = emitFrom settings s (tidy ls) := by
  induction ls generalizing s with
  | nil => rfl
  | cons l r ih =>
      rw [trimmed_cons] at h
      rw [emitFrom, tidy_cons, tidy_cons, ih _ h.2]
      by_cases hl : l = []
      · subst hl
        rw [emit_nil]
        cases htidy : tidy r with
        | nil => rfl
        | cons a t =>
            by_cases ha : a = []
            · subst ha
              -- the first empty line goes; the scanner does not notice
              rw [put_nil_nil_cons, emitFrom, emitFrom, emit_nil, put_nil_nil_cons,
                readLine_nil_nil]
              rfl
            · have hmem : a ∈ r := mem_of_mem_tidy (by rw [htidy]; exact List.mem_cons_self)
              rw [put_nil_cons ha, emitFrom, emitFrom,
                put_nil_cons (emit_ne_nil settings (h.2 a hmem) ha _)]
              rfl
      · rw [put_of_ne_nil (emit_ne_nil settings h.1 hl _), put_of_ne_nil hl, emitFrom]

theorem dropWhile_emitFrom {s : Scan} (hs : s.readLine [] = s) {ls : List Text}
    (h : Trimmed ls) :
    (emitFrom settings s ls).dropWhile List.isEmpty
      = emitFrom settings s (ls.dropWhile List.isEmpty) := by
  induction ls with
  | nil => rfl
  | cons l r ih =>
      rw [trimmed_cons] at h
      by_cases hl : l = []
      · subst hl
        rw [emitFrom, emit_nil, hs]
        exact ih h.2
      · have hne := emit_ne_nil settings h.1 hl (s.level (body l))
        rw [emitFrom, List.dropWhile_cons_of_neg (by simpa using hne),
          List.dropWhile_cons_of_neg (by simpa using hl), emitFrom]

theorem compact_emitFrom {s : Scan} (hs : s.readLine [] = s) {ls : List Text} (h : Trimmed ls) :
    compact (emitFrom settings s ls) = emitFrom settings s (compact ls) := by
  rw [compact, tidy_emitFrom s h, compact]
  exact dropWhile_emitFrom hs fun l hl => h l (mem_of_mem_tidy hl)

/-- The levels of some lines are those of their text. -/
theorem emitLines_eq {ls : List Text} (hne : ls ≠ []) (h : AreLines ls) :
    emitLines settings ls = emitFrom settings .initial ls := by
  have hzip : ∀ (s : Scan) (pre : Nat) (ls : List Text),
      List.zipWith (emit settings) ls ((Line.listFrom s pre ls).map Line.level)
        = emitFrom settings s ls := by
    intro s pre ls
    induction ls generalizing s pre with
    | nil => rfl
    | cons l r ih =>
        rw [Line.listFrom, List.map_cons, List.zipWith_cons_cons, ih]
        rfl
  rw [emitLines, Line.ofSource, lines_unlines hne h, hzip]

/-! ## The lines of the canonical text -/

theorem emitFrom_ne_nil (s : Scan) {ls : List Text} (h : ls ≠ []) :
    emitFrom settings s ls ≠ [] := by
  cases ls with
  | nil => exact absurd rfl h
  | cons l r => simp [emitFrom]

theorem areLines_emitFrom (s : Scan) {ls : List Text} (htrimmed : Trimmed ls)
    (h : AreLines ls) : AreLines (emitFrom settings s ls) := by
  rw [← reindent_zero s 0 htrimmed]
  exact areLines_reindent Margins.zero s 0 h

/-- The lines of the canonical text are the blocks under their levels, and an empty last line. -/
theorem lines_canonical (settings : Settings) (source : Text) :
    (canonical settings source).lines
      = emitFrom settings .initial (blocks source.unifyPairs) ++ [[]] := by
  unfold canonical
  dsimp only
  by_cases hnil : blocks source.unifyPairs = []
  · rw [if_pos hnil, hnil]
    rfl
  · have hlines := areLines_blocks source.unifyPairs
    have hemit : AreLines (emitFrom settings .initial (blocks source.unifyPairs)) :=
      areLines_emitFrom .initial (trimmed_blocks _) hlines
    rw [if_neg hnil, emitLines_eq hnil hlines, ← unlines_append_nil (emitFrom_ne_nil _ hnil)]
    exact lines_unlines (by simp) (areLines_append.mpr ⟨hemit, areLines_replicate_nil 1⟩)

theorem compact_blocks (s : Text) : compact (blocks s) = blocks s := by
  rw [blocks, squeeze_strip]
  simpa using compact_map_compact (f := id) rfl (s.lines.map (trimEnd isBlank))

/-- **The blocks of a canonical text** are its lines but the empty one at the end. -/
theorem blocks_canonical (settings : Settings) (source : Text) :
    blocks (canonical settings source)
      = emitFrom settings .initial (blocks source.unifyPairs) := by
  have htrimmed : Trimmed (emitFrom settings .initial (blocks source.unifyPairs)) :=
    trimmed_emitFrom .initial (trimmed_blocks _)
  calc blocks (canonical settings source)
      = compact ((emitFrom settings .initial (blocks source.unifyPairs) ++ [[]]).map
          (trimEnd isBlank)) := by rw [blocks, squeeze_strip, lines_canonical]
    _ = compact (emitFrom settings .initial (blocks source.unifyPairs)) := by
        rw [htrimmed.append_nil.map_eq, compact_append_nil]
    _ = emitFrom settings .initial (blocks source.unifyPairs) := by
        rw [compact_emitFrom rfl (trimmed_blocks _), compact_blocks]

/-! ## Under other settings -/

section

variable {settings' : Settings} {l : Text}

theorem body_emit (h : trimEnd isBlank l = l) (s : Scan) :
    body (emit settings l (s.level (body l))) = body l := by
  rw [← indentLine_zero s 0 0 h]
  exact body_indentLine s 0 0 l

/-- The scanner takes no notice of a line's indentation. -/
theorem readLine_emit (h : trimEnd isBlank l = l) (s : Scan) :
    s.readLine (emit settings l (s.level (body l))) = s.readLine l := by
  rw [← indentLine_zero s 0 0 h]
  exact readLine_indentLine s 0 0 l

/-- Of two indentations the last one stays. -/
theorem emit_emit (h : trimEnd isBlank l = l) (level : Option Nat) :
    emit settings' (emit settings l level) level = emit settings' l level := by
  by_cases hl : l = []
  · rw [hl, emit_nil]
  · have hne := emit_ne_nil settings h hl level
    cases level with
    | none =>
        have hemit : ∀ settings, emit settings l none = l := fun _ => if_neg hl
        rw [hemit settings, hemit settings']
    | some n =>
        have hemit : emit settings l (some n) = settings.indentOf n ++ body l := if_neg hl
        rw [hemit] at hne ⊢
        unfold emit
        dsimp only
        rw [if_neg hne, if_neg hl, body_append (isBlank_indentOf settings n)]

/-- **Indenting under other settings** leaves no trace of the indentation before. -/
theorem emitFrom_emitFrom (s : Scan) {ls : List Text} (h : Trimmed ls) :
    emitFrom settings' s (emitFrom settings s ls) = emitFrom settings' s ls := by
  induction ls generalizing s with
  | nil => rfl
  | cons l r ih =>
      rw [trimmed_cons] at h
      rw [emitFrom, emitFrom, emitFrom, body_emit h.1, readLine_emit h.1, emit_emit h.1, ih _ h.2]

end

end CaplLayout.Layout

namespace CaplLayout.Progress

open Text Layout

variable {settings : Settings} {p : Progress}

/-- The range is the whole text. -/
def Whole (p : Progress) : Prop := p.rangeStart = 0 ∧ p.rangeEnd = none

theorem Whole.margins_eq (h : p.Whole) : p.margins = Margins.zero := margins_eq_zero h.1 h.2

theorem Whole.cleaned (h : p.Whole) : p.cleaned.Whole :=
  ⟨rangeStart_advance h.1 fun d hd =>
      ⟨(Whitespace.within_edits p.text d hd).1.1, (Whitespace.within_edits p.text d hd).2⟩,
    rangeEnd_advance h.2⟩

theorem Whole.round (settings : Settings) (h : p.Whole) : (p.round settings).Whole :=
  ⟨rangeStart_advance h.cleaned.1 fun d hd =>
      ⟨(Indentation.within_edits p.cleaned.text d hd).1.1,
        (Indentation.within_edits p.cleaned.text d hd).2⟩,
    rangeEnd_advance h.cleaned.2⟩

theorem whole_start (source : Text) (hstart : settings.rangeStart = 0)
    (hend : settings.rangeEnd = none) : (start settings source).Whole := by
  refine ⟨?_, by rw [start, hend]; rfl⟩
  -- no pair stands in front of the text
  have hpairs : (source.slice 0 0).pairs = 0 := by simp [slice, position, pairs]
  simp [start, hstart, unifiedOffset, hpairs]

/-- The lines of a whole text behind the first cleanup. -/
theorem Whole.lines_cleaned (h : p.Whole) :
    p.cleaned.text.lines = (compact p.text.lines).map (trimEnd isBlank) ++ [[]] := by
  rw [Progress.lines_cleaned, h.margins_eq, sweep_zero]

theorem Whole.trimmed_cleaned (h : p.Whole) : Trimmed p.cleaned.text.lines := by
  rw [h.lines_cleaned]
  exact (trimmed_map _).append_nil

/-- The lines of a whole text behind the first pass. -/
theorem Whole.lines_round (settings : Settings) (h : p.Whole) :
    (p.round settings).text.lines = emitFrom settings .initial p.cleaned.text.lines := by
  rw [Progress.lines_round, h.cleaned.margins_eq, reindent_zero _ _ h.trimmed_cleaned]

/-- **The lines of a whole text in the end**: its blocks under their levels, and an empty last
line. -/
theorem Whole.lines_final (settings : Settings) (h : p.Whole) :
    (p.final settings).text.lines = emitFrom settings .initial (blocks p.text) ++ [[]] := by
  have hblocks : compact p.cleaned.text.lines = blocks p.text := by
    rw [h.lines_cleaned, compact_append_nil, compact_map_compact rfl, blocks, squeeze_strip]
  have hcompact : compact (p.round settings).text.lines
      = emitFrom settings .initial (blocks p.text) := by
    calc compact (p.round settings).text.lines
        = compact (emitFrom settings .initial p.cleaned.text.lines) := by
          rw [h.lines_round settings]
      _ = emitFrom settings .initial (compact p.cleaned.text.lines) :=
          compact_emitFrom rfl h.trimmed_cleaned
      _ = emitFrom settings .initial (blocks p.text) := by rw [hblocks]
  calc (p.final settings).text.lines
      = (compact (p.round settings).text.lines).map (trimEnd isBlank) ++ [[]] :=
        (h.round settings).lines_cleaned
    _ = (emitFrom settings .initial (blocks p.text)).map (trimEnd isBlank) ++ [[]] := by
        rw [hcompact]
    _ = emitFrom settings .initial (blocks p.text) ++ [[]] := by
        rw [(trimmed_emitFrom _ (trimmed_blocks p.text)).map_eq]

/-- **The text of a call without a range in the end.** -/
theorem text_final_start (source : Text) (hstart : settings.rangeStart = 0)
    (hend : settings.rangeEnd = none) :
    ((start settings source).final settings).text = canonical settings source := by
  have hlines := (whole_start source hstart hend).lines_final settings
  exact text_eq_of_lines_eq (hlines.trans (lines_canonical settings source).symm)

end CaplLayout.Progress

namespace CaplLayout.Engine

open Layout

/-- **A call without a range yields the canonical text** of its source. -/
theorem formatWith_eq_canonical {g : Grammar} {settings : Settings} {source : Text} {tree : Tree}
    (hparse : (standard g).parse settings source = .ok tree) (hstart : settings.rangeStart = 0)
    (hend : settings.rangeEnd = none) :
    ((standard g).formatWith settings source).map Formatted.text
      = .ok (canonical settings source) := by
  rw [formatWith_eq hparse, ← Progress.text_final_start source hstart hend]
  rfl

/-- A brace, a string that a backslash continues, and empty lines of three kinds. -/
theorem formatWith_eq_canonical_string :
    ((standard fun _ => default).formatWith {}
        "\n\non x \x7b\r\ns = \"\\\n  t\";  \n \n\n\t\nf();\n\x7d".toList).map Formatted.text
      = .ok "on x \x7b\n  s = \"\\\n  t\";\n\n  f();\n\x7d\n".toList :=
  (formatWith_eq_canonical (parse_default _ _) rfl rfl).trans (congrArg Except.ok (by decide))

end CaplLayout.Engine
