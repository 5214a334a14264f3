import CaplLayout.Proofs.Canonical

/-!
# Formatting in parts

A source may be cut between two lines that are not blank and formatted in parts when the scanner
starts the second part as it starts a text, in code and with no brace open
(`formatWith_append`).

The scanner has to be there at the first character of the second part. That it ends there after the
first part is not enough: a string that the last line continues with a backslash ends with the
empty line behind it, but goes on when something follows (`exists_formatWith_append_ne`).
-/

set_option autoImplicit false

namespace CaplLayout

open Text

/-! ## Lines in a row -/

/-- The lines of two texts in a row when the first one ends in a line feed. -/
theorem Text.lines_append {s : Text} {ls : List Text} (h : s.lines = ls ++ [[]]) (t : Text) :
    (s ++ t).lines = ls ++ t.lines := by
  cases ht : t.lines with
  | nil => exact absurd ht (lines_ne_nil t)
  | cons m ms => exact lines_append_eq h ht

theorem Text.getLast?_unifyPairs (s : Text) : (unifyPairs s).getLast? = s.getLast? := by
  induction s with
  | nil => rfl
  | cons c s ih =>
      cases s with
      | nil => rfl
      | cons d s =>
          have hne : unifyPairs (d :: s) ≠ [] := by
            intro hc
            rw [hc, List.getLast?_cons] at ih
            cases ih
          rw [List.getLast?_cons_cons, ← ih, unifyPairs]
          split
          · rfl
          · rw [← List.singleton_append, List.getLast?_append_of_ne_nil _ hne]

/-! ## The scanner -/

namespace Scan

/-- The scanner's state where the last line of a text starts. -/
def atLastLine (s : Text) : Scan := s.lines.dropLast.foldl readLine .initial

/-- The scanner's state when it has passed a whole text. -/
def atEnd (s : Text) : Scan := s.lines.foldl readLine .initial

theorem lex_endLine (line : Text) (s : Scan) :
    (endLine line s).lex = .code ∨ (endLine line s).lex = .blockComment
      ∨ (endLine line s).lex = .string := by
  unfold endLine
  split
  · exact .inr (.inl rfl)
  · exact .inr (.inl rfl)
  · split
    · exact .inr (.inr rfl)
    · exact .inl rfl
  · split
    · exact .inr (.inr rfl)
    · exact .inl rfl
  · exact .inl rfl

/-- Behind lines the scanner is in code, in a comment or in a string. -/
theorem lex_foldl_readLine (ls : List Text) :
    (ls.foldl readLine .initial).lex = .code ∨ (ls.foldl readLine .initial).lex = .blockComment
      ∨ (ls.foldl readLine .initial).lex = .string := by
  induction ls using List.reverseRecOn with
  | nil => exact .inl rfl
  | append_singleton ls l _ =>
      rw [List.foldl_append]
      exact lex_endLine l _

/-- In front of an empty last line the scanner is where it ends, unless a string is open there: an
empty line ends a string, but neither a comment nor a block. -/
theorem atLastLine_eq_initial {s : Text} {ls : List Text} (h : s.lines = ls ++ [[]])
    (hend : atEnd s = .initial) (hopen : (atLastLine s).lex ≠ .string) :
    atLastLine s = .initial := by
  have hlast : atEnd s = (atLastLine s).readLine [] := by
    rw [atEnd, atLastLine, h, List.dropLast_concat, List.foldl_append]
    rfl
  have hlex : (atLastLine s).lex = .code ∨ (atLastLine s).lex = .blockComment
      ∨ (atLastLine s).lex = .string := lex_foldl_readLine _
  rw [hlast] at hend
  generalize atLastLine s = t at *
  obtain ⟨lex, depth⟩ := t
  rcases hlex with rfl | rfl | rfl
  · exact hend
  · -- a comment stays open over an empty line
    cases hend
  · exact absurd rfl hopen

end Scan

namespace Layout

variable {settings : Settings}

/-! ## Blocks in a row -/

theorem put_append {ls : List Text} (h : ls ≠ []) (l : Text) (ms : List Text) :
    put l (ls ++ ms) = put l ls ++ ms := by
  cases ls with
  | nil => exact absurd rfl h
  | cons a ls =>
      unfold put
      simp only [List.cons_append, List.head?_cons, reduceCtorEq, false_or]
      split
      · rfl
      · rfl

theorem put_ne_nil {ls : List Text} (h : ls ≠ []) (l : Text) : put l ls ≠ [] := by
  unfold put
  split
  · exact h
  · simp

/-- Behind a line that is not empty nothing is dropped. -/
theorem tidy_append {l : Text} (hl : l ≠ []) (ks : List Text) (m : Text) (ms : List Text) :
    tidy (ks ++ l :: m :: ms) = tidy (ks ++ [l]) ++ tidy (m :: ms) ∧ tidy (ks ++ [l]) ≠ [] := by
  induction ks with
  | nil =>
      rw [List.nil_append, List.nil_append, tidy_cons, tidy_cons l, put_of_ne_nil hl,
        put_of_ne_nil hl]
      exact ⟨rfl, List.cons_ne_nil _ _⟩
  | cons k ks ih =>
      obtain ⟨hsplit, hne⟩ := ih
      rw [List.cons_append, List.cons_append, tidy_cons, tidy_cons k, hsplit, put_append hne]
      exact ⟨rfl, put_ne_nil hne k⟩

theorem compact_append {l m : Text} (hl : l ≠ []) (hm : m ≠ []) (ks ms : List Text) :
    compact (ks ++ l :: m :: ms) = compact (ks ++ [l]) ++ compact (m :: ms) := by
  have hback : compact (m :: ms) = tidy (m :: ms) := by
    rw [compact_cons hm, tidy_cons, put_of_ne_nil hm]
  rw [hback]
  -- empty lines in front fall away one by one; behind the first other line compacting is tidying
  induction ks with
  | nil =>
      rw [List.nil_append, List.nil_append, compact_cons hl, compact_cons hl]
      rfl
  | cons k ks ih =>
      by_cases hk : k = []
      · rw [hk, List.cons_append, List.cons_append, compact_nil_cons, compact_nil_cons, ih]
      · rw [List.cons_append, List.cons_append, compact_cons hk, compact_cons hk,
          (tidy_append hl ks m ms).1, List.cons_append]

/-- The lines of a text whose pairs are unified are some lines, one that is not blank, and an
empty one: it ends in a line terminator behind a line that is not blank. -/
def EndsInLine (s : Text) : Prop :=
  ∃ ls l, s.unifyPairs.lines = ls ++ [l, []] ∧ l.all isBlank = false

/-- The first line of a text whose pairs are unified is not blank. -/
def StartsInLine (s : Text) : Prop :=
  ∃ l ls, s.unifyPairs.lines = l :: ls ∧ l.all isBlank = false

/-- No pair lies across the place where the second text begins. -/
theorem unifyPairs_append_of_endsInLine {a : Text} (ha : EndsInLine a) (b : Text) :
    unifyPairs (a ++ b) = unifyPairs a ++ unifyPairs b := by
  obtain ⟨ls, l, hlines, -⟩ := ha
  have hfeed : a.getLast? = some '\n' := by
    rw [← getLast?_unifyPairs, ← unlines_lines (unifyPairs a), hlines,
      show ls ++ [l, []] = (ls ++ [l]) ++ [[]] by simp, unlines_append_nil (by simp)]
    simp
  exact unifyPairs_append fun hc => by rw [hfeed] at hc; cases hc

theorem trimEnd_ne_nil {l : Text} (h : l.all isBlank = false) : trimEnd isBlank l ≠ [] := by
  intro hc
  rw [trimEnd_eq_nil] at hc
  rw [List.all_eq_true.mpr hc] at h
  cases h

/-- **The blocks of two texts in a row** are those of the one and those of the other. -/
theorem blocks_append {a b : Text} (ha : EndsInLine a) (hb : StartsInLine b) :
    blocks (unifyPairs (a ++ b)) = blocks (unifyPairs a) ++ blocks (unifyPairs b) := by
  obtain ⟨ls, l, hlines, hl⟩ := id ha
  obtain ⟨m, ms, hlines', hm⟩ := hb
  have hlast : (unifyPairs a).lines = (ls ++ [l]) ++ [[]] := by rw [hlines]; simp
  have hboth : (unifyPairs a ++ unifyPairs b).lines = ls ++ l :: m :: ms := by
    rw [lines_append hlast, hlines']
    simp
  have hfirst : blocks (unifyPairs a)
      = compact (ls.map (trimEnd isBlank) ++ [trimEnd isBlank l]) := by
    rw [blocks, squeeze_strip, hlast, List.map_append]
    exact (compact_append_nil _).trans (by simp)
  rw [unifyPairs_append_of_endsInLine ha, hfirst, blocks, squeeze_strip, hboth, blocks,
    squeeze_strip, hlines']
  simpa using compact_append (trimEnd_ne_nil hl) (trimEnd_ne_nil hm)
    (ls.map (trimEnd isBlank)) (ms.map (trimEnd isBlank))

/-! ## Canonical texts in a row -/

theorem emitFrom_append (s : Scan) (ls ms : List Text) :
    emitFrom settings s (ls ++ ms)
      = emitFrom settings s ls ++ emitFrom settings (ls.foldl Scan.readLine s) ms := by
  induction ls generalizing s with
  | nil => rfl
  | cons l r ih =>
      rw [List.cons_append, emitFrom, emitFrom, ih, List.cons_append]
      rfl

/-- The scanner passes indented lines as it does the lines themselves. -/
theorem foldl_readLine_emitFrom (s : Scan) {ls : List Text} (h : Trimmed ls) :
    (emitFrom settings s ls).foldl Scan.readLine s = ls.foldl Scan.readLine s := by
  induction ls generalizing s with
  | nil => rfl
  | cons l r ih =>
      rw [trimmed_cons] at h
      rw [emitFrom, List.foldl_cons, List.foldl_cons, readLine_emit h.1, ih _ h.2]

theorem atLastLine_canonical (settings : Settings) (source : Text) :
    Scan.atLastLine (canonical settings source)
      = (blocks source.unifyPairs).foldl Scan.readLine .initial := by
  rw [Scan.atLastLine, lines_canonical, List.dropLast_concat,
    foldl_readLine_emitFrom _ (trimmed_blocks _)]

/-- **The canonical text of two texts in a row**, when the scanner is back at its start between
them. -/
theorem canonical_append {a b : Text} (ha : EndsInLine a) (hb : StartsInLine b)
    (hscan : Scan.atLastLine (canonical settings a) = .initial) :
    canonical settings (a ++ b) = canonical settings a ++ canonical settings b := by
  apply Progress.text_eq_of_lines_eq
  rw [atLastLine_canonical] at hscan
  calc (canonical settings (a ++ b)).lines
      = emitFrom settings .initial (blocks a.unifyPairs ++ blocks b.unifyPairs) ++ [[]] := by
        rw [lines_canonical, blocks_append ha hb]
    _ = emitFrom settings .initial (blocks a.unifyPairs)
          ++ (emitFrom settings .initial (blocks b.unifyPairs) ++ [[]]) := by
        rw [emitFrom_append, hscan, List.append_assoc]
    _ = (canonical settings a ++ canonical settings b).lines := by
        rw [lines_append (lines_canonical settings a), lines_canonical settings b]

end Layout

namespace Engine

open Layout Progress

variable {g : Grammar} {settings : Settings} {a b : Text} {treeA treeB tree : Tree}

/-- **Formatting is local.** Let `a` end in a line terminator behind a line that is not blank, and
let the first line of `b` not be blank. If the scanner ends in code with no brace open on the
formatted text of `a`, and no string is open where its last line starts, `a` and `b` in a row
are formatted to the formatted texts of both in a row. -/
theorem formatWith_append (hstart : settings.rangeStart = 0) (hend : settings.rangeEnd = none)
    (ha : EndsInLine a) (hb : StartsInLine b)
    (hparseA : (standard g).parse settings a = .ok treeA)
    (hparseB : (standard g).parse settings b = .ok treeB)
    (hparse : (standard g).parse settings (a ++ b) = .ok tree) :
    ∃ outA outB out, (standard g).formatWith settings a = .ok outA
      ∧ (standard g).formatWith settings b = .ok outB
      ∧ (standard g).formatWith settings (a ++ b) = .ok out
      ∧ (Scan.atEnd outA.text = .initial → (Scan.atLastLine outA.text).lex ≠ .string →
          out.text = outA.text ++ outB.text) := by
  refine ⟨_, _, _, formatWith_eq hparseA, formatWith_eq hparseB, formatWith_eq hparse, ?_⟩
  dsimp only
  rw [text_final_start a hstart hend, text_final_start b hstart hend,
    text_final_start (a ++ b) hstart hend]
  intro hscan hopen
  exact canonical_append ha hb
    (Scan.atLastLine_eq_initial (lines_canonical settings a) hscan hopen)

/-- A block with pairs at its line ends, and a line behind it whose blanks are dropped. -/
theorem formatWith_append_block :
    ∃ outA outB out,
      (standard fun _ => default).formatWith {} "on x \x7b\r\n f();\r\n\x7d\r\n".toList = .ok outA
      ∧ (standard fun _ => default).formatWith {} "  g();\n".toList = .ok outB
      ∧ (standard fun _ => default).formatWith {}
          ("on x \x7b\r\n f();\r\n\x7d\r\n".toList ++ "  g();\n".toList) = .ok out
      ∧ out.text = outA.text ++ outB.text := by
  have hends : EndsInLine "on x \x7b\r\n f();\r\n\x7d\r\n".toList :=
    ⟨["on x \x7b".toList, " f();".toList], "\x7d".toList, by decide, by decide⟩
  have hstarts : StartsInLine "  g();\n".toList := ⟨"  g();".toList, [[]], by decide, by decide⟩
  obtain ⟨outA, outB, out, hA, hB, hout, happend⟩ := formatWith_append rfl rfl hends hstarts
    (parse_default {} _) (parse_default {} _) (parse_default {} _)
  have htext : outA.text = "on x \x7b\n  f();\n\x7d\n".toList := by
    cases (formatWith_eq (parse_default _ _)).symm.trans hA
    exact (text_final_start _ rfl rfl).trans (by decide)
  refine ⟨outA, outB, out, hA, hB, hout, happend ?_ ?_⟩
  · rw [htext]
    decide
  · rw [htext]
    decide

/-- **A string that goes on**: the last line of the first part continues a string, so the second
part is left alone behind it but indented when it stands for itself. -/
theorem exists_formatWith_append_ne :
    EndsInLine "s = \"\\\n".toList ∧ StartsInLine "  t\n".toList
      ∧ ∃ outA outB out,
        (standard fun _ => default).formatWith {} "s = \"\\\n".toList = .ok outA
        ∧ (standard fun _ => default).formatWith {} "  t\n".toList = .ok outB
        ∧ (standard fun _ => default).formatWith {} ("s = \"\\\n".toList ++ "  t\n".toList)
            = .ok out
        ∧ Scan.atEnd outA.text = .initial
        ∧ out.text ≠ outA.text ++ outB.text := by
  refine ⟨⟨[], "s = \"\\".toList, by decide, by decide⟩,
    ⟨"  t".toList, [[]], by decide, by decide⟩, _, _, _, formatWith_eq (parse_default _ _),
    formatWith_eq (parse_default _ _), formatWith_eq (parse_default _ _), ?_⟩
  dsimp only
  rw [text_final_start _ rfl rfl, text_final_start _ rfl rfl, text_final_start _ rfl rfl]
  decide

end Engine

end CaplLayout
