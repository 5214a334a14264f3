import CaplLayout.Proofs.Cursor
import CaplLayout.Proofs.Locality
import CaplLayout.Proofs.Rows
import CaplLayout.Proofs.Stability

/-!
# The line of the cursor

A cursor on a line that is not blank stays on it (`formatWith_onLine`). The line is known by the
number of lines with content in front of it, which formatting does not change.

What ties an offset to its line is a mark of the line (`Anchored`). The mark moves along with the
text, keeps the marks in front of it and stays on the row of the offset (`stays_anchored`). Only an
offset at the very end of a source leaves its line: the line feed that is put there goes in front
of it (`exists_formatWith_not_onLine`).
-/

set_option autoImplicit false

namespace CaplLayout.Layout

open Text Edit Progress

/-! ## Lines that are not blank -/

/-- The offset `o` lies on line number `k` of the lines that are not blank, between the start of the
line and its line feed. -/
def OnLine (s : Text) (k : Nat) (o : Int) : Prop :=
  ∃ u l w, IsLine s u l w ∧ l.all isBlank = false ∧ (outline u).length = k
    ∧ u.length ≤ o ∧ o ≤ (u.length + l.length : Nat)

/-- Mark number `q` of some lines is one of line `k`. -/
def HasMark (ls : List Text) (k q : Nat) : Prop :=
  (marks (ls.take k).flatten).length ≤ q ∧ q < (marks (ls.take (k + 1)).flatten).length

/-- A mark is one of one line only. -/
theorem HasMark.unique {ls : List Text} {k k' q : Nat} (h : HasMark ls k q)
    (h' : HasMark ls k' q) : k = k' := by
  have hmono : ∀ i j, i ≤ j →
      (marks (ls.take i).flatten).length ≤ (marks (ls.take j).flatten).length := by
    intro i j hij
    obtain ⟨t, ht⟩ := List.take_prefix_take_left (l := ls) hij
    rw [← ht, List.flatten_append, marks_append, List.length_append]
    exact Nat.le_add_right _ _
  obtain ⟨hle, hlt⟩ := h
  obtain ⟨hle', hlt'⟩ := h'
  by_contra hne
  rcases Nat.lt_or_gt_of_ne hne with hk | hk
  · have := hmono (k + 1) k' hk
    omega
  · have := hmono (k' + 1) k hk
    omega

section

variable {s u l w : Text} {k n : Nat} {o : Int}

/-- The outline of a text, taken apart at a line. -/
theorem outline_of_isLine (h : IsLine s u l w) (hb : l.all isBlank = false) :
    outline s = outline u ++ trim isBlank l :: outline w := by
  obtain ⟨ls, hls⟩ := h.front.exists_lines_eq
  obtain ⟨ms, hlines, hms⟩ : ∃ ms, lines (l ++ w) = l :: ms ∧ lines w = [] :: ms := by
    rcases h.back with rfl | hw
    · exact ⟨[], by rw [List.append_nil, lines_line h.line], rfl⟩
    · obtain ⟨r, rfl⟩ := List.head?_eq_some_iff.mp hw
      exact ⟨lines r, lines_line_append h.line r, if_pos rfl⟩
  have hs : lines s = ls ++ l :: ms := by rw [h.text, lines_append hls, hlines]
  rw [outline, outline, outline, hs, hls, hms]
  simp [hb]

/-- The marks of a line have a number between those of the lines in front and behind. -/
theorem hasMark_of_isLine (h : IsLine s u l w) (hb : l.all isBlank = false) {j : Nat} {c : Char}
    (hj : l[j]? = some c) (hc : isMark c = true) :
    HasMark (outline s) (outline u).length (marks (s.take (u.length + j))).length := by
  obtain ⟨hlt, hget⟩ := List.getElem?_eq_some_iff.mp hj
  have hfront : marks ((outline s).take (outline u).length).flatten = marks u := by
    rw [outline_of_isLine h hb, List.take_left, marks_outline]
  have hnext : marks ((outline s).take ((outline u).length + 1)).flatten = marks u ++ marks l := by
    rw [outline_of_isLine h hb, List.take_length_add_append, List.take_succ_cons, List.take_zero,
      List.flatten_append, List.flatten_singleton, marks_append, marks_outline, marks_trim]
  have htake : marks (s.take (u.length + j)) = marks u ++ marks (l.take j) := by
    rw [h.text, List.take_length_add_append, List.take_append_of_le_length hlt.le, marks_append]
  have hsplit : marks l = marks (l.take j) ++ c :: marks (l.drop (j + 1)) := by
    have hdrop : l.drop j = c :: l.drop (j + 1) := by rw [← hget, List.getElem_cons_drop]
    conv_lhs => rw [← List.take_append_drop j l, hdrop]
    rw [marks_append, marks, marks, List.filter_cons_of_pos hc]
    rfl
  -- in front of the character are some marks of its line, but not the character itself
  rw [HasMark, hfront, hnext, htake, hsplit]
  simp only [List.length_append, List.length_cons]
  omega

/-- In a text that ends in a line feed, what lies on a line does not lie at the end. -/
theorem OnLine.lt_length (h : OnLine s k o) (hend : s.getLast? = some '\n') : o < s.length := by
  obtain ⟨u, l, w, hline, hb, -, -, hle⟩ := h
  have hne : l ≠ [] := by
    rintro rfl
    cases hb
  have hw : w ≠ [] := by
    rintro rfl
    rw [hline.text, List.append_nil, List.getLast?_append_of_ne_nil _ hne] at hend
    exact hline.line (List.mem_of_getLast? hend)
  have hpos := List.length_pos_iff.mpr hw
  rw [hline.text, List.length_append, List.length_append]
  omega

/-! ## Offsets tied to a mark -/

/-- The offset `n` lies on the line of a mark that has the marks `front` in front of it. -/
structure Anchored (s front : Text) (n : Nat) : Prop where
  lt_length : n < s.length
  mark : ∃ m c, s[m]? = some c ∧ isMark c = true ∧ marks (s.take m) = front ∧ row s m = row s n

/-- A line that is not blank has a mark, and its offsets are tied to it. -/
theorem OnLine.anchored (h : OnLine s k n) (hn : n < s.length) :
    ∃ front, Anchored s front n ∧ HasMark (outline s) k front.length := by
  obtain ⟨u, l, w, hline, hb, rfl, hle, hle'⟩ := h
  obtain ⟨c, hcl, hblank⟩ := List.all_eq_false.mp hb
  have hfeed : c ≠ '\n' := fun hcon => hline.line (hcon ▸ hcl)
  have hc : isMark c = true := isMark_iff.mpr ⟨Bool.eq_false_iff.mpr hblank, hfeed⟩
  obtain ⟨j, hj⟩ := List.mem_iff_getElem?.mp hcl
  obtain ⟨hlt, -⟩ := List.getElem?_eq_some_iff.mp hj
  have hget : s[u.length + j]? = some c := by
    rw [hline.text, getElem?_length_add, List.getElem?_append_left hlt, hj]
  obtain ⟨hlt', -⟩ := List.getElem?_eq_some_iff.mp hget
  refine ⟨_, ⟨hn, u.length + j, c, hget, hc, rfl, ?_⟩, hasMark_of_isLine hline hb hj hc⟩
  -- both offsets lie on the row of the line
  rw [(hline.row_eq_iff hlt'.le).mpr (by omega), (hline.row_eq_iff hn.le).mpr (by omega)]

/-- An offset tied to a mark lies on the line that has the mark. -/
theorem Anchored.exists_onLine {front : Text} (h : Anchored s front n) :
    ∃ k, OnLine s k n ∧ HasMark (outline s) k front.length := by
  obtain ⟨hn, m, c, hm, hc, rfl, hrow⟩ := h
  obtain ⟨u, l, w, hline, hle, hle'⟩ := exists_isLine hn.le
  obtain ⟨hblank, hfeed⟩ := isMark_iff.mp hc
  have hline' := (hline.row_eq_iff hn.le).mpr ⟨hle, hle'⟩
  obtain ⟨j, rfl, hj⟩ := hline.getElem?_of_row hm hfeed (hrow.trans hline')
  have hb : l.all isBlank = false :=
    List.all_eq_false.mpr ⟨c, List.mem_of_getElem? hj, Bool.eq_false_iff.mp hblank⟩
  exact ⟨_, ⟨u, l, w, hline, hb, rfl, by omega, by omega⟩, hasMark_of_isLine hline hb hj hc⟩

end

end CaplLayout.Layout

namespace CaplLayout.Progress

open Text Edit Layout

/-! ## The cursor -/

/-- The cursor is followed, and `P` holds of the text and of where the cursor is in it. -/
def CursorAt (P : Text → Nat → Prop) (p : Progress) : Prop :=
  ∃ n : Nat, p.cursor = some (n : Int) ∧ P p.text n

/-- Offsets keep the property `P` when a text is respaced and the new text is terminated. -/
def Stays (P : Text → Nat → Prop) : Prop :=
  ∀ (s t : Text) (f : Int → Int) (n : Nat), Along Respaced s t f → Terminated t → P s n →
    ∃ m : Nat, f n = m ∧ P t m

section

variable {P : Text → Nat → Prop} {p : Progress}

/-- **One rule** keeps the cursor where `P` holds. -/
theorem CursorAt.advance (h : p.CursorAt P) (hP : Stays P) {edits : Text → List Edit}
    (hspans : ∀ e ∈ edits p.text, Spans Respaced 0 p.text e)
    (hend : (p.advance (edits p.text)).text.Terminated) :
    (p.advance (edits p.text)).CursorAt P := by
  obtain ⟨n, hcursor, hn⟩ := h
  obtain ⟨f, halong, hstep⟩ := exists_along_advance hspans
  obtain ⟨m, hm, hPm⟩ := hP _ _ f n halong hend hn
  refine ⟨m, ?_, hPm⟩
  -- the step is known for any cursor, and so for the one that is there
  have hsame : p.withCursor (some n) = p := by rw [← hcursor]; rfl
  have hmoved := congrArg cursor (hstep (some n))
  rw [hsame] at hmoved
  rw [hmoved]
  exact congrArg some hm

/-- **A run of the built-in rules** without a range keeps the cursor where `P` holds. -/
theorem CursorAt.final (h : p.CursorAt P) (hP : Stays P) (settings : Settings) (hp : p.Whole) :
    (p.final settings).CursorAt P := by
  have hclean : ∀ q : Progress, q.Whole → q.CursorAt P → q.cleaned.CursorAt P := fun q hq hat =>
    hat.advance hP (Whitespace.respaced_edits q.text) (terminated_of_lines hq.lines_cleaned)
  -- indenting leaves the empty last line as it is
  have hlines : (p.round settings).text.lines
      = emitFrom settings .initial ((compact p.text.lines).map (trimEnd isBlank)) ++ [[]] := by
    rw [hp.lines_round, hp.lines_cleaned, emitFrom_append]
    rfl
  have hround : (p.round settings).CursorAt P :=
    (hclean p hp h).advance hP (Indentation.respaced_edits settings p.cleaned.text)
      (terminated_of_lines hlines)
  exact hclean _ (hp.round settings) hround

end

/-- An offset stays tied to its mark. -/
theorem stays_anchored (front : Text) : Stays fun s n => Anchored s front n := by
  intro s t f n halong hend h
  obtain ⟨-, ps, rest, hall, rfl, rfl, hmove⟩ := halong
  obtain ⟨hn, m, c, hget, hc, hmarks, hrow⟩ := h
  obtain ⟨hm, -⟩ := List.getElem?_eq_some_iff.mp hget
  have hfeed := (isMark_iff.mp hc).2
  have hget' : (Patch.after rest ps)[Patch.move ps m]? = some c :=
    Patch.getElem?_after (hall.imp fun _ _ _ hQ => hQ.marks_old) hc hget
  -- the offset may lie on either side of the mark
  have hrow' : row (Patch.after rest ps) (Patch.move ps m)
      = row (Patch.after rest ps) (Patch.move ps n) := by
    rcases Nat.le_total m n with hmn | hmn
    · exact Patch.row_after hall hmn hn hrow
    · exact (Patch.row_after hall hmn hm hrow.symm).symm
  refine ⟨Patch.move ps n, hmove n, ?_, Patch.move ps m, c, hget', hc, ?_, hrow'⟩
  · exact lt_length_of_row_eq hend hget' hfeed (Patch.move_le hn.le) hrow'
  · rw [← hmarks]
    exact Patch.filter_take_after (hall.imp fun _ _ _ hQ => ⟨hQ.marks_old, hQ.marks_new⟩)

/-- The end of a text stays its end. -/
theorem stays_end : Stays fun s n => n = s.length := by
  rintro s t f n ⟨-, ps, rest, -, rfl, rfl, hmove⟩ - rfl
  exact ⟨_, hmove _, Patch.move_length rest ps⟩

/-- **A cursor on a line that is not blank** is on the line of the same number in the end. -/
theorem exists_onLine_final (settings : Settings) {p : Progress} (hp : p.Whole) {k n : Nat}
    (hcursor : p.cursor = some (n : Int)) (hon : OnLine p.text k n) (hn : n < p.text.length) :
    ∃ o, (p.final settings).cursor = some o ∧ OnLine (p.final settings).text k o := by
  obtain ⟨front, hanchored, hmark⟩ := hon.anchored hn
  have hat : p.CursorAt fun s n => Anchored s front n := ⟨n, hcursor, hanchored⟩
  obtain ⟨o, ho, hfinal⟩ := hat.final (stays_anchored front) settings hp
  obtain ⟨k', hon', hmark'⟩ := hfinal.exists_onLine
  -- the mark decides which line it is
  rw [outline_final] at hmark'
  rw [hmark.unique hmark']
  exact ⟨o, ho, hon'⟩

/-- A cursor at the end of the text is at the end in the end. -/
theorem cursor_final_of_end (settings : Settings) {p : Progress} (hp : p.Whole)
    (hcursor : p.cursor = some (p.text.length : Int)) :
    (p.final settings).cursor = some ((p.final settings).text.length : Int) := by
  have hat : p.CursorAt fun s n => n = s.length := ⟨_, hcursor, rfl⟩
  obtain ⟨o, ho, hfinal⟩ := hat.final stays_end settings hp
  rw [ho, hfinal]

end CaplLayout.Progress

namespace CaplLayout

open Text

/-! ## Lines of a source -/

/-- The text `l` is a line of a source: behind it stands the end of the source, a line feed, or a
pair of a carriage return and a line feed, neither of which belongs to the line. -/
structure IsSourceLine (source before l behind : Text) : Prop where
  text : source = before ++ (l ++ behind)
  front : before.Terminated
  line : '\n' ∉ l
  back : behind = [] ∨ behind.head? = some '\n' ∧ l.getLast? ≠ some '\r'
    ∨ ['\r', '\n'] <+: behind

theorem Text.pairs_of_not_mem_feed {s : Text} (h : '\n' ∉ s) : s.pairs = 0 := by
  have hpairs := pairs_line_append h []
  rw [pairs_append, List.head?_cons] at hpairs
  simp only [pairs, and_true] at hpairs
  omega

variable {source before l behind : Text}

theorem IsSourceLine.getLast?_ne (h : IsSourceLine source before l behind) :
    before.getLast? ≠ some '\r' := by
  rcases h.front with hfront | hfront
  · rw [hfront]
    exact nofun
  · rw [hfront]
    decide

/-- A line of a source stays a line when pairs are unified. -/
theorem IsSourceLine.isLine (h : IsSourceLine source before l behind) :
    IsLine source.unifyPairs before.unifyPairs l behind.unifyPairs := by
  -- neither end of the line lies inside a pair
  have hcut : l.getLast? = some '\r' → behind.head? ≠ some '\n' := by
    intro hlast
    rcases h.back with hback | ⟨-, hback⟩ | ⟨r, hback⟩
    · rw [hback]
      exact nofun
    · exact absurd hlast hback
    · rw [← hback]
      exact (by decide : some '\r' ≠ some '\n')
  have hl : unifyPairs l = l := unifyPairs_of_pairs_eq_zero (pairs_of_not_mem_feed h.line)
  refine ⟨?_, ?_, h.line, ?_⟩
  · rw [h.text, unifyPairs_append fun hlast => absurd hlast h.getLast?_ne, unifyPairs_append hcut,
      hl]
  · rcases h.front with hfront | hfront
    · rw [hfront]
      exact .inl rfl
    · exact .inr ((getLast?_unifyPairs before).trans hfront)
  · have hfeed : ∀ r : Text, (unifyPairs ('\n' :: r)).head? = some '\n' := by
      intro r
      cases r <;> rfl
    rcases h.back with hback | ⟨hback, -⟩ | ⟨r, hback⟩
    · rw [hback]
      exact .inl rfl
    · obtain ⟨r, hr⟩ := List.head?_eq_some_iff.mp hback
      rw [hr]
      exact .inr (hfeed r)
    · rw [← hback]
      exact .inr (hfeed r)

/-- An offset on a line of a source keeps its distance from the start of the line. -/
theorem IsSourceLine.unifiedOffset_add (h : IsSourceLine source before l behind) {j : Nat}
    (hj : j ≤ l.length) :
    unifiedOffset source (before.length + j : Nat) = (before.unifyPairs.length + j : Nat) := by
  have htake : source.take (before.length + j) = before ++ l.take j := by
    rw [h.text, List.take_length_add_append, List.take_append_of_le_length hj]
  have hline : pairs (l.take j) = 0 :=
    pairs_of_not_mem_feed fun hmem => h.line (List.mem_of_mem_take hmem)
  have hlen := length_unifyPairs before
  rw [unifiedOffset_natCast, htake, pairs_append, hline, if_neg fun hc => h.getLast?_ne hc.1]
  omega

/-- Where a call starts with a cursor on a line. -/
theorem IsSourceLine.cursor_start (h : IsSourceLine source before l behind) {settings : Settings}
    {j : Nat} (hcursor : settings.cursorOffset = some (before.length + j)) (hj : j ≤ l.length) :
    (Progress.start settings source).cursor
      = some ((before.unifyPairs.length + j : Nat) : Int) := by
  have hsource := congrArg List.length h.text
  rw [List.length_append, List.length_append] at hsource
  have hmin : min (before.length + j) source.length = before.length + j :=
    Nat.min_eq_left (by omega)
  rw [← h.unifiedOffset_add hj, Progress.start, hcursor, Option.map_some, hmin]

/-- The end of a source is the end of its text with pairs unified. -/
theorem IsSourceLine.lt_length_iff (h : IsSourceLine source before l behind) {j : Nat}
    (hj : j ≤ l.length) :
    before.length + j < source.length
      ↔ before.unifyPairs.length + j < source.unifyPairs.length := by
  rw [h.isLine.text, h.text]
  simp only [List.length_append]
  by_cases hback : behind = []
  · rw [hback, unifyPairs]
    simp
  · have hback' : behind.unifyPairs ≠ [] := by
      intro hnil
      have hlast := getLast?_unifyPairs behind
      rw [hnil] at hlast
      exact hback (List.getLast?_eq_none_iff.mp hlast.symm)
    have := List.length_pos_iff.mpr hback
    have := List.length_pos_iff.mpr hback'
    omega

end CaplLayout

namespace CaplLayout.Engine

open Text Layout Progress

variable {g : Grammar} {settings : Settings} {source before l behind : Text} {tree : Tree}

/-- **A cursor on a line that is not blank stays on it**: in the end it is on the line of the same
number. Only at the very end of the source the cursor goes to the end of the text, behind the line
feed that is put there. -/
theorem formatWith_onLine {c : Nat} (hparse : (standard g).parse settings source = .ok tree)
    (hstart : settings.rangeStart = 0) (hend : settings.rangeEnd = none)
    (hcursor : settings.cursorOffset = some c) (hline : IsSourceLine source before l behind)
    (hblank : l.all isBlank = false) (hle : before.length ≤ c)
    (hle' : c ≤ before.length + l.length) :
    ∃ out o, (standard g).formatWith settings source = .ok out ∧ out.cursor = some o
      ∧ (c < source.length → OnLine out.text (outline before.unifyPairs).length o)
      ∧ (c = source.length → o = out.text.length) := by
  obtain ⟨j, rfl⟩ : ∃ j, c = before.length + j := ⟨c - before.length, by omega⟩
  have hj : j ≤ l.length := by omega
  have hp := whole_start source hstart hend
  have hplace := hline.cursor_start hcursor hj
  by_cases hlt : before.length + j < source.length
  · have hon : OnLine source.unifyPairs (outline before.unifyPairs).length
        (before.unifyPairs.length + j : Nat) :=
      ⟨_, _, _, hline.isLine, hblank, rfl, by omega, by omega⟩
    obtain ⟨o, ho, hfinal⟩ :=
      exists_onLine_final settings hp hplace hon ((hline.lt_length_iff hj).mp hlt)
    exact ⟨_, o, formatWith_eq hparse, ho, fun _ => hfinal, fun hc => absurd hc hlt.ne⟩
  · -- behind the line stands nothing, neither in the source nor with pairs unified
    have hle := congrArg List.length hline.isLine.text
    have hge := mt (hline.lt_length_iff hj).mpr hlt
    rw [List.length_append, List.length_append] at hle
    have hlast : before.unifyPairs.length + j = source.unifyPairs.length := by omega
    rw [hlast] at hplace
    exact ⟨_, _, formatWith_eq hparse, cursor_final_of_end settings hp hplace,
      fun hc => absurd hc hlt, fun _ => rfl⟩

/-- A cursor behind the blanks at the end of a line, in front of a pair. -/
theorem formatWith_onLine_blanks :
    ∃ out o, (standard fun _ => default).formatWith { cursorOffset := some 17 }
        "on x \x7b\r\n\r\n\r\n  b; \r\n\x7d".toList = .ok out
      ∧ out.cursor = some o ∧ OnLine out.text 1 o := by
  have hline : IsSourceLine "on x \x7b\r\n\r\n\r\n  b; \r\n\x7d".toList
      "on x \x7b\r\n\r\n\r\n".toList "  b; ".toList "\r\n\x7d".toList :=
    ⟨rfl, .inr rfl, by decide, .inr (.inr (by decide))⟩
  obtain ⟨out, o, hout, ho, hon, -⟩ := formatWith_onLine (c := 17)
    (parse_default { cursorOffset := some 17 } _) rfl rfl rfl hline rfl (by decide) (by decide)
  exact ⟨out, o, hout, ho, hon (by decide)⟩

/-- **A cursor leaves its line** at the end of a source without a last line feed. -/
theorem exists_formatWith_not_onLine :
    ∃ (source before l behind : Text) (c : Nat), IsSourceLine source before l behind
      ∧ l.all isBlank = false ∧ before.length ≤ c ∧ c ≤ before.length + l.length
      ∧ ∃ out o, (standard fun _ => default).formatWith { cursorOffset := some c } source = .ok out
        ∧ out.cursor = some o ∧ ¬ OnLine out.text (outline before.unifyPairs).length o := by
  have hline : IsSourceLine ['a'] [] ['a'] [] := ⟨rfl, .inl rfl, by decide, .inl rfl⟩
  have hcall : (standard fun _ => default).formatWith { cursorOffset := some 1 } ['a']
      = .ok ⟨['a', '\n'], some 2⟩ := by with_unfolding_all rfl
  refine ⟨['a'], [], ['a'], [], 1, hline, rfl, by decide, by decide, _, _, hcall, rfl,
    fun hon => ?_⟩
  exact absurd (hon.lt_length rfl) (by decide)

end CaplLayout.Engine
