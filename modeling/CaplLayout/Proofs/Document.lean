import CaplLayout.Proofs.Canonical

/-!
# What a document tells of a text

A document can be written out again: a line without a level as it is, any other line behind the
indentation of its level (`Doc.expand`). The document of a formatted text gives the text back
exactly when no line that continues a comment or a string ends in white space (`doc_expand_iff`).

Formatting takes the blanks from the ends of all lines, but a document takes from the lines
without a level whatever counts as white space, such as a form feed or a no-break space
(`exists_doc_expand_ne`). All else is kept: the lines with a level are settled, and the only line
that a document drops is the empty one at the end.
-/

set_option autoImplicit false

namespace CaplLayout

open Text Layout

variable {settings : Settings}

/-! ## Writing a document out -/

/-- A line of a document as a line of a text. -/
def DocLine.expand (settings : Settings) (l : DocLine) : Text :=
  match l.level with
  | none => l.content
  | some n => if l.content = [] then [] else settings.indentOf n.toNat ++ l.content

/-- A document as a text, with a line feed behind each line. -/
def Doc.expand (settings : Settings) (d : Doc) : Text :=
  d.flatMap fun l => l.expand settings ++ ['\n']

/-- The lines of a document as lines of a text. -/
theorem Doc.expand_eq (settings : Settings) (d : Doc) :
    d.expand settings = unlines (d.map (DocLine.expand settings) ++ [[]]) := by
  induction d with
  | nil => rfl
  | cons l d ih =>
      rw [List.map_cons, List.cons_append, unlines_cons, following_of_ne_nil (by simp), ← ih,
        Doc.expand, List.flatMap_cons, List.append_assoc]
      rfl

/-! ## The document of a text -/

/-- The document line of a line that starts in scanner state `s`. -/
def DocLine.ofLine (s : Scan) (l : Text) : DocLine :=
  match s.level (body l) with
  | some n => ⟨some n, trimEnd isBlank (body l)⟩
  | none => ⟨none, trimEnd isSpace l⟩

/-- The document lines of lines, the first of which starts in scanner state `s`. -/
def Doc.ofLines : Scan → List Text → Doc
  | _, [] => []
  | s, l :: r => .ofLine s l :: Doc.ofLines (s.readLine l) r

/-- In front of the end of the source no line is dropped. -/
theorem Doc.lineOf_of_lt {source : Text} (s : Scan) {pre : Nat} (h : pre < source.length)
    (l : Text) : Doc.lineOf source (Line.ofText s pre l) l = some (.ofLine s l) := by
  rw [Doc.lineOf, if_neg fun hc => absurd hc.1 (Nat.not_le_of_lt h), DocLine.ofLine]
  change (match s.level (body l) with | some n => _ | none => _) = _
  cases s.level (body l) <;> rfl

theorem Doc.filterMap_lineOf {source : Text} (s : Scan) (pre : Nat) (ls : List Text)
    (hlen : source.length = pre + (unlines (ls ++ [[]])).length) :
    (List.zipWith (Doc.lineOf source) (Line.listFrom s pre (ls ++ [[]])) (ls ++ [[]])).filterMap id
      = Doc.ofLines s ls := by
  induction ls generalizing s pre with
  | nil =>
      -- the empty line at the end starts where the source ends
      have hlast : Doc.lineOf source (Line.ofText s pre []) [] = none :=
        if_pos ⟨Nat.le_of_eq hlen, rfl⟩
      rw [List.nil_append, Line.listFrom, Line.listFrom, List.zipWith_cons_cons, hlast]
      rfl
  | cons l r ih =>
      rw [List.cons_append, unlines_cons, following_of_ne_nil (by simp), List.length_append,
        List.length_cons] at hlen
      have hrest := ih (s.readLine l) (pre + l.length + 1) (by omega)
      rw [List.cons_append, Line.listFrom, List.zipWith_cons_cons, Doc.lineOf_of_lt s (by omega)]
      exact congrArg (DocLine.ofLine s l :: ·) hrest

/-- **The document of a text that ends in a line feed** has a line for each line of the text but the
empty one at the end. -/
theorem Doc.ofSource_eq {source : Text} {ls : List Text} (h : source.lines = ls ++ [[]]) :
    Doc.ofSource source = Doc.ofLines .initial ls := by
  have hlen : source.length = 0 + (unlines (ls ++ [[]])).length := by
    rw [← h, unlines_lines, Nat.zero_add]
  rw [Doc.ofSource, Line.ofSource, h, Doc.filterMap_lineOf _ 0 ls hlen]

/-! ## Formatted lines -/

/-- A line that starts in scanner state `s` as a document shows it. -/
def shownLine (s : Scan) (l : Text) : Text :=
  if s.level (body l) = none then trimEnd isSpace l else l

/-- Lines as a document shows them, the first of which starts in scanner state `s`. -/
def shownLines : Scan → List Text → List Text
  | _, [] => []
  | s, l :: r => shownLine s l :: shownLines (s.readLine l) r

/-- A trimmed line under its level is shown as it is, any other line without the white space at its
end. -/
theorem expand_ofLine {s : Scan} {l : Text} (htrim : trimEnd isBlank l = l)
    (hemit : emit settings l (s.level (body l)) = l) :
    (DocLine.ofLine s l).expand settings = shownLine s l := by
  have hbody : trimEnd isBlank (body l) = body l := by rw [← body_trimEnd, htrim]
  unfold DocLine.ofLine shownLine
  cases hlevel : s.level (body l) with
  | none => rfl
  | some n =>
      rw [hlevel] at hemit
      rw [if_neg (by simp), hbody]
      by_cases hl : l = []
      · rw [hl]
        rfl
      · rw [emit, if_neg hl] at hemit
        exact (if_neg (body_ne_nil htrim hl)).trans hemit

/-- **The document of lines under their levels** shows each of them. -/
theorem map_expand_ofLines (s : Scan) {ls : List Text} (htrimmed : Trimmed ls)
    (hemit : emitFrom settings s ls = ls) :
    (Doc.ofLines s ls).map (DocLine.expand settings) = shownLines s ls := by
  induction ls generalizing s with
  | nil => rfl
  | cons l r ih =>
      rw [trimmed_cons] at htrimmed
      rw [emitFrom, List.cons.injEq] at hemit
      rw [Doc.ofLines, List.map_cons, expand_ofLine htrimmed.1 hemit.1, ih _ htrimmed.2 hemit.2,
        shownLines]

theorem areLines_shownLines (s : Scan) {ls : List Text} (h : AreLines ls) :
    AreLines (shownLines s ls) := by
  induction ls generalizing s with
  | nil => exact h
  | cons l r ih =>
      rw [areLines_cons] at h
      refine areLines_cons.mpr ⟨?_, ih _ h.2⟩
      unfold shownLine
      split
      · exact fun hc => h.1 ((prefix_trimEnd isSpace l).subset hc)
      · exact h.1

theorem shownLines_append_nil (s : Scan) (ls : List Text) :
    shownLines s (ls ++ [[]]) = shownLines s ls ++ [[]] := by
  induction ls generalizing s with
  | nil => exact congrArg ([·]) (ite_self [])
  | cons l r ih => rw [List.cons_append, shownLines, shownLines, ih, List.cons_append]

/-- The content of a line without a level does not end in white space. -/
def Line.EndsVisibly (l : Line) : Prop :=
  l.level = none → ∀ c ∈ l.content.getLast?, isSpace c = false

instance (l : Line) : Decidable l.EndsVisibly :=
  -- at most one character is looked at, not all there are
  have : Decidable (∀ c ∈ l.content.getLast?, isSpace c = false) :=
    Option.decidableForallMem _
  inferInstanceAs (Decidable (_ → _))

theorem Text.trimEnd_eq_self_iff {p : Char → Bool} {l : Text} :
    trimEnd p l = l ↔ ∀ c ∈ l.getLast?, p c = false := by
  rw [trimEnd_eq_rdropWhile, List.rdropWhile_eq_self_iff]
  constructor
  · intro h c hc
    obtain ⟨hne, rfl⟩ := List.mem_getLast?_eq_getLast hc
    exact Bool.eq_false_iff.mpr (h hne)
  · intro h hne
    exact Bool.eq_false_iff.mp (h _ (List.getLast?_eq_some_getLast hne))

theorem shownLine_eq_self_iff (s : Scan) (pre : Nat) {l : Text} (htrim : trimEnd isBlank l = l) :
    shownLine s l = l ↔ (Line.ofText s pre l).EndsVisibly := by
  have hcontent : (Line.ofText s pre l).content.getLast? = l.getLast? := by
    have hbody : (Line.ofText s pre l).content = body l := by
      rw [← htrim, body_trimEnd, htrim]
      rfl
    rw [hbody]
    by_cases hl : l = []
    · rw [hl]
      rfl
    · conv_rhs => rw [← margin_append_body l]
      rw [List.getLast?_append_of_ne_nil _ (body_ne_nil htrim hl)]
  unfold shownLine Line.EndsVisibly
  rw [hcontent]
  change _ ↔ (s.level (body l) = none → _)
  split
  · next hlevel => rw [trimEnd_eq_self_iff, forall_prop_of_true hlevel]
  · next hlevel => simp [hlevel]

theorem shownLines_eq_self_iff (s : Scan) (pre : Nat) {ls : List Text} (htrimmed : Trimmed ls) :
    shownLines s ls = ls ↔ ∀ l ∈ Line.listFrom s pre ls, l.EndsVisibly := by
  induction ls generalizing s pre with
  | nil => simp [shownLines, Line.listFrom]
  | cons l r ih =>
      rw [trimmed_cons] at htrimmed
      rw [shownLines, List.cons.injEq, Line.listFrom, List.forall_mem_cons,
        shownLine_eq_self_iff s pre htrimmed.1, ih _ (pre + l.length + 1) htrimmed.2]

/-- **The document of a canonical text** gives it back exactly when each of its lines without a
level ends in something visible. -/
theorem expand_canonical_iff (settings : Settings) (source : Text) :
    (Doc.ofSource (canonical settings source)).expand settings = canonical settings source
      ↔ ∀ l ∈ Line.ofSource (canonical settings source), l.EndsVisibly := by
  have hlines := lines_canonical settings source
  have hblocks := trimmed_blocks source.unifyPairs
  have htrimmed : Trimmed (emitFrom settings .initial (blocks source.unifyPairs)) :=
    trimmed_emitFrom .initial hblocks
  have hemit : emitFrom settings .initial (emitFrom settings .initial (blocks source.unifyPairs))
      = emitFrom settings .initial (blocks source.unifyPairs) := emitFrom_emitFrom .initial hblocks
  have hare : AreLines (emitFrom settings .initial (blocks source.unifyPairs) ++ [[]]) := by
    rw [← hlines]
    exact areLines_lines _
  generalize emitFrom settings .initial (blocks source.unifyPairs) = ls
    at hlines htrimmed hemit hare
  have htext : canonical settings source = unlines (ls ++ [[]]) := by
    rw [← hlines, unlines_lines]
  have hare' : AreLines (shownLines .initial ls ++ [[]]) := by
    rw [areLines_append] at hare ⊢
    exact ⟨areLines_shownLines _ hare.1, hare.2⟩
  calc (Doc.ofSource (canonical settings source)).expand settings = canonical settings source
      ↔ unlines (shownLines .initial ls ++ [[]]) = unlines (ls ++ [[]]) := by
        rw [Doc.expand_eq, Doc.ofSource_eq hlines, map_expand_ofLines .initial htrimmed hemit,
          htext]
    _ ↔ shownLines .initial ls ++ [[]] = ls ++ [[]] :=
        ⟨unlines_inj hare' hare (by simp), congrArg unlines⟩
    _ ↔ shownLines .initial (ls ++ [[]]) = ls ++ [[]] := by rw [shownLines_append_nil]
    _ ↔ ∀ l ∈ Line.ofSource (canonical settings source), l.EndsVisibly := by
        rw [Line.ofSource, hlines, shownLines_eq_self_iff .initial 0 htrimmed.append_nil]

namespace Engine

open Progress

/-- The document of a call's text under checked settings. -/
theorem doc_eq {g : Grammar} {options : Options} {settings : Settings} {source : Text} {tree : Tree}
    (hresolve : resolve options = .ok settings)
    (hparse : (standard g).parse settings source = .ok tree) (hstart : settings.rangeStart = 0)
    (hend : settings.rangeEnd = none) :
    ∃ out, (standard g).format options source = .ok out ∧ out.text = canonical settings source
      ∧ (standard g).doc options source = .ok (Doc.ofSource (canonical settings source)) := by
  have hformat : (standard g).format options source = .ok
      ⟨((start settings source).final settings).text,
        ((start settings source).final settings).cursor⟩ := by
    rw [format, hresolve]
    exact formatWith_eq hparse
  have htext := text_final_start source hstart hend
  refine ⟨_, hformat, htext, ?_⟩
  rw [doc, hformat, ← htext]
  rfl

/-- **A document tells the formatted text** but for white space at the ends of continued lines. A
call without a range has a document, and written out again the document is the formatted text
exactly when no line of this text that continues a comment or a string ends in white space. -/
theorem doc_expand_iff {g : Grammar} {options : Options} {settings : Settings} {source : Text}
    {tree : Tree} (hresolve : resolve options = .ok settings)
    (hparse : (standard g).parse settings source = .ok tree) (hstart : settings.rangeStart = 0)
    (hend : settings.rangeEnd = none) :
    ∃ d out, (standard g).doc options source = .ok d ∧ (standard g).format options source = .ok out
      ∧ (d.expand settings = out.text ↔ ∀ l ∈ Line.ofSource out.text, l.EndsVisibly) := by
  obtain ⟨out, hout, htext, hdoc⟩ := doc_eq hresolve hparse hstart hend
  refine ⟨_, out, hdoc, hout, ?_⟩
  rw [htext]
  exact expand_canonical_iff settings source

/-- A comment in a block that goes on over a blank line and an indented one. -/
theorem doc_expand_iff_comment :
    ∃ d out, (standard fun _ => default).doc [] "\x7b\n/* a \n \n  b */\n\n\nc\n\x7d".toList = .ok d
      ∧ (standard fun _ => default).format [] "\x7b\n/* a \n \n  b */\n\n\nc\n\x7d".toList = .ok out
      ∧ (∀ l ∈ Line.ofSource out.text, l.EndsVisibly) ∧ d.expand {} = out.text := by
  have hresolve : resolve [] = .ok {} := rfl
  have hparse := parse_default {} "\x7b\n/* a \n \n  b */\n\n\nc\n\x7d".toList
  obtain ⟨d, out, hd, hout, hiff⟩ := doc_expand_iff hresolve hparse rfl rfl
  have hvisible : ∀ l ∈ Line.ofSource out.text, l.EndsVisibly := by
    obtain ⟨out', hout', htext, -⟩ := doc_eq hresolve hparse rfl rfl
    have hcanonical : canonical {} "\x7b\n/* a \n \n  b */\n\n\nc\n\x7d".toList
        = "\x7b\n  /* a\n\n  b */\n\n  c\n\x7d\n".toList := by decide
    cases hout.symm.trans hout'
    rw [htext, hcanonical]
    decide
  exact ⟨d, out, hd, hout, hvisible, hiff.mpr hvisible⟩

/-- **White space that a document drops**: a form feed at the end of a line of a comment. -/
theorem exists_doc_expand_ne :
    ∃ d out, (standard fun _ => default).doc [] "/*\n a\x0c\n*/\n".toList = .ok d
      ∧ (standard fun _ => default).format [] "/*\n a\x0c\n*/\n".toList = .ok out
      ∧ d.expand {} ≠ out.text := by
  have hresolve : resolve [] = .ok {} := rfl
  obtain ⟨out, hout, htext, hdoc⟩ := doc_eq hresolve
    (parse_default {} "/*\n a\x0c\n*/\n".toList) rfl rfl
  refine ⟨_, out, hdoc, hout, ?_⟩
  rw [htext]
  decide

end Engine

end CaplLayout
