import CaplLayout.Proofs.Locality

/-!
# Literals

Formatting keeps the string and character literals of a source as they are, with the line breaks
of strings that go on behind a backslash and the blanks in front of their further lines
(`formatWith_literals`). The source has to be lexically closed: each literal ends on its line, or
is a string that the line's last character, a backslash, continues.

A reading is the scanner with a record of the literals it has met. The cleanup could harm a
literal at three places only, and closedness rules out each of them. Blanks at the end of a line
of a string would have to stand behind the backslash. An empty line cannot continue a string, so
none is dropped or added inside one. And the end of the text lies outside all strings. Indenting
passes over the lines that continue a string. So the lines after a rule are closed again and read as
the lines before (`ReadsAs`).
-/

set_option autoImplicit false

namespace CaplLayout

open Text

/-! ## Readings -/

/-- Inside a string or a character literal. -/
def Lex.isLiteral : Lex → Bool
  | .string | .stringEscape | .char | .charEscape => true
  | _ => false

/-- The scanner with a record of the literals of the text. -/
@[ext] structure Reading where
  scan : Scan
  /-- What has been read of a literal that is still open. -/
  seen : Text
  /-- The literals that have ended, in order. -/
  found : List Text
  seen_eq_nil : scan.lex.isLiteral = false → seen = []

namespace Scan

/-- Where the scanner stands behind the last character of a line. -/
def atLineEnd (s : Scan) (line : Text) : Scan := line.foldl (read (s.isDirective (body line))) s

theorem readLine_eq (s : Scan) (line : Text) : s.readLine line = endLine line (s.atLineEnd line) :=
  rfl

end Scan

namespace Reading

/-- Where a reading starts. -/
def start : Reading := ⟨.initial, [], [], fun _ => rfl⟩

/-- Reads a character of a line. A literal ends with the character behind which the scanner is
outside. -/
def read (directive : Bool) (r : Reading) (c : Char) : Reading where
  scan := r.scan.read directive c
  seen := if (r.scan.read directive c).lex.isLiteral then r.seen ++ [c] else []
  found :=
    if r.scan.lex.isLiteral && !(r.scan.read directive c).lex.isLiteral then
      r.found ++ [r.seen ++ [c]]
    else r.found
  seen_eq_nil h := by rw [h]; rfl

/-- Passes the end of the line `line`. A line feed belongs to the literal that goes on behind it. -/
def endLine (line : Text) (r : Reading) : Reading where
  scan := r.scan.endLine line
  seen := if (r.scan.endLine line).lex.isLiteral then r.seen ++ ['\n'] else []
  found := r.found
  seen_eq_nil h := by rw [h]; rfl

/-- A reading behind the last character of a line. -/
def atLineEnd (r : Reading) (line : Text) : Reading :=
  line.foldl (read (r.scan.isDirective (body line))) r

/-- Passes a whole line and its end. -/
def readLine (r : Reading) (line : Text) : Reading := endLine line (r.atLineEnd line)

end Reading

/-- The string and character literals of a text, each from its opening to its closing quote. -/
def literals (s : Text) : List Text := (s.lines.foldl Reading.readLine .start).found

/-! ## Closed texts -/

/-- A line may end where the scanner stands: not inside a character literal, and inside a string
only behind a backslash. -/
def Lex.MayEnd (line : Text) : Lex → Prop
  | .char | .charEscape => False
  | .string | .stringEscape => line.getLast? = some '\\'
  | _ => True

instance (line : Text) : (l : Lex) → Decidable (l.MayEnd line)
  | .char | .charEscape => inferInstanceAs (Decidable False)
  | .string | .stringEscape => inferInstanceAs (Decidable (line.getLast? = some '\\'))
  | .code | .slash | .lineComment | .blockComment | .star => inferInstanceAs (Decidable True)

/-- Every line ends where it may, when the first one starts in scanner state `s`, and the last one
leaves no string open. -/
def ClosedFrom : (s : Scan) → List Text → Prop
  | s, [] => s.lex ≠ .string
  | s, l :: r => (s.atLineEnd l).lex.MayEnd l ∧ ClosedFrom (s.readLine l) r

instance : (s : Scan) → (ls : List Text) → Decidable (ClosedFrom s ls)
  | _, [] => inferInstanceAs (Decidable (_ ≠ _))
  | s, l :: r =>
    have : Decidable (ClosedFrom (s.readLine l) r) :=
      instDecidableClosedFrom (s.readLine l) r
    inferInstanceAs (Decidable (_ ∧ _))

/-- No line ends inside a character literal, every line that ends inside a string ends in a
backslash, and the text does not end inside a literal. -/
def LexicallyClosed (s : Text) : Prop := ClosedFrom .initial s.lines

instance (s : Text) : Decidable (LexicallyClosed s) :=
  inferInstanceAs (Decidable (ClosedFrom _ _))

/-! ## Outside literals -/

/-- Outside literals a line may end anywhere. -/
theorem Lex.mayEnd_of_not_isLiteral {lex : Lex} (h : lex.isLiteral = false) (line : Text) :
    lex.MayEnd line := by
  cases lex with
  | string | stringEscape | char | charEscape => cases h
  | code | slash | lineComment | blockComment | star => trivial

/-- Outside literals a blank leads to the same state behind the end of the line. -/
theorem Scan.endLine_read_blank {s : Scan} (h : s.lex.isLiteral = false) (directive : Bool)
    {c : Char} (hc : isBlank c = true) (line : Text) :
    (s.read directive c).lex.isLiteral = false
      ∧ endLine line (s.read directive c) = endLine line s := by
  rw [Scan.read_blank directive s hc]
  obtain ⟨lex, depth⟩ := s
  cases lex with
  | string | stringEscape | char | charEscape => cases h
  | code | slash | lineComment | blockComment | star => exact ⟨rfl, rfl⟩

theorem Scan.isLiteral_endLine {s : Scan} (h : s.lex.isLiteral = false) (line : Text) :
    (endLine line s).lex.isLiteral = false := by
  obtain ⟨lex, depth⟩ := s
  cases lex with
  | string | stringEscape | char | charEscape => cases h
  | code | slash | lineComment | blockComment | star => rfl

/-- Outside literals the end of a line does not depend on the line. -/
theorem Scan.endLine_congr {s : Scan} (h : s.lex.isLiteral = false) (line line' : Text) :
    endLine line s = endLine line' s := by
  obtain ⟨lex, depth⟩ := s
  cases lex with
  | string | stringEscape | char | charEscape => cases h
  | code | slash | lineComment | blockComment | star => rfl

/-- The scanner stands where a line may start: in code, in a comment or in a string. -/
def Scan.AtStart (s : Scan) : Prop := s.lex = .code ∨ s.lex = .blockComment ∨ s.lex = .string

/-- An empty line leaves the scanner as it is unless a string is open. -/
theorem Scan.readLine_nil {s : Scan} (hs : s.AtStart) (h : s.lex ≠ .string) :
    s.readLine [] = s := by
  obtain ⟨lex, depth⟩ := s
  rcases hs with rfl | rfl | rfl
  · rfl
  · rfl
  · exact absurd rfl h

namespace Reading

theorem scan_foldl_read (directive : Bool) (r : Reading) (l : Text) :
    (l.foldl (read directive) r).scan = l.foldl (Scan.read directive) r.scan := by
  induction l generalizing r with
  | nil => rfl
  | cons c l ih => exact ih (r.read directive c)

@[simp] theorem scan_atLineEnd (r : Reading) (l : Text) :
    (r.atLineEnd l).scan = r.scan.atLineEnd l :=
  scan_foldl_read _ r l

@[simp] theorem scan_readLine (r : Reading) (l : Text) :
    (r.readLine l).scan = r.scan.readLine l :=
  congrArg (Scan.endLine l) (scan_atLineEnd r l)

/-- Where a reading does not read anything of a literal, only the scanner and the literals before
tell it from another. -/
theorem ext_of_not_isLiteral {r r' : Reading} (h : r.scan.lex.isLiteral = false)
    (hscan : r'.scan = r.scan) (hfound : r'.found = r.found) : r' = r := by
  have hseen : r'.seen = r.seen := by
    rw [r.seen_eq_nil h, r'.seen_eq_nil (by rw [hscan, h])]
  exact Reading.ext hscan hseen hfound

theorem readLine_nil {r : Reading} (hs : r.scan.AtStart) (h : r.scan.lex ≠ .string) :
    r.readLine [] = r := by
  refine ext_of_not_isLiteral ?_ (Scan.readLine_nil hs h) rfl
  rcases hs with hlex | hlex | hlex
  · exact congrArg Lex.isLiteral hlex
  · exact congrArg Lex.isLiteral hlex
  · exact absurd hlex h

/-- Blanks at the end of a line outside literals make no difference. -/
theorem endLine_foldl_blanks {r : Reading} (h : r.scan.lex.isLiteral = false) (directive : Bool)
    {t : Text} (ht : ∀ c ∈ t, isBlank c = true) (line line' : Text) :
    endLine line (t.foldl (read directive) r) = endLine line' r := by
  induction t generalizing r with
  | nil =>
      exact ext_of_not_isLiteral (Scan.isLiteral_endLine h line') (Scan.endLine_congr h line line')
        rfl
  | cons c t ih =>
      rw [List.forall_mem_cons] at ht
      obtain ⟨hlex, hscan⟩ := Scan.endLine_read_blank h directive ht.1 line'
      rw [List.foldl_cons, ih hlex ht.2]
      refine ext_of_not_isLiteral (Scan.isLiteral_endLine h line') hscan ?_
      simp [endLine, read, h]

/-- Behind blanks the scanner is still inside a literal, and not behind a backslash. -/
theorem lex_foldl_blanks {s : Scan} (h : s.lex.isLiteral = true) (directive : Bool) {t : Text}
    (ht : ∀ c ∈ t, isBlank c = true) (hne : t ≠ []) :
    (t.foldl (Scan.read directive) s).lex = .string
      ∨ (t.foldl (Scan.read directive) s).lex = .char := by
  rw [Scan.foldl_read_blank directive s hne ht]
  obtain ⟨lex, depth⟩ := s
  cases lex with
  | code | slash | lineComment | blockComment | star => cases h
  | string | stringEscape => exact .inl rfl
  | char | charEscape => exact .inr rfl

theorem isDirective_trimEnd (s : Scan) (l : Text) :
    s.isDirective (body (trimEnd isBlank l)) = s.isDirective (body l) := by
  rw [body_trimEnd, Scan.isDirective, Scan.isDirective, head?_trimEnd_body]

/-! ## Lines in the place of others -/

/-- The line `l'` may stand in the place of `l`: it ends where a line may end, and the reading
behind it is the same. -/
structure LineReadsAs (r : Reading) (l' l : Text) : Prop where
  mayEnd : (r.scan.atLineEnd l').lex.MayEnd l'
  readLine_eq : r.readLine l' = r.readLine l

/-- Of the line itself its end sees the last character only. -/
theorem LineReadsAs.of_getLast? {r : Reading} {l' l : Text}
    (h : (r.scan.atLineEnd l).lex.MayEnd l) (hread : r.atLineEnd l' = r.atLineEnd l)
    (hlast : l'.getLast? = l.getLast?) : LineReadsAs r l' l := by
  have hscan := congrArg Reading.scan hread
  rw [scan_atLineEnd, scan_atLineEnd] at hscan
  constructor
  · rw [hscan]
    revert h
    cases (r.scan.atLineEnd l).lex <;> simp [Lex.MayEnd, hlast]
  · have hend : ∀ s : Scan, s.endLine l' = s.endLine l := fun s => by
      rw [Scan.endLine, Scan.endLine, hlast]
    rw [readLine, readLine, hread]
    ext1
    · exact hend _
    · simp only [endLine, hend]
    · rfl

/-- **Trimming a line that ends where it may changes no literal.** -/
theorem lineReadsAs_trimEnd {r : Reading} {l : Text} (h : (r.scan.atLineEnd l).lex.MayEnd l) :
    LineReadsAs r (trimEnd isBlank l) l := by
  obtain ⟨t, ht, hblank⟩ := trimEnd_append_exists isBlank l
  by_cases hnil : t = []
  · have hself : trimEnd isBlank l = l := by rw [hnil, List.append_nil] at ht; exact ht.symm
    rw [hself]
    exact ⟨h, rfl⟩
  have hread : r.atLineEnd l
      = t.foldl (read (r.scan.isDirective (body l))) (r.atLineEnd (trimEnd isBlank l)) := by
    rw [atLineEnd, atLineEnd, isDirective_trimEnd, ← List.foldl_append, ← ht]
  cases hlex : (r.scan.atLineEnd (trimEnd isBlank l)).lex.isLiteral with
  | false =>
      refine ⟨Lex.mayEnd_of_not_isLiteral hlex _, ?_⟩
      rw [readLine, readLine, hread, endLine_foldl_blanks (by rwa [scan_atLineEnd]) _ hblank]
  | true =>
      -- the line would end in a blank of a literal
      exfalso
      have hscan := congrArg Reading.scan hread
      rw [scan_atLineEnd, scan_foldl_read, scan_atLineEnd] at hscan
      rw [hscan] at h
      rcases lex_foldl_blanks hlex (r.scan.isDirective (body l)) hblank hnil with hend | hend
      · rw [hend] at h
        change l.getLast? = some '\\' at h
        rw [ht, List.getLast?_append_of_ne_nil _ hnil] at h
        exact absurd (hblank _ (List.mem_of_getLast? h)) (by decide)
      · rw [hend] at h
        exact h

/-- Blanks of code change nothing. -/
theorem foldl_read_blanks {r : Reading} (h : r.scan.lex = .code) (directive : Bool) {i : Text}
    (hi : ∀ c ∈ i, isBlank c = true) : i.foldl (read directive) r = r := by
  have hlit : r.scan.lex.isLiteral = false := by rw [h]; rfl
  have hcode : r.scan = ⟨.code, r.scan.depth⟩ := by rw [← h]
  induction i with
  | nil => rfl
  | cons c i ih =>
      rw [List.forall_mem_cons] at hi
      have hread : r.read directive c = r := by
        refine ext_of_not_isLiteral hlit ?_ (by simp [read, hlit])
        show r.scan.read directive c = r.scan
        rw [Scan.read_blank directive _ hi.1, h]
        exact hcode.symm
      rw [List.foldl_cons, hread, ih hi.2]

theorem atLineEnd_append_body {r : Reading} (h : r.scan.lex = .code) {i : Text}
    (hi : ∀ c ∈ i, isBlank c = true) (l : Text) :
    r.atLineEnd (i ++ body l)
      = (body l).foldl (read (r.scan.isDirective (body l))) r := by
  rw [atLineEnd, body_append hi, List.foldl_append, foldl_read_blanks h _ hi]

/-- **Indenting a line that ends where it may changes no literal.** -/
theorem lineReadsAs_indentLine {settings : Settings} {m : Margins} {r : Reading} {l : Text}
    (h : (r.scan.atLineEnd l).lex.MayEnd l) (pre suf : Nat) :
    LineReadsAs r (Indentation.indentLine settings m r.scan pre suf l) l := by
  unfold Indentation.indentLine
  cases hlevel : r.scan.level (body l) with
  | none => exact ⟨h, rfl⟩
  | some n =>
      dsimp only
      split
      · next hc =>
          have hcode : r.scan.lex = .code := by
            by_contra hlex
            rw [Scan.level, if_pos hlex] at hlevel
            cases hlevel
          have hblank := Indentation.isBlank_indentOf settings n
          have hmargin : ∀ c ∈ margin l, isBlank c = true := fun c hc => List.mem_takeWhile_imp hc
          have hread : r.atLineEnd (settings.indentOf n ++ body l) = r.atLineEnd l := by
            conv_rhs => rw [← margin_append_body l]
            rw [atLineEnd_append_body hcode hblank, atLineEnd_append_body hcode hmargin]
          have hlast : (settings.indentOf n ++ body l).getLast? = l.getLast? := by
            conv_rhs => rw [← margin_append_body l]
            rw [List.getLast?_append_of_ne_nil _ hc.1, List.getLast?_append_of_ne_nil _ hc.1]
          exact .of_getLast? h hread hlast
      · exact ⟨h, rfl⟩

/-! ## Lines in a row -/

/-- The lines `ls'` are closed, and reading them is reading `ls`. -/
structure ReadsAs (r : Reading) (ls' ls : List Text) : Prop where
  closed : ClosedFrom r.scan ls'
  foldl_eq : ls'.foldl readLine r = ls.foldl readLine r

theorem ReadsAs.trans {r : Reading} {ls₁ ls₂ ls₃ : List Text} (h₁ : ReadsAs r ls₁ ls₂)
    (h₂ : ReadsAs r ls₂ ls₃) : ReadsAs r ls₁ ls₃ :=
  ⟨h₁.closed, h₁.foldl_eq.trans h₂.foldl_eq⟩

theorem ReadsAs.cons {r : Reading} {l' l : Text} {ls' ls : List Text} (hl : LineReadsAs r l' l)
    (hls : ReadsAs (r.readLine l) ls' ls) : ReadsAs r (l' :: ls') (l :: ls) := by
  have hscan := congrArg Reading.scan hl.readLine_eq
  rw [scan_readLine, scan_readLine] at hscan
  refine ⟨⟨hl.mayEnd, ?_⟩, ?_⟩
  · rw [hscan, ← scan_readLine]
    exact hls.closed
  · rw [List.foldl_cons, List.foldl_cons, hl.readLine_eq]
    exact hls.foldl_eq

/-- Empty lines stand in closed lines only where no string is open. -/
theorem closedFrom_replicate_nil_append {s : Scan} (hs : s.AtStart) (k : Nat) (ls : List Text) :
    ClosedFrom s (List.replicate k [] ++ ls) ↔ (0 < k → s.lex ≠ .string) ∧ ClosedFrom s ls := by
  induction k with
  | zero => simp
  | succ k ih =>
      have hmay : (s.atLineEnd []).lex.MayEnd [] ↔ s.lex ≠ .string := by
        change s.lex.MayEnd [] ↔ _
        rcases hs with h | h | h <;> simp [h, Lex.MayEnd]
      rw [List.replicate_succ, List.cons_append, ClosedFrom, hmay]
      constructor
      · rintro ⟨hlex, hrest⟩
        rw [Scan.readLine_nil hs hlex] at hrest
        exact ⟨fun _ => hlex, (ih.mp hrest).2⟩
      · rintro ⟨hlex, hrest⟩
        have hlex := hlex k.succ_pos
        rw [Scan.readLine_nil hs hlex]
        exact ⟨hlex, ih.mpr ⟨fun _ => hlex, hrest⟩⟩

theorem foldl_readLine_replicate_nil_append {r : Reading} (hs : r.scan.AtStart) {k : Nat}
    (h : 0 < k → r.scan.lex ≠ .string) (ls : List Text) :
    (List.replicate k [] ++ ls).foldl readLine r = ls.foldl readLine r := by
  induction k with
  | zero => rfl
  | succ k ih =>
      have hlex := h k.succ_pos
      rw [List.replicate_succ, List.cons_append, List.foldl_cons, readLine_nil hs hlex,
        ih fun _ => hlex]

/-- Among closed lines the number of empty ones in front does not matter, if there are no more than
before. -/
theorem ReadsAs.replicate_nil_append {r : Reading} (hs : r.scan.AtStart) {k e : Nat}
    {ls' ls : List Text} (hclosed : ClosedFrom r.scan (List.replicate e [] ++ ls)) (hk : k ≤ e)
    (h : ClosedFrom r.scan ls → ReadsAs r ls' ls) :
    ReadsAs r (List.replicate k [] ++ ls') (List.replicate e [] ++ ls) := by
  obtain ⟨hlex, hrest⟩ := (closedFrom_replicate_nil_append hs e ls).mp hclosed
  have hlex' : 0 < k → r.scan.lex ≠ .string := fun hpos => hlex (by omega)
  obtain ⟨hclosed', hfold⟩ := h hrest
  refine ⟨(closedFrom_replicate_nil_append hs k ls').mpr ⟨hlex', hclosed'⟩, ?_⟩
  rw [foldl_readLine_replicate_nil_append hs hlex', foldl_readLine_replicate_nil_append hs hlex,
    hfold]

/-- **The cleanup of closed lines changes no literal.** -/
theorem readsAs_sweep (m : Margins) {r : Reading} (hs : r.scan.AtStart) (pre e : Nat)
    {ls : List Text} (h : ClosedFrom r.scan (List.replicate e [] ++ ls)) :
    ReadsAs r (Whitespace.sweep m pre e ls) (List.replicate e [] ++ ls) := by
  induction ls generalizing r pre e with
  | nil =>
      rw [Whitespace.sweep]
      split
      · -- the text ends outside strings, so an empty line at its end is harmless
        obtain ⟨-, hend⟩ := (closedFrom_replicate_nil_append hs e []).mp h
        have hone := foldl_readLine_replicate_nil_append hs (k := 1) (fun _ => hend) []
        have hclosed := (closedFrom_replicate_nil_append hs 1 []).mpr ⟨fun _ => hend, hend⟩
        refine ⟨hclosed, hone.trans ?_⟩
        rw [foldl_readLine_replicate_nil_append hs fun _ => hend]
      · rw [List.append_nil] at h ⊢
        exact ⟨h, rfl⟩
  | cons l ls ih =>
      rw [Whitespace.sweep]
      split
      · next hl =>
          subst hl
          have hempty : List.replicate e [] ++ [] :: ls = List.replicate (e + 1) [] ++ ls := by
            rw [List.replicate_succ', List.append_assoc, List.singleton_append]
          rw [hempty] at h ⊢
          exact ih hs pre (e + 1) h
      · dsimp only
        refine .replicate_nil_append hs h (Layout.kept_le _ _ _ _) ?_
        rintro ⟨hmay, hrest⟩
        refine .cons ?_ ?_
        · unfold Whitespace.trimLine
          split
          · exact lineReadsAs_trimEnd hmay
          · exact ⟨hmay, rfl⟩
        · refine ih ?_ _ 0 ?_
          · rw [scan_readLine]
            exact Scan.lex_endLine l _
          · rwa [scan_readLine]

/-- **Indenting closed lines changes no literal.** -/
theorem readsAs_reindent (settings : Settings) (m : Margins) {r : Reading} (pre : Nat)
    {ls : List Text} (h : ClosedFrom r.scan ls) :
    ReadsAs r (Indentation.reindent settings m r.scan pre ls) ls := by
  induction ls generalizing r pre with
  | nil => exact ⟨h, rfl⟩
  | cons l ls ih =>
      obtain ⟨hmay, hrest⟩ := h
      rw [Indentation.reindent, ← scan_readLine]
      rw [← scan_readLine] at hrest
      exact .cons (lineReadsAs_indentLine hmay _ _) (ih _ hrest)

end Reading

/-! ## A call -/

open Reading Progress in
/-- **The built-in rules change no literal of a closed text.** -/
theorem readsAs_final (settings : Settings) {p : Progress} (h : LexicallyClosed p.text) :
    ReadsAs .start (p.final settings).text.lines p.text.lines := by
  have hs : start.scan.AtStart := .inl rfl
  have hfirst : ReadsAs .start p.cleaned.text.lines p.text.lines := by
    rw [lines_cleaned]
    exact readsAs_sweep _ hs 0 0 h
  have hindent : ReadsAs .start (p.round settings).text.lines p.cleaned.text.lines := by
    rw [lines_round]
    exact readsAs_reindent settings _ 0 hfirst.closed
  have hlast : ReadsAs .start (p.final settings).text.lines (p.round settings).text.lines := by
    rw [Progress.final, lines_cleaned]
    exact readsAs_sweep _ hs 0 0 hindent.closed
  exact hlast.trans (hindent.trans hfirst)

namespace Engine

open Progress

/-- **Literals survive formatting.** Under all settings and in every range the literals of the
formatted text are those of the source with its line terminators unified, if that is lexically
closed; and the formatted text is closed again. -/
theorem formatWith_literals {g : Grammar} {settings : Settings} {source : Text} {tree : Tree}
    (hparse : (standard g).parse settings source = .ok tree)
    (hclosed : LexicallyClosed source.unifyPairs) :
    ∃ out, (standard g).formatWith settings source = .ok out
      ∧ literals out.text = literals source.unifyPairs ∧ LexicallyClosed out.text := by
  have hreads := readsAs_final settings (p := start settings source) hclosed
  exact ⟨_, formatWith_eq hparse, congrArg Reading.found hreads.foldl_eq, hreads.closed⟩

/-- A string that goes on over two lines and ends behind a quote, a quote as a character, and a
comment with an apostrophe, formatted with tabs from the second line on. -/
theorem formatWith_literals_continued :
    LexicallyClosed
        (unifyPairs "f \r\n\x7b s = \"a \\\r\n  \\\"b\" \n c = '\"' // it's\n\x7d".toList)
      ∧ ∃ out, (standard fun _ => default).formatWith { useTabs := true, rangeStart := 4 }
          "f \r\n\x7b s = \"a \\\r\n  \\\"b\" \n c = '\"' // it's\n\x7d".toList = .ok out
        ∧ literals out.text = ["\"a \\\n  \\\"b\"".toList, "'\"'".toList]
        ∧ LexicallyClosed out.text := by
  have hclosed : LexicallyClosed
      (unifyPairs "f \r\n\x7b s = \"a \\\r\n  \\\"b\" \n c = '\"' // it's\n\x7d".toList) := by
    decide
  obtain ⟨out, hout, hliterals, hclosed'⟩ := formatWith_literals
    (parse_default { useTabs := true, rangeStart := 4 } _) hclosed
  exact ⟨hclosed, out, hout, hliterals.trans (by decide), hclosed'⟩

end Engine

end CaplLayout
