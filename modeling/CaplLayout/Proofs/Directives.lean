import CaplLayout.Proofs.Braces

/-!
# Directives of several lines

A directive whose line ends in a backslash goes on in the next line. The scanner does not look for
the backslash: it asks line by line whether a `#` comes first, so the braces on the other lines of a
directive count. `levels_directive_iff` says when that can be seen. A brace of such a line, replaced
by a letter, leaves the levels of all lines outside the directive as they are exactly if behind the
directive as many braces are open as before, or if no line shows the difference.

The two runs of the scanner differ in one open brace (`deeper`). They stay apart until a closing
brace has no partner in the one and that open brace in the other (`readLine_deeper`), and until
then every line of code shows it, but for directives and lines with a closing brace at level zero
(`level_deeper_iff`). Nothing else can hide the difference (`levelsOf_deeper_iff`).
-/

set_option autoImplicit false

namespace CaplLayout

open Text

namespace Scan

/-! ## The levels of lines -/

/-- The levels of the lines `ls`, when the first starts in the state `s`. -/
def levelsOf (s : Scan) : List Text → List (Option Nat)
  | [] => []
  | l :: r => s.level (body l) :: (s.readLine l).levelsOf r

theorem length_levelsOf (s : Scan) (ls : List Text) : (s.levelsOf ls).length = ls.length := by
  induction ls generalizing s with
  | nil => rfl
  | cons l r ih => rw [levelsOf, List.length_cons, ih, List.length_cons]

theorem levelsOf_append (s : Scan) (ls ms : List Text) :
    s.levelsOf (ls ++ ms) = s.levelsOf ls ++ (ls.foldl readLine s).levelsOf ms := by
  induction ls generalizing s with
  | nil => rfl
  | cons l r ih => rw [List.cons_append, levelsOf, levelsOf, ih, List.foldl_cons, List.cons_append]

/-! ## One more open brace -/

/-- The same place, when one more brace is open. -/
def deeper (s : Scan) : Scan := ⟨s.lex, s.depth + 1⟩

/-- A closing brace of code that no open brace belongs to. -/
def Surplus (directive : Bool) (s : Scan) (c : Char) : Prop :=
  c = '\x7d' ∧ s.lex.isCode = true ∧ directive = false ∧ s.depth = 0

instance (directive : Bool) (s : Scan) (c : Char) : Decidable (s.Surplus directive c) :=
  inferInstanceAs (Decidable (_ ∧ _))

/-- A closing brace of the text is surplus. -/
def AnySurplus (directive : Bool) : Scan → Text → Prop
  | _, [] => False
  | s, c :: t => s.Surplus directive c ∨ AnySurplus directive (s.read directive c) t

instance decidableAnySurplus (directive : Bool) :
    (s : Scan) → (t : Text) → Decidable (AnySurplus directive s t)
  | _, [] => inferInstanceAs (Decidable False)
  | s, c :: t =>
    have := decidableAnySurplus directive (s.read directive c) t
    inferInstanceAs (Decidable (_ ∨ _))

theorem readCode_deeper (directive : Bool) (n : Nat) (c : Char) :
    readCode directive (n + 1) c
      = if c = '\x7d' ∧ directive = false ∧ n = 0 then readCode directive n c
        else (readCode directive n c).deeper := by
  by_cases hc : c = '\x7d'
  · subst hc
    cases directive with
    | true => rfl
    | false =>
        cases n with
        | zero => rfl
        | succ n => rfl
  · rw [if_neg (fun h => hc h.1)]
    simp only [readCode, if_neg hc]
    split_ifs
    all_goals rfl

/-- **A surplus closing brace takes the one more open brace**, all other characters leave it. -/
theorem read_deeper (directive : Bool) (s : Scan) (c : Char) :
    s.deeper.read directive c
      = if s.Surplus directive c then s.read directive c else (s.read directive c).deeper := by
  obtain ⟨lex, depth⟩ := s
  cases hlex : lex.isCode with
  | true =>
      have hsurplus : (Surplus directive ⟨lex, depth⟩ c)
          ↔ c = '\x7d' ∧ directive = false ∧ depth = 0 := by
        simp [Surplus, hlex]
      have hcode := readCode_deeper directive depth c
      simp only [hsurplus]
      cases lex with
      | code => exact hcode
      | slash =>
          by_cases hslash : c = '/'
          · subst hslash
            rfl
          · by_cases hstar : c = '*'
            · subst hstar
              rfl
            · simp only [read, deeper, if_neg hslash, if_neg hstar]
              exact hcode
      | _ => cases hlex
  | false =>
      have hsurplus : ¬ Surplus directive ⟨lex, depth⟩ c := by
        simp [Surplus, hlex]
      rw [if_neg hsurplus]
      cases lex with
      | code | slash => cases hlex
      | lineComment | stringEscape | charEscape => rfl
      | blockComment | star | string | char =>
          simp only [read, deeper]
          split_ifs
          all_goals rfl

theorem foldl_read_deeper (directive : Bool) (s : Scan) (t : Text) :
    t.foldl (read directive) s.deeper
      = if AnySurplus directive s t then t.foldl (read directive) s
        else (t.foldl (read directive) s).deeper := by
  induction t generalizing s with
  | nil => rfl
  | cons c t ih =>
      rw [List.foldl_cons, List.foldl_cons, read_deeper]
      by_cases hc : s.Surplus directive c
      · rw [if_pos hc, if_pos (show AnySurplus directive s (c :: t) from .inl hc)]
      · -- still one brace apart, so only the rest of the text can bring the runs together
        rw [if_neg hc, ih]
        have hany : AnySurplus directive s (c :: t)
            ↔ AnySurplus directive (s.read directive c) t := or_iff_right hc
        simp only [hany]

/-- A closing brace of the line is surplus. -/
def LineSurplus (s : Scan) (l : Text) : Prop := AnySurplus (s.isDirective (body l)) s l

instance (s : Scan) (l : Text) : Decidable (s.LineSurplus l) :=
  decidableAnySurplus _ _ _

theorem endLine_deeper (l : Text) (s : Scan) : endLine l s.deeper = (endLine l s).deeper := by
  obtain ⟨lex, depth⟩ := s
  cases lex with
  | string | stringEscape =>
      simp only [endLine, deeper]
      split
      · rfl
      · rfl
  | _ => rfl

theorem readLine_deeper (s : Scan) (l : Text) :
    s.deeper.readLine l = if s.LineSurplus l then s.readLine l else (s.readLine l).deeper := by
  have hread := foldl_read_deeper (s.isDirective (body l)) s l
  change s.deeper.atLineEnd l = if s.LineSurplus l then s.atLineEnd l else (s.atLineEnd l).deeper
    at hread
  rw [readLine_eq, readLine_eq, hread]
  split
  · rfl
  · exact endLine_deeper _ _

/-- The level of the line shows how many braces are open. -/
def Shows (s : Scan) (body : Text) : Prop :=
  s.lex = .code ∧ body.head? ≠ some '#' ∧ (body.head? = some '\x7d' → 0 < s.depth)

instance (s : Scan) (body : Text) : Decidable (s.Shows body) :=
  inferInstanceAs (Decidable (_ ∧ _))

theorem level_deeper_iff (s : Scan) (body : Text) :
    s.deeper.level body = s.level body ↔ ¬ s.Shows body := by
  obtain ⟨lex, depth⟩ := s
  by_cases hlex : lex = .code
  · subst hlex
    by_cases hhash : body.head? = some '#'
    · simp [level, deeper, Shows, hhash]
    · by_cases hbrace : body.head? = some '\x7d'
      · simp [level, deeper, Shows, hbrace]
        omega
      · simp [level, deeper, Shows, hhash, hbrace]
  · simp [level, deeper, Shows, hlex]

/-- No line shows that one more brace is open, up to a surplus closing brace. -/
def Hides : Scan → List Text → Prop
  | _, [] => True
  | s, l :: r => ¬ s.Shows (body l) ∧ (s.LineSurplus l ∨ Hides (s.readLine l) r)

instance decidableHides : (s : Scan) → (ls : List Text) → Decidable (s.Hides ls)
  | _, [] => inferInstanceAs (Decidable True)
  | s, l :: r =>
    have := decidableHides (s.readLine l) r
    inferInstanceAs (Decidable (_ ∧ _))

/-- **When the levels do not tell** whether one more brace is open. -/
theorem levelsOf_deeper_iff (s : Scan) (ls : List Text) :
    s.deeper.levelsOf ls = s.levelsOf ls ↔ s.Hides ls := by
  induction ls generalizing s with
  | nil => exact iff_of_true rfl trivial
  | cons l r ih =>
      rw [levelsOf, levelsOf, List.cons.injEq, level_deeper_iff, readLine_deeper, Hides]
      refine and_congr_right fun _ => ?_
      -- the runs meet behind this line, or are as far apart as before
      by_cases hl : s.LineSurplus l
      · simp [hl]
      · simp [hl, ih]

/-- Counts that differ by at most one. -/
def Near (m n : Nat) : Prop := m ≤ n + 1 ∧ n ≤ m + 1

/-- The same for any two numbers of open braces that differ by at most one. -/
theorem levelsOf_eq_iff_of_near (lex : Lex) {m n : Nat} (h : Near m n) (ls : List Text) :
    levelsOf ⟨lex, m⟩ ls = levelsOf ⟨lex, n⟩ ls ↔ m = n ∨ Hides ⟨lex, min m n⟩ ls := by
  have hdeeper := fun k => levelsOf_deeper_iff ⟨lex, k⟩ ls
  obtain heq | hmore | hless : m = n ∨ m = n + 1 ∨ n = m + 1 := by
    have := h.1
    have := h.2
    omega
  · exact iff_of_true (heq ▸ rfl) (.inl heq)
  · rw [hmore, or_iff_right (by omega), min_eq_right (by omega)]
    exact hdeeper n
  · rw [hless, or_iff_right (by omega), min_eq_left (by omega), eq_comm]
    exact hdeeper m

/-! ## Counting braces -/

/-- No character of the text begins a literal or a comment. -/
def IsBare : Text → Prop
  | [] => True
  | c :: t =>
    c ≠ '"' ∧ c ≠ '\'' ∧ (c = '/' → t.head? ≠ some '/' ∧ t.head? ≠ some '*') ∧ IsBare t

instance decidableIsBare : (t : Text) → Decidable (IsBare t)
  | [] => inferInstanceAs (Decidable True)
  | _ :: t =>
    have := decidableIsBare t
    inferInstanceAs (Decidable (_ ∧ _))

/-- Counts a brace. -/
def countBrace (n : Nat) (c : Char) : Nat :=
  if c = '\x7b' then n + 1 else if c = '\x7d' then n - 1 else n

/-- The number of open braces behind a line without literals and comments. Only the line of the
`#` itself is exempt. -/
def countLine (n : Nat) (l : Text) : Nat :=
  if (body l).head? = some '#' then n else l.foldl countBrace n

theorem countLine_of_isDirective {s : Scan} {l : Text} (h : s.isDirective (body l) = true)
    (n : Nat) : countLine n l = n := by
  rw [isDirective, Bool.and_eq_true, beq_iff_eq, beq_iff_eq] at h
  exact if_pos h.2

theorem readCode_of_bare {c : Char} (hquote : c ≠ '"') (hapostrophe : c ≠ '\'') (directive : Bool)
    (n : Nat) :
    readCode directive n c
      = ⟨if c = '/' then .slash else .code, if directive then n else countBrace n c⟩ := by
  unfold readCode countBrace
  by_cases hslash : c = '/'
  · subst hslash
    simp
  · simp only [if_neg hslash, if_neg hquote, if_neg hapostrophe]
    split_ifs
    all_goals rfl

/-- Reading a text that is bare, also behind a slash that it does not make a comment. -/
theorem foldl_read_of_isBare (directive : Bool) {s : Scan} {t : Text} (hcode : s.lex.isCode = true)
    (hslash : s.lex = .slash → t.head? ≠ some '/' ∧ t.head? ≠ some '*') (ht : IsBare t) :
    (t.foldl (read directive) s).lex.isCode = true ∧
      (t.foldl (read directive) s).depth
        = if directive then s.depth else t.foldl countBrace s.depth := by
  -- the scanner stays in code as long as it is not behind a slash that the next character completes
  induction t generalizing s with
  | nil => exact ⟨hcode, by simp⟩
  | cons c t ih =>
      obtain ⟨hquote, hapostrophe, hnext, ht⟩ := ht
      have hread : s.read directive c
          = ⟨if c = '/' then .slash else .code,
              if directive then s.depth else countBrace s.depth c⟩ := by
        have hbare := readCode_of_bare hquote hapostrophe directive s.depth
        obtain ⟨lex, depth⟩ := s
        cases lex with
        | code => exact hbare
        | slash =>
            have hc : c ≠ '/' ∧ c ≠ '*' := by simpa using hslash rfl
            rw [read, if_neg hc.1, if_neg hc.2]
            exact hbare
        | _ => cases hcode
      have hafter : (s.read directive c).lex.isCode = true
          ∧ ((s.read directive c).lex = .slash → t.head? ≠ some '/' ∧ t.head? ≠ some '*') := by
        rw [hread]
        by_cases hc : c = '/'
        · exact ⟨by simp [hc, Lex.isCode], fun _ => hnext hc⟩
        · simp [hc, Lex.isCode]
      obtain ⟨hrest, hdepth⟩ := ih hafter.1 hafter.2 ht
      refine ⟨hrest, ?_⟩
      rw [List.foldl_cons, List.foldl_cons, hdepth, hread]
      cases directive with
      | true => rfl
      | false => rfl

/-- A plain character begins neither a literal nor a comment. -/
theorem isBare_replace {x y : Text} {b c : Char} (hc : IsPlain c) (h : IsBare (x ++ b :: y)) :
    IsBare (x ++ c :: y) := by
  induction x with
  | nil => exact ⟨hc.quote, hc.apostrophe, fun hslash => absurd hslash hc.slash, h.2.2.2⟩
  | cons d x ih =>
      obtain ⟨hquote, hapostrophe, hnext, h⟩ := h
      refine ⟨hquote, hapostrophe, fun hslash => ?_, ih h⟩
      cases x with
      | nil => simp [hc.slash, hc.star]
      | cons e x => exact hnext hslash

theorem readLine_of_isBare (n : Nat) {l : Text} (hl : IsBare l) :
    readLine ⟨.code, n⟩ l = ⟨.code, countLine n l⟩ := by
  have hend : ∀ s : Scan, s.lex.isCode = true → endLine l s = ⟨.code, s.depth⟩ := by
    rintro ⟨lex, depth⟩ hs
    cases lex with
    | code | slash => rfl
    | _ => cases hs
  obtain ⟨hcode, hdepth⟩ := foldl_read_of_isBare (isDirective ⟨.code, n⟩ (body l))
    (s := ⟨.code, n⟩) rfl nofun hl
  rw [readLine, hend _ hcode, hdepth]
  simp [countLine, isDirective]

theorem foldl_readLine_of_isBare (n : Nat) {ls : List Text} (h : ∀ l ∈ ls, IsBare l) :
    ls.foldl readLine ⟨.code, n⟩ = ⟨.code, ls.foldl countLine n⟩ := by
  induction ls generalizing n with
  | nil => rfl
  | cons l ls ih =>
      rw [List.forall_mem_cons] at h
      rw [List.foldl_cons, readLine_of_isBare n h.1, ih _ h.2, List.foldl_cons]

theorem Near.foldl_countBrace {m n : Nat} (h : Near m n) (t : Text) :
    Near (t.foldl countBrace m) (t.foldl countBrace n) := by
  induction t generalizing m n with
  | nil => exact h
  | cons c t ih =>
      apply ih
      unfold Near countBrace at *
      split_ifs
      all_goals omega

theorem Near.foldl_countLine {m n : Nat} (h : Near m n) (ls : List Text) :
    Near (ls.foldl countLine m) (ls.foldl countLine n) := by
  induction ls generalizing m n with
  | nil => exact h
  | cons l ls ih =>
      apply ih
      unfold countLine
      split
      · exact h
      · exact h.foldl_countBrace l

theorem countLine_replace {b c : Char} (hb : b = '\x7b' ∨ b = '\x7d') (hc : IsPlain c)
    (hbrace : c ≠ '\x7b' ∧ c ≠ '\x7d') (n : Nat) (x y : Text) :
    Near (countLine n (x ++ c :: y)) (countLine n (x ++ b :: y)) := by
  have hcount : ∀ k : Nat, Near (countBrace k c) (countBrace k b) := by
    intro k
    rcases hb with rfl | rfl
    · simp [countBrace, hbrace, Near]
      omega
    · simp [countBrace, hbrace, Near]
      omega
  simp only [countLine, head?_body_append_cons hc, head?_body_append_cons (isPlain_of_brace hb)]
  split
  · exact ⟨by omega, by omega⟩
  · rw [List.foldl_append, List.foldl_append, List.foldl_cons, List.foldl_cons]
    exact (hcount _).foldl_countBrace y

end Scan

namespace Line

open Scan

theorem map_level_listFrom (s : Scan) (start : Nat) (ls : List Text) :
    (listFrom s start ls).map level = s.levelsOf ls := by
  induction ls generalizing s start with
  | nil => rfl
  | cons l r ih => rw [listFrom, List.map_cons, ih, levelsOf]; rfl

/-! ## Directives -/

/-- The lines `l` and `ds` are a directive in front of the lines `r`, without literals and comments:
it goes on behind each backslash at the end of a line. -/
structure IsWholeDirective (s : Scan) (l : Text) (ds r : List Text) : Prop where
  first : s.isDirective (body l) = true
  goesOn : ∀ m ∈ (l :: ds).dropLast, m.getLast? = some '\\'
  ends : r ≠ [] → ((l :: ds).getLast (List.cons_ne_nil l ds)).getLast? ≠ some '\\'
  bare : ∀ m ∈ l :: ds, IsBare m

/-- The braces of the lines behind the first count. -/
theorem foldl_readLine_directive {s : Scan} {l : Text} {ds : List Text}
    (hfirst : s.isDirective (body l) = true) (hbare : ∀ m ∈ l :: ds, IsBare m) :
    (l :: ds).foldl readLine s = ⟨.code, ds.foldl countLine s.depth⟩ := by
  obtain ⟨lex, depth⟩ := s
  have hcode := hfirst
  rw [isDirective, Bool.and_eq_true, beq_iff_eq] at hcode
  obtain rfl : lex = .code := hcode.1
  rw [foldl_readLine_of_isBare depth hbare, List.foldl_cons, countLine_of_isDirective hfirst]

/-- Lists that may differ in the middle are equal outside of it exactly if they end alike. -/
theorem getElem?_outside_iff {α : Type} {m n : Nat} {as bs bs' cs cs' : List α}
    (ha : as.length = m) (hb : bs.length = n) (hb' : bs'.length = n) :
    (∀ k, k < m ∨ m + n ≤ k → (as ++ (bs ++ cs))[k]? = (as ++ (bs' ++ cs'))[k]?) ↔ cs = cs' := by
  -- behind the middle only the ends are left
  have hend : ∀ {ds es : List α}, ds.length = n → ∀ k, m + n ≤ k →
      (as ++ (ds ++ es))[k]? = es[k - (m + n)]? := by
    intro ds es hd k hk
    rw [← List.append_assoc, List.getElem?_append_right (by simp; omega), List.length_append, ha,
      hd]
  constructor
  · intro h
    apply List.ext_getElem?
    intro i
    have hi := h (m + n + i) (.inr (by omega))
    rwa [hend hb _ (by omega), hend hb' _ (by omega), Nat.add_sub_cancel_left] at hi
  · rintro rfl k (hk | hk)
    · rw [List.getElem?_append_left (by omega), List.getElem?_append_left (by omega)]
    · rw [hend hb k hk, hend hb' k hk]

/-- **A brace on a later line of a directive** may be replaced by a letter, or by any other plain
character, without an effect on the levels of the lines outside, exactly if it makes no difference
behind the directive, or if the lines there do not show it. -/
theorem levels_directive_iff {u v l x y : Text} {ls ds es r : List Text} {b c : Char}
    (hu : u.lines = ls ++ l :: (ds ++ [x])) (hv : v.lines = y :: (es ++ r))
    (hd : IsWholeDirective (ls.foldl readLine .initial) l (ds ++ (x ++ b :: y) :: es) r)
    (hb : b = '\x7b' ∨ b = '\x7d') (hc : IsPlain c) (hbrace : c ≠ '\x7b' ∧ c ≠ '\x7d') :
    let lineCount := (l :: (ds ++ (x ++ b :: y) :: es)).length
    let behind := fun d : Char =>
      (ds ++ (x ++ d :: y) :: es).foldl countLine (ls.foldl readLine .initial).depth
    (∀ k, k < ls.length ∨ ls.length + lineCount ≤ k →
      ((ofSource (u ++ c :: v)).map level)[k]? = ((ofSource (u ++ b :: v)).map level)[k]?)
      ↔ behind c = behind b ∨ Hides ⟨.code, min (behind c) (behind b)⟩ r := by
  intro lineCount behind
  -- the lines outside are the same with either character
  have hlines : ∀ d : Char, d ≠ '\n' →
      (u ++ d :: v).lines = ls ++ ((l :: (ds ++ (x ++ d :: y) :: es)) ++ r) := by
    intro d hfeed
    have hu : u.lines = (ls ++ l :: ds) ++ [x] := by simpa using hu
    have hv : lines (d :: v) = (d :: y) :: (es ++ r) := by
      rw [lines, if_neg hfeed, hv, consLine]
    simpa using lines_append_eq hu hv
  -- so their levels depend on the number of braces behind the directive only
  have hlevels : ∀ d : Char, IsPlain d → (ofSource (u ++ d :: v)).map level
      = initial.levelsOf ls ++ ((ls.foldl readLine initial).levelsOf
          (l :: (ds ++ (x ++ d :: y) :: es)) ++ levelsOf ⟨.code, behind d⟩ r) := by
    intro d hplain
    have hbare : ∀ m ∈ l :: (ds ++ (x ++ d :: y) :: es), IsBare m := by
      have hb := hd.bare
      rw [List.forall_mem_cons, List.forall_mem_append, List.forall_mem_cons] at hb ⊢
      exact ⟨hb.1, hb.2.1, isBare_replace hplain hb.2.2.1, hb.2.2.2⟩
    rw [ofSource, hlines d hplain.feed, map_level_listFrom, levelsOf_append, levelsOf_append,
      foldl_readLine_directive hd.first hbare]
  have hnear : Near (behind c) (behind b) := by
    show Near (List.foldl _ _ (ds ++ _ :: es)) (List.foldl _ _ (ds ++ _ :: es))
    rw [List.foldl_append, List.foldl_append, List.foldl_cons, List.foldl_cons]
    exact (countLine_replace hb hc hbrace _ x y).foldl_countLine es
  rw [hlevels c hc, hlevels b (isPlain_of_brace hb), ← levelsOf_eq_iff_of_near .code hnear]
  exact getElem?_outside_iff (length_levelsOf _ _) (by simp [length_levelsOf, lineCount])
    (by simp [length_levelsOf, lineCount])

/-- A brace that a line behind the directive closes: the closing brace stands at level zero also
without it. -/
theorem levels_directive_iff_closed :
    let u : Text := "#define A \\\n ".toList
    let v : Text := "\n\x7d\n".toList
    IsWholeDirective .initial "#define A \\".toList [" \x7b".toList] ["\x7d".toList, []]
      ∧ ∀ k, 2 ≤ k →
        ((ofSource (u ++ 'a' :: v)).map level)[k]?
          = ((ofSource (u ++ '\x7b' :: v)).map level)[k]? := by
  intro u v
  have hu : u.lines = [] ++ "#define A \\".toList :: ([] ++ [" ".toList]) := by decide
  have hv : v.lines = [] :: ([] ++ ["\x7d".toList, []]) := by decide
  have hd : IsWholeDirective .initial "#define A \\".toList [" \x7b".toList] ["\x7d".toList, []] :=
    ⟨by decide, by decide, by decide, by decide⟩
  have hiff := levels_directive_iff (b := '\x7b') (c := 'a') hu hv hd (.inl rfl)
    (isPlain_of_isAlpha (by decide)) (by decide)
  exact ⟨hd, fun k hk => hiff.mpr (.inr (by decide)) k (.inr hk)⟩

/-- **The braces of a directive of several lines count**: a line behind one goes to level one. -/
theorem exists_levels_directive_ne :
    IsWholeDirective .initial "#define A \\".toList ["\x7b".toList] ["x".toList, []]
      ∧ (ofSource "#define A \\\n\x7b\nx\n".toList).map level = [some 0, some 0, some 1, some 1]
      ∧ (ofSource "#define A \\\na\nx\n".toList).map level = [some 0, some 0, some 0, some 0] :=
  ⟨⟨by decide, by decide, by decide, by decide⟩, by decide, by decide⟩

end Line

end CaplLayout
