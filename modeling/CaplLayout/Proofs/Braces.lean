import CaplLayout.Proofs.Literals

/-!
# Braces outside code

A brace counts only where the scanner reads code. In a comment, in a literal and on the line of a
directive it may be replaced by any other plain character: every line keeps its start, its
indentation and its level (`measures_replace`).

The two runs of the scanner meet again behind the character that is replaced, because outside code
all plain characters are read alike (`read_eq_of_isPlain`). At both ends of the line something is
left to check. In front, a line that starts with a closing brace stands at a level of its own, but
such a line starts in code or has no level at all (`level_replace`). At the end the scanner looks at
the last character, but only for a backslash (`readLine_replace`).
-/

set_option autoImplicit false

namespace CaplLayout

open Text

/-! ## Where braces do not count -/

/-- The scanner reads code, perhaps behind a slash that may begin a comment. -/
def Lex.isCode : Lex → Bool
  | .code | .slash => true
  | _ => false

/-- A character that means nothing in comments and literals: it neither ends nor escapes anything,
and it is no layout. Letters are plain, and so are braces. -/
structure IsPlain (c : Char) : Prop where
  slash : c ≠ '/'
  star : c ≠ '*'
  quote : c ≠ '"'
  apostrophe : c ≠ '\''
  backslash : c ≠ '\\'
  hash : c ≠ '#'
  blank : isBlank c = false
  feed : c ≠ '\n'

theorem isPlain_of_isAlpha {c : Char} (h : c.isAlpha = true) : IsPlain c := by
  have hne : ∀ d : Char, d.isAlpha = false → c ≠ d := by
    intro d hd heq
    rw [heq, hd] at h
    cases h
  have hblank : isBlank c = false := by
    simp [isBlank, hne ' ' (by decide), hne '\t' (by decide)]
  constructor
  case blank => exact hblank
  all_goals exact hne _ (by decide)

theorem isPlain_of_brace {c : Char} (h : c = '\x7b' ∨ c = '\x7d') : IsPlain c := by
  rcases h with rfl | rfl
  · constructor <;> decide
  · constructor <;> decide

namespace Scan

/-- What stands behind the last line feed of a text. -/
def lastLine (s : Text) : Text := s.lines.getLastD []

/-- Where the scanner stands behind a text, when the last line goes on. -/
def behindText (s : Text) : Scan := (atLastLine s).atLineEnd (lastLine s)

/-- What stands behind the text `s` is read in a comment, in a literal or on the line of a
directive. -/
def OutsideCode (s : Text) : Prop :=
  (atLastLine s).isDirective (body (lastLine s)) = true ∨ (behindText s).lex.isCode = false

instance (s : Text) : Decidable (OutsideCode s) := inferInstanceAs (Decidable (_ ∨ _))

/-! ## Reading a plain character -/

/-- **Outside code all plain characters are read alike.** -/
theorem read_eq_of_isPlain {s : Scan} {directive : Bool} {b c : Char} (hb : IsPlain b)
    (hc : IsPlain c) (h : directive = true ∨ s.lex.isCode = false) :
    s.read directive b = s.read directive c := by
  obtain ⟨lex, depth⟩ := s
  -- in code only the line of a directive is left
  have hcode : lex.isCode = true → directive = true := by
    intro hlex
    rcases h with h | h
    · exact h
    · change lex.isCode = false at h
      rw [hlex] at h
      cases h
  cases lex with
  | code | slash =>
      rw [hcode rfl]
      simp [read, readCode, hb.slash, hb.star, hb.quote, hb.apostrophe, hc.slash, hc.star, hc.quote,
        hc.apostrophe]
  | lineComment => rfl
  | blockComment | star => simp [read, hb.slash, hb.star, hc.slash, hc.star]
  | string | stringEscape => simp [read, hb.quote, hb.backslash, hc.quote, hc.backslash]
  | char | charEscape => simp [read, hb.apostrophe, hb.backslash, hc.apostrophe, hc.backslash]

/-! ## The line of the character -/

section

variable {s : Scan} {x y : Text} {b c : Char}

theorem body_append_cons (hb : isBlank b = false) (x y : Text) :
    body (x ++ b :: y) = body x ++ b :: y := by
  rw [body, List.dropWhile_append, List.dropWhile_cons_of_neg (by simp [hb])]
  split
  · next hx => exact congrArg (· ++ b :: y) (List.isEmpty_iff.mp hx).symm
  · rfl

/-- Whether a line is a directive has been decided in front of a plain character. -/
theorem head?_body_append_cons (hb : IsPlain b) :
    (body (x ++ b :: y)).head? = some '#' ↔ (body x).head? = some '#' := by
  rw [body_append_cons hb.blank]
  cases body x with
  | nil => simp [hb.hash]
  | cons d t => rfl

theorem isDirective_append_cons (hb : IsPlain b) :
    s.isDirective (body (x ++ b :: y)) = s.isDirective (body x) := by
  rw [Bool.eq_iff_iff]
  simp [isDirective, head?_body_append_cons hb]

/-- **The level of a line** does not depend on a plain character that is read outside code: in front
of it there is another one, or the line has no level. -/
theorem level_replace (hb : IsPlain b) (hc : IsPlain c)
    (h : s.isDirective (body x) = true ∨ (s.atLineEnd x).lex.isCode = false) :
    s.level (body (x ++ b :: y)) = s.level (body (x ++ c :: y)) := by
  rw [body_append_cons hb.blank, body_append_cons hc.blank]
  cases hx : body x with
  | cons d t => rfl
  | nil =>
      have hblank : ∀ d ∈ x, isBlank d = true := List.dropWhile_eq_nil_iff.mp hx
      have hlex : s.lex ≠ .code := by
        intro hlex
        obtain ⟨lex, depth⟩ := s
        cases hlex
        -- behind blanks of code the scanner is in code, and the line is no directive so far
        rw [hx, atLineEnd, Layout.foldl_read_blanks _ _ hblank] at h
        rcases h with h | h
        · cases h
        · cases h
      rw [level, level, if_pos hlex, if_pos hlex]

/-- **Behind the line** the scanner has not noticed that a plain character outside code has been
replaced. -/
theorem readLine_replace (hb : IsPlain b) (hc : IsPlain c)
    (h : s.isDirective (body x) = true ∨ (s.atLineEnd x).lex.isCode = false) :
    s.readLine (x ++ b :: y) = s.readLine (x ++ c :: y) := by
  have hread : s.atLineEnd (x ++ b :: y) = s.atLineEnd (x ++ c :: y) := by
    have hmeet := read_eq_of_isPlain hb hc h
    rw [atLineEnd, atLineEnd, isDirective_append_cons hb, isDirective_append_cons hc,
      List.foldl_append, List.foldl_append, List.foldl_cons, List.foldl_cons]
    change List.foldl _ (read _ (s.atLineEnd x) b) y = List.foldl _ (read _ (s.atLineEnd x) c) y
    rw [hmeet]
  have hlast : (x ++ b :: y).getLast? = some '\\' ↔ (x ++ c :: y).getLast? = some '\\' := by
    cases y with
    | nil => simp [hb.backslash, hc.backslash]
    | cons d y => simp
  have hend : ∀ t : Scan, endLine (x ++ b :: y) t = endLine (x ++ c :: y) t := by
    intro t
    unfold endLine
    simp only [hlast]
  rw [readLine_eq, readLine_eq, hread, hend]

end

end Scan

namespace Line

open Scan

/-! ## All lines -/

/-- Where a line starts, where its indentation ends, and its level. -/
def measures (l : Line) : Nat × Nat × Option Nat := (l.start, l.indentEnd, l.level)

variable {s : Scan} {x y : Text} {b c : Char}

theorem measures_ofText_replace (start : Nat) (hb : IsPlain b) (hc : IsPlain c)
    (h : s.isDirective (body x) = true ∨ (s.atLineEnd x).lex.isCode = false) :
    (ofText s start (x ++ b :: y)).measures = (ofText s start (x ++ c :: y)).measures := by
  have hindent : ∀ d : Char, isBlank d = false →
      (margin (x ++ d :: y)).length = (margin x).length := by
    intro d hd
    have hline := length_margin_add_body (x ++ d :: y)
    have hfront := length_margin_add_body x
    rw [body_append_cons hd, List.length_append, List.length_append] at hline
    omega
  have hend : (ofText s start (x ++ b :: y)).indentEnd
      = (ofText s start (x ++ c :: y)).indentEnd := by
    show start + (margin (x ++ b :: y)).length = start + (margin (x ++ c :: y)).length
    rw [hindent b hb.blank, hindent c hc.blank]
  have hlevel := level_replace (y := y) hb hc h
  rw [measures, measures, hend]
  exact congrArg (fun n => (start, _, n)) hlevel

/-- The measures of all lines, when one character of one line is replaced outside code. -/
theorem measures_listFrom_replace (start : Nat) (hb : IsPlain b) (hc : IsPlain c) (ls r : List Text)
    (h : (ls.foldl readLine s).isDirective (body x) = true
      ∨ ((ls.foldl readLine s).atLineEnd x).lex.isCode = false) :
    (listFrom s start (ls ++ (x ++ b :: y) :: r)).map measures
      = (listFrom s start (ls ++ (x ++ c :: y) :: r)).map measures := by
  induction ls generalizing s start with
  | nil =>
      have h : s.isDirective (body x) = true ∨ (s.atLineEnd x).lex.isCode = false := h
      have hline := measures_ofText_replace (y := y) start hb hc h
      have hread := readLine_replace (y := y) hb hc h
      have hlength : (x ++ b :: y).length = (x ++ c :: y).length := by simp
      rw [List.nil_append, List.nil_append, listFrom, listFrom, List.map_cons, List.map_cons, hline,
        hread, hlength]
  | cons l ls ih =>
      rw [List.cons_append, List.cons_append, listFrom, listFrom, List.map_cons, List.map_cons,
        ih _ h]

/-- **A brace outside code does not count**: to replace it by a letter, or by any other plain
character, leaves the start, the indentation and the level of every line as they are. -/
theorem measures_replace {u v : Text} (hb : b = '\x7b' ∨ b = '\x7d') (hc : IsPlain c)
    (hout : OutsideCode u) :
    (ofSource (u ++ c :: v)).map measures = (ofSource (u ++ b :: v)).map measures := by
  have hb := isPlain_of_brace hb
  have hu : u.lines = u.lines.dropLast ++ [lastLine u] := by
    rw [lastLine, List.getLastD_eq_getLast?, List.getLast?_eq_some_getLast (lines_ne_nil u)]
    exact (List.dropLast_append_getLast (lines_ne_nil u)).symm
  -- the line of the character goes on with the first line of what follows
  have hlines : ∀ d : Char, d ≠ '\n' →
      (u ++ d :: v).lines
        = u.lines.dropLast ++ (lastLine u ++ d :: v.lines.headD []) :: v.lines.tail := by
    intro d hd
    apply lines_append_eq hu
    rw [lines, if_neg hd]
    cases hv : v.lines with
    | nil => exact absurd hv (lines_ne_nil v)
    | cons m ms => rfl
  rw [ofSource, ofSource, hlines b hb.feed, hlines c hc.feed]
  exact measures_listFrom_replace 0 hc hb _ _ hout

/-- A closing brace that a line of a comment starts with, replaced by a letter. -/
theorem measures_replace_comment :
    OutsideCode "f \x7b\n/* a\n ".toList
      ∧ (ofSource "f \x7b\n/* a\n x */ \x7d\n\x7d".toList).map measures
        = (ofSource "f \x7b\n/* a\n \x7d */ \x7d\n\x7d".toList).map measures := by
  have hout : OutsideCode "f \x7b\n/* a\n ".toList := by decide
  exact ⟨hout, measures_replace (v := " */ \x7d\n\x7d".toList) (.inr rfl)
    (isPlain_of_isAlpha (by decide)) hout⟩

end Line

end CaplLayout
