import CaplLayout.Text.Basic
import CaplLayout.Text.Path

/-!
# Settings

The checked options of one formatting call. The limits that checking enforces are part of
the type: an indentation of at most sixteen columns, a line width of at least one, and a
range whose end is not before its start.
-/

set_option autoImplicit false

namespace CaplLayout

/-- The quotes that new literals would take. -/
inductive QuoteStyle
  | double
  | single
deriving DecidableEq, Repr, Inhabited

/-- The language of a source. A C source has to be free of syntax errors. -/
inductive Dialect
  | capl
  | c
deriving DecidableEq, Repr, Inhabited

/-- The checked options of one formatting call. -/
structure Settings where
  indentSize : Nat := 2
  useTabs : Bool := false
  printWidth : Nat := 100
  quoteStyle : QuoteStyle := .double
  dialect : Option Dialect := none
  filepath : Option String := none
  cursorOffset : Option Nat := none
  rangeStart : Nat := 0
  rangeEnd : Option Nat := none
  indentSize_le : indentSize ≤ 16 := by decide
  printWidth_pos : 1 ≤ printWidth := by decide
  range_ordered : ∀ e, rangeEnd = some e → rangeStart ≤ e := by
    intro e h
    cases h <;> decide
deriving Repr

instance : Inhabited Settings := ⟨{}⟩

/-- The name of a dialect. -/
def Dialect.name : Dialect → String
  | .capl => "capl"
  | .c => "c"

/-- The name of a quote style. -/
def QuoteStyle.name : QuoteStyle → String
  | .double => "double"
  | .single => "single"

/-- The dialect that a file's extension tells, CAPL when it tells none. -/
def Dialect.ofPath (filepath : Option String) : Dialect :=
  match filepath with
  | none => .capl
  | some f =>
    let extension := (Path.ofString f).extension.map Char.toLower
    if extension = ['.', 'c'] ∨ extension = ['.', 'h'] then .c else .capl

namespace Settings

/-- One level of indentation. -/
def indentUnit (s : Settings) : Text :=
  if s.useTabs then ['\t'] else List.replicate s.indentSize ' '

/-- The dialect in force: the one asked for, or else the one of the file's extension. -/
def effectiveDialect (s : Settings) : Dialect :=
  s.dialect.getD (Dialect.ofPath s.filepath)

/-- The indentation of a line at nesting level `n`. -/
def indentOf (s : Settings) (n : Nat) : Text := (List.replicate n s.indentUnit).flatten

end Settings

end CaplLayout
