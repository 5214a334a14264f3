import CaplLayout.Decimal.Integer
import CaplLayout.Settings.Basic
import CaplLayout.Settings.Value

/-!
# Checking options

`Settings.ofOptions` turns unchecked options into settings. Every option is checked on its
own and all problems are reported together: those of known options in a fixed order, then
the unknown names as they were given. Only when there are none is the order of the range's
two ends looked at.
-/

set_option autoImplicit false

namespace CaplLayout

/-- What is wrong with an option. -/
inductive Complaint
  | notInteger
  | unreadableInteger
  | fractionalInteger
  | notFinite
  | integerTooLong
  | below (least : Nat)
  | above (greatest : Nat)
  | notBoolean
  | unreadableBoolean
  | notOneOf (first second : String)
  | notString
  | unknownName
  | rangeReversed
deriving DecidableEq, Repr

/-- A complaint about the option of a name; the name is empty when the options as a whole
are meant. -/
structure Problem where
  name : String
  complaint : Complaint
deriving DecidableEq, Repr

namespace Complaint

/-- The words of a complaint. -/
def message : Complaint → String
  | .notInteger => "Input should be a valid integer"
  | .unreadableInteger =>
    "Input should be a valid integer, unable to parse string as an integer"
  | .fractionalInteger =>
    "Input should be a valid integer, got a number with a fractional part"
  | .notFinite => "Input should be a finite number"
  | .integerTooLong => "Unable to parse input string as an integer, exceeded maximum size"
  | .below n => "Input should be greater than or equal to " ++ toString n
  | .above n => "Input should be less than or equal to " ++ toString n
  | .notBoolean => "Input should be a valid boolean"
  | .unreadableBoolean => "Input should be a valid boolean, unable to interpret input"
  | .notOneOf a b => "Input should be '" ++ a ++ "' or '" ++ b ++ "'"
  | .notString => "Input should be a valid string"
  | .unknownName => "Extra inputs are not permitted"
  | .rangeReversed => "Value error, range_end must not be smaller than range_start"

end Complaint

namespace Problem

/-- A problem with the name in front. -/
def message (p : Problem) : String :=
  (if p.name = "" then "options" else p.name) ++ ": " ++ p.complaint.message

/-- All problems in one line. -/
def report (problems : List Problem) : String :=
  "Validation Error: " ++ String.intercalate "; " (problems.map message)

end Problem

/-! ## Single values -/

/-- A checked value, or what is wrong with it. -/
abbrev Checked (α : Type) := Except Complaint α

namespace Checked

/-- Numbers are read as integers of at most 64 bits. -/
def integerOfFloat (x : Binary64) : Checked Int :=
  if !x.isFinite then .error .notFinite
  else
    match x.toInt? with
    | none => .error .fractionalInteger
    | some n => if n.natAbs < Nat.pow 2 63 then .ok n else .error .integerTooLong

/-- An integer: as such, as a whole number, as a truth value or as text. -/
def integer : Value → Checked Int
  | .bool b => .ok (if b then 1 else 0)
  | .int n => .ok n
  | .float x => integerOfFloat x
  | .str s =>
    match Integer.read s.toList with
    | .value n => .ok n
    | .malformed => .error .unreadableInteger
    | .tooLong => .error .integerTooLong
  | _ => .error .notInteger

/-- An integer of at least `least`. -/
def atLeast (least : Nat) (v : Value) : Checked { n : Nat // least ≤ n } := do
  let n ← integer v
  if h : (least : Int) ≤ n then .ok ⟨n.toNat, by omega⟩ else .error (.below least)

/-- An integer from zero up to `greatest`. -/
def atMost (greatest : Nat) (v : Value) : Checked { n : Nat // n ≤ greatest } := do
  let n ← atLeast 0 v
  if h : n.1 ≤ greatest then .ok ⟨n.1, h⟩ else .error (.above greatest)

/-- The words for falsehood. -/
def falseWords : List String := ["0", "off", "f", "false", "n", "no"]

/-- The words for truth. -/
def trueWords : List String := ["1", "on", "t", "true", "y", "yes"]

/-- Zero and one as truth values. -/
def booleanOfInt (n : Int) : Checked Bool :=
  if n = 0 then .ok false else if n = 1 then .ok true else .error .unreadableBoolean

/-- A truth value: as such, as zero or one, or as one of the words for them. -/
def boolean : Value → Checked Bool
  | .bool b => .ok b
  | .int n =>
    if -Int.pow 2 63 ≤ n ∧ n < Int.pow 2 63 then booleanOfInt n else .error .notBoolean
  | .float x =>
    match x.toInt? with
    | some n => if n.natAbs < Nat.pow 2 63 then booleanOfInt n else .error .notBoolean
    | none => .error .notBoolean
  | .str s =>
    let word := String.ofList (s.toList.map Char.toLower)
    if falseWords.contains word then .ok false
    else if trueWords.contains word then .ok true
    else .error .unreadableBoolean
  | _ => .error .notBoolean

/-- A string. -/
def string : Value → Checked String
  | .str s => .ok s
  | _ => .error .notString

/-- A quote style by its name. -/
def quoteStyle : Value → Checked QuoteStyle
  | .str "double" => .ok .double
  | .str "single" => .ok .single
  | _ => .error (.notOneOf "double" "single")

/-- A dialect by its name. -/
def dialect : Value → Checked Dialect
  | .str "capl" => .ok .capl
  | .str "c" => .ok .c
  | _ => .error (.notOneOf "capl" "c")

/-- A value that may be missing. -/
def optional {α : Type} (check : Value → Checked α) : Value → Checked (Option α)
  | .null => .ok none
  | v => (check v).map some

end Checked

/-! ## All options together -/

namespace Settings

/-- The names of all options. -/
def names : List String :=
  ["indent_size", "use_tabs", "print_width", "quote_style", "parser", "filepath",
   "cursor_offset", "range_start", "range_end"]

/-- Checks the option of a name, which has a value of its own when it is not given. -/
def checkOption {α : Type} (o : Options) (name : String) (absent : α)
    (check : Value → Checked α) : Except Problem α :=
  match o.get? name with
  | none => .ok absent
  | some v => (check v).mapError (Problem.mk name)

/-- The problem of a check, if it has one. -/
def problemOf {α : Type} : Except Problem α → List Problem
  | .ok _ => []
  | .error p => [p]

/-- The names that no option has. -/
def unknownNames (o : Options) : List Problem :=
  (o.filter fun e => !names.contains e.1).map fun e => ⟨e.1, .unknownName⟩

theorem indentSize_default : 2 ≤ 16 := by decide

theorem printWidth_default : 1 ≤ 100 := by decide

/-- Checks options and turns them into settings. -/
def ofOptions (o : Options) : Except (List Problem) Settings :=
  let indentSize := checkOption o "indent_size" ⟨2, indentSize_default⟩ (Checked.atMost 16)
  let useTabs := checkOption o "use_tabs" false Checked.boolean
  let printWidth := checkOption o "print_width" ⟨100, printWidth_default⟩ (Checked.atLeast 1)
  let quoteStyle := checkOption o "quote_style" .double Checked.quoteStyle
  let dialect := checkOption o "parser" none (Checked.optional Checked.dialect)
  let filepath := checkOption o "filepath" none (Checked.optional Checked.string)
  let cursorOffset := checkOption o "cursor_offset" none (Checked.optional (Checked.atLeast 0))
  let rangeStart := checkOption o "range_start" ⟨0, Nat.le_refl 0⟩ (Checked.atLeast 0)
  let rangeEnd := checkOption o "range_end" none (Checked.optional (Checked.atLeast 0))
  let problems := problemOf indentSize ++ problemOf useTabs ++ problemOf printWidth
    ++ problemOf quoteStyle ++ problemOf dialect ++ problemOf filepath
    ++ problemOf cursorOffset ++ problemOf rangeStart ++ problemOf rangeEnd ++ unknownNames o
  match problems, indentSize, useTabs, printWidth, quoteStyle, dialect, filepath, cursorOffset,
      rangeStart, rangeEnd with
  | [], .ok indentSize, .ok useTabs, .ok printWidth, .ok quoteStyle, .ok dialect,
      .ok filepath, .ok cursorOffset, .ok rangeStart, .ok rangeEnd =>
    let finish := rangeEnd.map Subtype.val
    if h : ∀ e, finish = some e → rangeStart.1 ≤ e then
      .ok {
        indentSize := indentSize.1
        useTabs := useTabs
        printWidth := printWidth.1
        quoteStyle := quoteStyle
        dialect := dialect
        filepath := filepath
        cursorOffset := cursorOffset.map Subtype.val
        rangeStart := rangeStart.1
        rangeEnd := finish
        indentSize_le := indentSize.2
        printWidth_pos := printWidth.2
        range_ordered := h }
    else .error [⟨"", .rangeReversed⟩]
  | _, _, _, _, _, _, _, _, _, _ => .error problems

end Settings

end CaplLayout
