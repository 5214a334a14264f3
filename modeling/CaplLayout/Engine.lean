import CaplLayout.Doc
import CaplLayout.Rule.Indentation
import CaplLayout.Rule.Whitespace
import CaplLayout.Syntax.Tree

/-!
# The formatting engine

An engine holds rules and a parser. A formatting call unifies the line terminators of the
source and then runs all rules in order, again and again, until a whole pass changes nothing
or the limit of passes is reached. Only edits inside the range asked for are carried out; the
range and the cursor move along with the text.
-/

set_option autoImplicit false

namespace CaplLayout

/-- Rules in the order in which they run, and the parser for sources. -/
structure Engine where
  rules : List Rule
  grammar : Grammar

/-- Where a formatting call stands: the text so far, the cursor if one is followed, and the
range inside which edits are made. -/
structure Progress where
  text : Text
  cursor : Option Int
  rangeStart : Int
  rangeEnd : Option Int
deriving DecidableEq, Repr

/-- A formatted text, and where the cursor is in it. -/
structure Formatted where
  text : Text
  cursor : Option Int
deriving DecidableEq, Repr, Inhabited

/-- Where an offset lies once the pairs of a carriage return and a line feed before it have
become one character each. -/
def unifiedOffset (source : Text) (offset : Int) : Int :=
  offset - (source.slice 0 offset).pairs

namespace Progress

/-- Where a call starts. Offsets beyond the end of the source count as its end. -/
def start (settings : Settings) (source : Text) : Progress :=
  let place := fun n : Nat => unifiedOffset source (min n source.length : Nat)
  { text := source.unifyPairs
    cursor := settings.cursorOffset.map place
    rangeStart := place settings.rangeStart
    rangeEnd := settings.rangeEnd.map place }

/-- The end of the range in the text so far. -/
def stop (p : Progress) : Int := p.rangeEnd.getD p.text.length

/-- Whether an edit lies inside the range. -/
def admits (p : Progress) (e : Edit) : Bool := p.rangeStart ≤ e.start && e.stop ≤ p.stop

/-- Carries out the edits of one rule that lie inside the range. If they leave the text as it
is, nothing else moves either. -/
def advance (p : Progress) (edits : List Edit) : Progress :=
  let (text, applied) := Edit.apply p.text (edits.filter p.admits)
  if text = p.text then p
  else
    { text := text
      cursor := p.cursor.map (Edit.mapOffset applied)
      rangeStart := Edit.mapOffset applied p.rangeStart
      rangeEnd := p.rangeEnd.map (Edit.mapOffset applied) }

/-- Runs the rules of one pass in order; also tells whether one of them changed the text. -/
def pass (settings : Settings) : List Rule → Progress → Except Fault (Progress × Bool)
  | [], p => .ok (p, false)
  | r :: rs, p => do
    let edits ← r.analyze settings p.text
    let q := p.advance edits
    let (q', changed) ← pass settings rs q
    .ok (q', decide (q.text ≠ p.text) || changed)

/-- Runs up to `limit` passes, none behind one that changes nothing. -/
def run (settings : Settings) (rules : List Rule) :
    (limit : Nat) → Progress → Except Fault Progress
  | 0, p => .ok p
  | n + 1, p => do
    let (q, changed) ← pass settings rules p
    if changed then run settings rules n q else .ok q

end Progress

namespace Engine

/-- The rules that every engine starts with. -/
def builtinRules : List Rule := [Whitespace.rule, Indentation.rule]

/-- The engine with the built-in rules only. -/
def standard (grammar : Grammar) : Engine := ⟨builtinRules, grammar⟩

/-- The engine with a further rule behind the others. -/
def addRule (e : Engine) (r : Rule) : Engine := { e with rules := e.rules ++ [r] }

/-- The greatest number of passes of one call. -/
def maxPasses : Nat := 5

/-- Parses a source. A C source must not have an error. -/
def parse (e : Engine) (settings : Settings) (source : Text) : Except Fault Tree :=
  let tree := e.grammar source
  match tree.check (settings.effectiveDialect == .c) with
  | .ok _ => .ok tree
  | .error err => .error (.syntaxError err)

/-- Formats a source under checked settings. -/
def formatWith (e : Engine) (settings : Settings) (source : Text) : Except Fault Formatted := do
  let _ ← e.parse settings source
  let p ← Progress.run settings e.rules maxPasses (Progress.start settings source)
  .ok ⟨p.text, p.cursor⟩

/-- Checks options. -/
def resolve (options : Options) : Except Fault Settings :=
  (Settings.ofOptions options).mapError .invalidOptions

/-- Formats a source. -/
def format (e : Engine) (options : Options) (source : Text) : Except Fault Formatted := do
  e.formatWith (← resolve options) source

/-- Whether a source is its own formatted text. -/
def isFormatted (e : Engine) (options : Options) (source : Text) : Except Fault Bool := do
  let result ← e.format options source
  .ok (decide (result.text = source))

/-- The dump of a source's tree. -/
def dump (e : Engine) (options : Options) (source : Text) : Except Fault Text := do
  let tree ← e.parse (← resolve options) source
  .ok tree.dump

/-- The document of the formatted text. -/
def doc (e : Engine) (options : Options) (source : Text) : Except Fault Doc := do
  let result ← e.format options source
  .ok (Doc.ofSource result.text)

end Engine

end CaplLayout
