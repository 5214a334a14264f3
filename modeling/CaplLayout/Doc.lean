import CaplLayout.Scan
import CaplLayout.Text.Quoted
import CaplLayout.Text.Space

/-!
# Layout documents

A document is a source as a list of lines, each a nesting level and a content. A line
without a level continues a comment or a string; its content keeps the blanks in front.
`Doc.render` writes a document so that it can be read back up to the levels of empty lines.
-/

set_option autoImplicit false

namespace CaplLayout

/-- One line of a document. -/
structure DocLine where
  level : Option Int
  content : Text
deriving DecidableEq, Repr, Inhabited

/-- A document: its lines. -/
abbrev Doc := List DocLine

namespace Doc

/-- The document line of a source line, none for the empty rest behind the last line feed. -/
def lineOf (source : Text) (l : Line) (text : Text) : Option DocLine :=
  if source.length ≤ l.start ∧ l.content = [] then none
  else
    match l.level with
    | some n => some ⟨some n, l.content⟩
    | none => some ⟨none, Text.trimEnd Text.isSpace text⟩

/-- The document of a source. -/
def ofSource (source : Text) : Doc :=
  (List.zipWith (lineOf source) (Line.ofSource source) source.lines).filterMap id

/-! ## Rendering -/

/-- One line of a rendered document. -/
def renderLine (l : DocLine) : Text :=
  let quoted := Quoted.encode l.content
  match l.level with
  | none => "verbatim(".toList ++ quoted ++ [')']
  | some n =>
    if l.content = [] then "hardline".toList
    else if n = 0 then quoted
    else "indent(".toList ++ (toString n).toList ++ ", ".toList ++ quoted ++ [')']

/-- A document as text. -/
def render (d : Doc) : Text :=
  if d = [] then "[]\n".toList
  else
    "[\n".toList ++ d.flatMap (fun l => ' ' :: ' ' :: renderLine l ++ [',', '\n'])
      ++ "]\n".toList

end Doc

end CaplLayout
