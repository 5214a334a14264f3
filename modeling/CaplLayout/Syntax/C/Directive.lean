import CaplLayout.Syntax.C.Atom

/-!
# Directives

Most directives stand for themselves, on a line of their own. Those that ask for a condition
or a name open a section of items, which a directive ends and others may split.
-/

set_option autoImplicit false

namespace CaplLayout.C

open Parse

/-- A directive that stands for itself. -/
def directive : Parse :=
  token fun t =>
    if t.kind == .directive then some (directiveTree t.endsLine t.start t.text) else none

/-! ## Conditions -/

/-- Operands with binary operators between them. -/
def operation (operand : Parse) : Parse :=
  peek fun ts => operand.bind (climb operand ts.length 1)

/-- An operand in the condition of a directive, nested at most `fuel` deep. -/
def conditionOperand : (fuel : Nat) → Parse
  | 0 => fail
  | fuel + 1 =>
    let operand := conditionOperand fuel
    node "preproc_defined" (plain "defined" ++ plain "(" ++ anyWordAs "identifier" ++ plain ")")
      <|> node "preproc_defined" (plain "defined" ++ anyWordAs "identifier")
      <|> node "call_expression"
        (anyWordAs "identifier"
          ++ node "argument_list" (plain "(" ++ opt (list (operation operand)) ++ plain ")"))
      <|> anyWordAs "identifier" <|> signedNumber <|> number <|> characterLiteral
      <|> node "unary_expression" (oneOf ["!", "~", "-", "+"] ++ operand)
      <|> node "parenthesized_expression" (plain "(" ++ operation operand ++ plain ")")

/-- The condition of a directive and the end of its line. -/
def directiveCondition (t : Token) : List Tree :=
  let (p, tail) := directiveTail t.start t.text
  let (ts, rest) := Token.scan p [] tail
  let condition :=
    match (operation (conditionOperand (ts.length + 1))).run { tokens := ts } with
    | (some trees, j) =>
      if j.tokens.isEmpty then trees else [errorNode (ts.map Token.tree)]
    | (none, _) => if ts.isEmpty then [] else [errorNode (ts.map Token.tree)]
  condition ++ rest ++ [leaf "\n" false t.stop ['\n']]

/-- The name that a directive asks for. -/
def directiveName (t : Token) : List Tree :=
  let (p, tail) := directiveTail t.start t.text
  [leaf "identifier" true p tail]

/-! ## Sections -/

/-- Whether a token is a directive with one of several words. -/
def Token.isDirective (words : List String) (t : Token) : Bool :=
  t.kind == .directive && words.contains (String.ofList (directiveWords t.text).2.1)

/-- Takes a directive with one of several words, as its head and what `f` makes of it. -/
def directiveLine (words : List String) (f : Token → List Tree) : Parse :=
  ⟨fun i =>
    match i.tokens with
    | t :: r =>
      if t.isDirective words then
        (some (t.before ++ directiveHead t.start t.text :: f t),
          { i with tokens := r, last := t.stop, reach := min i.reach r.length })
      else (none, i)
    | [] => (none, i)⟩

/-- Whether the next token is a directive with one of several words. -/
def isDirectiveNext (words : List String) (ts : List Token) : Bool :=
  ts.head?.any (·.isDirective words)

/-- Items up to a directive that ends or splits a section. -/
def sectionItems (item : Parse) : Parse :=
  many (peek fun ts =>
    if isDirectiveNext ["else", "elif", "elifdef", "elifndef", "endif"] ts then fail else item)

/-- The further parts of a section, of which at most `fuel` have a condition. -/
def sectionParts (item : Parse) : (fuel : Nat) → Parse
  | 0 => fail
  | fuel + 1 =>
    peek fun ts =>
      if isDirectiveNext ["else", "elif", "elifdef", "elifndef"] ts then
        node "preproc_else" (directiveLine ["else"] (fun _ => []) ++ sectionItems item)
          <|> node "preproc_elif"
            (directiveLine ["elif"] directiveCondition ++ sectionItems item
              ++ sectionParts item fuel)
          <|> node "preproc_elifdef"
            (directiveLine ["elifdef", "elifndef"] directiveName ++ sectionItems item
              ++ sectionParts item fuel)
      else nothing

/-- Whether a section begins. -/
def isSectionNext (ts : List Token) : Bool := isDirectiveNext ["if", "ifdef", "ifndef"] ts

/-- A section of items that depends on a condition or a name. -/
def conditionalSection (item : Parse) : Parse :=
  peek fun ts =>
    if isSectionNext ts then
      let rest := sectionItems item ++ sectionParts item (ts.length + 1)
        ++ directiveLine ["endif"] fun _ => []
      node "preproc_if" (directiveLine ["if"] directiveCondition ++ rest)
        <|> node "preproc_ifdef" (directiveLine ["ifdef", "ifndef"] directiveName ++ rest)
    else fail

end CaplLayout.C
