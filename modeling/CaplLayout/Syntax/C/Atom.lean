import CaplLayout.Syntax.C.Word

/-!
# Literals and binary operators

What the expressions of the language and those in directives have in common: literals, and
binary operators, which are climbed by their levels and bind to the left.
-/

set_option autoImplicit false

namespace CaplLayout.C

open Parse

/-! ## Literals -/

/-- A string. -/
def string : Parse :=
  token fun t => if t.kind == .string then some (stringTree t.start t.text) else none

/-- A number. -/
def number : Parse :=
  token fun t =>
    if t.kind == .number then some (leaf "number_literal" true t.start t.text) else none

/-- Whether the tokens to come are a sign and, right behind it, a number. -/
def isSignedNumber : List Token → Bool
  | s :: n :: _ =>
    (s.isPlain "-" || s.isPlain "+") && n.kind == .number && n.start.offset == s.stop.offset
  | _ => false

/-- A number with a sign right in front of it, where an operand begins. -/
def signedNumber : Parse :=
  ⟨fun i =>
    match i.tokens with
    | s :: n :: r =>
      if isSignedNumber i.tokens then
        (some (s.before ++ [leaf "number_literal" true s.start (s.text ++ n.text)]),
          { i with tokens := r, last := n.stop, reach := min i.reach r.length })
      else (none, i)
    | _ => (none, i)⟩

/-- A character literal. -/
def characterLiteral : Parse :=
  token fun t => if t.kind == .character then some (characterTree t.start t.text) else none

/-- The tree of a token by itself. -/
def Token.tree (t : Token) : Tree :=
  match t.kind with
  | .word => leaf "identifier" true t.start t.text
  | .number => leaf "number_literal" true t.start t.text
  | .string => stringTree t.start t.text
  | .character => characterTree t.start t.text
  | .mark => leaf (String.ofList t.text) false t.start t.text
  | .directive => directiveTree t.endsLine t.start t.text

/-! ## Binary operators -/

/-- The binary operators with their levels; a higher level binds tighter. -/
def binaryLevels : List (String × Nat) :=
  [("||", 1), ("&&", 2), ("|", 3), ("^", 4), ("&", 5), ("==", 6), ("!=", 6), ("<", 7),
    (">", 7), ("<=", 7), (">=", 7), ("<<", 9), (">>", 9), ("+", 10), ("-", 10), ("*", 11),
    ("/", 11), ("%", 11)]

/-- The binary operator that is next, and its level. -/
def nextBinary? (ts : List Token) : Option (String × Nat) :=
  binaryLevels.find? fun e => isNext ts e.1

/-- Operators of at least the level `low`, behind a first operand. -/
def climb (operand : Parse) : (fuel low : Nat) → List Tree → Parse
  | 0, _, front => give front
  | fuel + 1, low, front =>
    peek fun ts =>
      match nextBinary? ts with
      | some (mark, level) =>
        if low ≤ level then
          (strayMark [mark]).bind (fun error => give (front ++ error))
            <|> (extend front "binary_expression"
              (plain mark ++ operand.bind (climb operand fuel (level + 1)))).bind
                (climb operand fuel low)
        else give front
      | none => give front

end CaplLayout.C
