import CaplLayout.Syntax.C.Statement

/-!
# The grammar of C

`grammar` finds a tree for every source. It parses item after item; an item that cannot be
parsed, not even with a repair, is an error node together with all that follows it. Blanks and
line terminators between tokens leave no trace in the dump of a tree.

The rules refer to one another in a cycle. `rules n` unrolls the cycle `n` times, and the
number of tokens bounds how often it is gone through.
-/

set_option autoImplicit false

namespace CaplLayout.C

open Parse

/-- The rules, with the cycle unrolled a number of times. -/
def rules : Nat → Rules
  | 0 => {}
  | n + 1 =>
    let r := rules n
    { operand := operandWith r true
      unary := unaryWith r true
      signed := unaryWith r false
      expression := expression r
      comma := commaExpression r
      typeSpecifier := typeSpecifier r
      typeDescriptor := typeDescriptor r
      declarator := declarator r
      abstractDeclarator := abstractDeclarator r
      initializer := initializerList r
      compound := compound r
      statement := statement r
      governed := governedStatement r
      item := item r }

/-- One error node for tokens that cannot be parsed. -/
def unparsed (ts : List Token) : List Tree :=
  [errorNode (ts.flatMap fun t => t.before ++ [t.tree])]

/-- The trees of at most `fuel` items. -/
def items (r : Rules) : (fuel : Nat) → Input → List Tree
  | 0, _ => []
  | fuel + 1, i =>
    match i.tokens with
    | [] => []
    | ts =>
      match (repaired none Token.tree (outerItem r)).run i with
      | (some trees, j) =>
        if j.tokens.length < ts.length then trees ++ items r fuel j else unparsed ts
      | (none, _) => unparsed ts

/-- The tree of a source. -/
def grammar : Grammar := fun source =>
  let (ts, rest) := Token.ofSource source
  let depth := 4 * ts.length + 8
  let input : Input := { tokens := ts, lenient := true, spoiledEnd := isSpoiled rest }
  branch "translation_unit" (items (rules depth) (ts.length + 1) input ++ rest)

end CaplLayout.C
