import CaplLayout.Syntax.C.Token

/-!
# Trees of literals and directives

A literal is a node with its quotes and its parts: runs of plain characters in a string,
single characters in a character literal, and escapes in both. A directive is a node with its
word and what the word asks for: the name of a file, or a name, its parameters and free text.
-/

set_option autoImplicit false

namespace CaplLayout.C

/-! ## Escapes -/

/-- The number of characters at the front, at most `limit`, that satisfy `p`. -/
def countUpTo (limit : Nat) (p : Char → Bool) (s : Text) : Nat :=
  ((s.take limit).takeWhile p).length

/-- The length of a letter and the digits behind it, of which there are `low` to `high`; no
length if there are fewer. -/
def codeLength (low high : Nat) (s : Text) : Nat :=
  let n := countUpTo high isHexDigit s
  if n < low then 0 else 1 + n

/-- The length of an escape behind its backslash; no length if there is none. -/
def escapeLength : Text → Nat
  | [] => 0
  | 'x' :: r => codeLength 1 4 r
  | 'u' :: r => codeLength 4 4 r
  | 'U' :: r => codeLength 8 8 r
  | c :: r => if c.isDigit then 1 + countUpTo 2 Char.isDigit r else 1

/-! ## Parts of literals -/

/-- The parts of a literal's inside that starts at a place. `runs` says whether plain
characters form runs; `plain` is the type of plain parts. -/
def literalParts (runs : Bool) (plain : String) (p : Spot) : Text → List Tree
  | [] => []
  | c :: r =>
    if c = '\\' then
      let n := escapeLength r
      let text := c :: r.take n
      let tree := if n = 0 then strayNode p c else leaf "escape_sequence" true p text
      tree :: literalParts runs plain (p.after text) (r.drop n)
    else
      let n := if runs then (r.takeWhile (· != '\\')).length else 0
      let text := c :: r.take n
      leaf plain true p text :: literalParts runs plain (p.after text) (r.drop n)
termination_by s => s.length
decreasing_by all_goals simp only [List.length_drop, List.length_cons]; omega

/-- The tree of a literal of the given type with the given parts. -/
def literalTree (type : String) (quote : Char) (parts : Spot → Text → List Tree) (p : Spot)
    (s : Text) : Tree :=
  let front := s.takeWhile (· != quote) ++ [quote]
  let inside := (s.drop front.length).dropLast
  let q := p.after front
  branch type (leaf (String.singleton quote) false p front :: parts q inside
    ++ [leaf (String.singleton quote) false (q.after inside) [quote]])

/-- The tree of a string. -/
def stringTree (p : Spot) (s : Text) : Tree :=
  literalTree "string_literal" '"' (literalParts true "string_content") p s

/-- The characters of a character literal, of which there is one at least. -/
def characterParts (p : Spot) : Text → List Tree
  | [] => [missingNode "character" true p]
  | c :: r => literalParts false "character" p (c :: r)

/-- The tree of a character literal. -/
def characterTree (p : Spot) (s : Text) : Tree :=
  literalTree "char_literal" '\'' characterParts p s

/-! ## Directives -/

/-- The length of a name or a mark among the parameters behind a name. -/
def parameterLength (c : Char) (r : Text) : Nat :=
  if startsWord c then (r.takeWhile inWord).length
  else if c = '.' ∧ r.take 2 = ['.', '.'] then 2
  else 0

/-- The parameters between parentheses behind a name. -/
def parameterLeaves (p : Spot) : Text → List Tree
  | [] => []
  | c :: r =>
    let n := parameterLength c r
    let text := c :: r.take n
    let rest := parameterLeaves (p.after text) (r.drop n)
    if startsWord c then leaf "identifier" true p text :: rest
    else if Text.isWhiteSpace c then rest
    else leaf (String.ofList text) false p text :: rest
termination_by s => s.length
decreasing_by all_goals simp only [List.length_drop, List.length_cons]; omega

/-- Free text at a place, behind a gap; none if there is none. -/
def freeText (p : Spot) (s : Text) : List Tree :=
  let gap := s.take (gapLength false s)
  match s.drop gap.length with
  | [] => []
  | text => [leaf "preproc_arg" true (p.after gap) text]

/-- The tree of a directive that defines a name. -/
def definitionTree (head : Tree) (p : Spot) (s : Text) : Tree :=
  let name := s.takeWhile inWord
  let rest := s.drop name.length
  let nameLeaf := leaf "identifier" true p name
  let q := p.after name
  match rest.take (paramsLength rest) with
  | [] => branch "preproc_def" (head :: nameLeaf :: freeText q rest)
  | list =>
    branch "preproc_function_def" (head :: nameLeaf
      :: branch "preproc_params" (parameterLeaves q list)
      :: freeText (q.after list) (rest.drop list.length))

/-- The tree of what a directive includes. -/
def includedTree (p : Spot) : Text → Tree
  | '<' :: r => leaf "system_lib_string" true p ('<' :: r)
  | s => if s.contains '"' then stringTree p s else leaf "identifier" true p s

/-- The words of a directive: its sign and word, the word alone, and the rest with the blanks
in front of it. -/
def directiveWords (s : Text) : Text × Text × Text :=
  let signLength := 1 + blankLength (s.drop 1)
  let word := (s.drop signLength).takeWhile inWord
  (s.take (signLength + word.length), word, s.drop (signLength + word.length))

/-- The leaf of a directive's sign and word. -/
def directiveHead (p : Spot) (s : Text) : Tree :=
  let (head, word, _) := directiveWords s
  leaf (String.ofList ('#' :: word)) false p head

/-- The place and the text of what follows a directive's word. -/
def directiveTail (p : Spot) (s : Text) : Spot × Text :=
  let (head, _, rest) := directiveWords s
  let gap := rest.takeWhile Text.isBlank
  (p.after (head ++ gap), rest.drop gap.length)

/-- A tree marked as holding an error that no node in it shows. -/
def markBroken : Tree → Tree
  | .node info children => .node { info with hasError := true } children

/-- The tree of a directive. It is broken if the line does not end behind it. -/
def directiveTree (endsLine : Bool) (p : Spot) (s : Text) : Tree :=
  let (head, word, rest) := directiveWords s
  let (q, tail) := directiveTail p s
  let tree :=
    if word = "include".toList then
      branch "preproc_include" [directiveHead p s, includedTree q tail]
    else if word = "define".toList then definitionTree (directiveHead p s) q tail
    else branch "preproc_call"
      (leaf "preproc_directive" true p head :: freeText (p.after head) rest)
  if endsLine then tree else markBroken tree

end CaplLayout.C
