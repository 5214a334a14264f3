import CaplLayout.Syntax.Tree
import CaplLayout.Text.Identifier
import CaplLayout.Text.Space

/-!
# Tokens of C

A token is a run of characters of the source with the places where it starts and ends. The
comments in front of it, and the characters there that begin no token, come along with it as
trees. `Token.ofSource` finds the tokens of a source; it always takes the longest run that
makes a token.
-/

set_option autoImplicit false

namespace CaplLayout.C

/-! ## Places -/

/-- A place in a source, in bytes. -/
structure Spot where
  offset : Nat := 0
  row : Nat := 0
  column : Nat := 0
deriving DecidableEq, Repr, Inhabited

/-- The place behind one character. -/
def Spot.next (p : Spot) (c : Char) : Spot :=
  if c = '\n' then ⟨p.offset + 1, p.row + 1, 0⟩
  else ⟨p.offset + c.utf8Size, p.row, p.column + c.utf8Size⟩

/-- The place behind a text. -/
def Spot.after (p : Spot) (s : Text) : Spot := s.foldl Spot.next p

/-! ## Nodes -/

/-- A node without children. -/
def leaf (type : String) (named : Bool) (p : Spot) (s : Text) : Tree :=
  .node { type, named, row := p.row, column := p.column, bytes := Utf8.encode s } []

/-- A node with children, which starts where the first of them starts and is marked if one of
them is. -/
def branch (type : String) (children : List Tree) : Tree :=
  let first := (children.head?.map Tree.info).getD default
  .node { type, hasError := children.any (·.info.hasError)
          row := first.row, column := first.column } children

/-- A node for input that fits nowhere. -/
def errorNode (children : List Tree) : Tree :=
  let first := (children.head?.map Tree.info).getD default
  .node { type := Tree.errorType, hasError := true
          row := first.row, column := first.column } children

/-- A node for a character that begins nothing. -/
def strayNode (p : Spot) (c : Char) : Tree := errorNode [leaf "stray" false p [c]]

/-- A node for a token that is not there. -/
def missingNode (type : String) (named : Bool) (p : Spot) : Tree :=
  .node { type, named, missing := true, hasError := true, row := p.row, column := p.column } []

/-! ## Character classes -/

/-- The characters that begin a word. -/
def startsWord (c : Char) : Bool := Text.beginsIdentifier c || c == '_' || c == '$'

/-- The characters of words. -/
def inWord (c : Char) : Bool := Text.continuesIdentifier c || c == '$'

/-- Whether a character is a hexadecimal digit. -/
def isHexDigit (c : Char) : Bool :=
  c.isDigit || ('a' ≤ c && c ≤ 'f') || ('A' ≤ c && c ≤ 'F')

/-! ## Lengths of tokens -/

/-- The marks of two and three characters, the longer ones first. -/
def longMarks : List Text :=
  ["...", "<<=", ">>=", "->", "++", "--", "<<", ">>", "<=", ">=", "==", "!=", "&&", "||",
    "+=", "-=", "*=", "/=", "%=", "&=", "^=", "|="].map String.toList

/-- The marks of one character. -/
def shortMarks : Text := "()\x7b\x7d[];,.:?=+-*/%<>!~&|^".toList

/-- The length of a mark at the front of a text. -/
def markLength (s : Text) : Option Nat :=
  match longMarks.find? (·.isPrefixOf s) with
  | some m => some m.length
  | none => if (s.take 1).any shortMarks.contains then some 1 else none

/-- The length of the rest of a comment that ends with the line. Backslashes take the line
feed behind them along, so that the comment goes on. A backslash that nothing follows is no
part of it. -/
def lineCommentLength : Text → Nat
  | [] => 0
  | ['\\'] => 0
  | ['\\', '\\'] => 2
  | '\\' :: '\n' :: r => 2 + lineCommentLength r
  | '\\' :: '\r' :: '\n' :: r => 3 + lineCommentLength r
  | c :: r => if c = '\n' then 0 else 1 + lineCommentLength r

/-- The length of the rest of a comment, including the marks that end it. -/
def blockCommentLength : Text → Option Nat
  | [] => none
  | [_] => none
  | c :: d :: r =>
    if c = '*' ∧ d = '/' then some 2 else (blockCommentLength (d :: r)).map (· + 1)

/-- The length of a comment at the front of a text. -/
def commentLength : Text → Option Nat
  | '/' :: '/' :: r => some (2 + lineCommentLength r)
  | '/' :: '*' :: r => (blockCommentLength r).map (· + 2)
  | _ => none

/-- What may be left behind digits, of which there is one at least; a single quote may stand
between two of them. -/
def digitEnds (p : Char → Bool) : Text → List Text
  | [] => []
  | [c] => if p c then [[]] else []
  | c :: d :: r =>
    if p c then (d :: r) :: (if d = '\'' then digitEnds p r else digitEnds p (d :: r)) else []

/-- What is left behind one of two letters; nothing if neither is next. -/
def behindEither (a b : Char) : Text → List Text
  | [] => []
  | c :: r => if c = a ∨ c = b then [r] else []

/-- What may be left behind the mark of a base: a zero and one of two letters. -/
def behindBase (a b : Char) (s : Text) : List Text :=
  (behindEither '0' '0' s).flatMap (behindEither a b)

/-- What may be left behind the digits of a number, with a point among them or not. -/
def mantissaEnds (s : Text) : List Text :=
  let whole := digitEnds Char.isDigit s ++ (behindBase 'b' 'B' s).flatMap (digitEnds Char.isDigit)
    ++ (behindBase 'x' 'X' s).flatMap (digitEnds isHexDigit)
  let pointed := (whole.flatMap (behindEither '.' '.')).flatMap fun r =>
    r :: digitEnds isHexDigit r
  whole ++ pointed ++ (behindEither '.' '.' s).flatMap (digitEnds Char.isDigit)

/-- What may be left behind an exponent, which may be missing. -/
def exponentEnds (s : Text) : List Text :=
  let behind := behindEither 'e' 'E' s ++ behindEither 'p' 'P' s
  s :: behind ++ (behind ++ behind.flatMap (behindEither '+' '-')).flatMap (digitEnds isHexDigit)

/-- The letters that may stand at the end of a number. -/
def numberSuffixes : Text := "uUlLwWfFbBdD".toList

/-- The length of a number at the front of a text, as long as it can be. -/
def numberLength (s : Text) : Nat :=
  let starts := s :: (behindBase 'x' 'X' s ++ behindBase 'b' 'B' s)
  let ends := ((starts.flatMap mantissaEnds).flatMap exponentEnds).map
    (·.dropWhile numberSuffixes.contains)
  ends.foldl (fun n r => max n (s.length - r.length)) 0

/-- Whether a text begins with a number. -/
def startsNumber : Text → Bool
  | '.' :: d :: _ => d.isDigit
  | c :: _ => c.isDigit
  | [] => false

/-- The length of the rest of a literal, including the quote that ends it; none if the line
ends before. -/
def quotedLength (quote : Char) : Text → Option Nat
  | [] => none
  | [c] => if c = quote then some 1 else none
  | c :: d :: r =>
    if c = quote then some 1
    else if c = '\\' then (quotedLength quote r).map (· + 2)
    else if c = '\n' then none
    else (quotedLength quote (d :: r)).map (· + 1)

/-- What may stand in front of the opening quote of a literal. -/
def literalMarks : List Text := ["u8", "L", "u", "U", ""].map String.toList

/-- The length of a literal between the given quotes at the front of a text. -/
def literalLength (quote : Char) (s : Text) : Option Nat :=
  match literalMarks.find? fun m => (m ++ [quote]).isPrefixOf s with
  | some m => (quotedLength quote (s.drop (m.length + 1))).map (· + (m.length + 1))
  | none => none

/-- The length of the rest of a directive's free text: up to the end of the line, which a
backslash carries on, or to a comment. -/
def argumentLength : Text → Nat
  | '\\' :: '\n' :: r => 2 + argumentLength r
  | '\\' :: '\r' :: '\n' :: r => 3 + argumentLength r
  | '/' :: '*' :: _ => 0
  | '/' :: _ :: r => 2 + argumentLength r
  | c :: r => if c = '\n' then 0 else 1 + argumentLength r
  | [] => 0

/-- The length of blanks at the front of a text. -/
def blankLength (s : Text) : Nat := (s.takeWhile Text.isBlank).length

/-- Whether a text begins with the end of a line. -/
def atLineEnd : Text → Bool
  | '\n' :: _ => true
  | '\r' :: '\n' :: _ => true
  | _ => false

/-- The length of the white space and comments at the front of a text, up to the end of the
line. White space that has begun runs on over the ends of lines. -/
def gapLength (begun : Bool) : Text → Nat
  | [] => 0
  | c :: r =>
    if !begun && atLineEnd (c :: r) then 0
    else if Text.isWhiteSpace c then 1 + gapLength true r
    else
      match commentLength (c :: r) with
      | some (n + 1) => n + 1 + gapLength false (r.drop n)
      | _ => 0
termination_by s => s.length
decreasing_by all_goals simp only [List.length_drop, List.length_cons]; omega

/-- Whether a line ends at the front of a text, perhaps behind comments. -/
def lineEnds (s : Text) : Bool :=
  atLineEnd (s.drop (gapLength false s))

/-- The length of a directive's free text at the front of a text, with the gap in front of it.
A gap alone is none. -/
def freeTextLength (s : Text) : Nat :=
  let gap := gapLength false s
  let n := argumentLength (s.drop gap)
  if n = 0 then 0 else gap + n

/-- The length of parameters between parentheses at the front of a text. -/
def paramsLength : Text → Nat
  | '(' :: r =>
    let inner := r.takeWhile fun c => c != ')' && c != '\n'
    if (r.drop inner.length).head? = some ')' then inner.length + 2 else 0
  | _ => 0

/-- The length of a name and its parameters at the front of a text. -/
def definedLength (s : Text) : Nat :=
  let name := s.takeWhile inWord
  name.length + paramsLength (s.drop name.length)

/-- The length of a text between angle brackets on one line. -/
def angledLength (s : Text) : Nat :=
  let inner := s.takeWhile fun c => c != '>' && c != '\n'
  if (s.drop inner.length).head? = some '>' then inner.length + 1 else 0

/-- The directives that stand alone on their line. -/
def bareDirectives : List Text := ["else", "endif"].map String.toList

/-- The directives that ask for one name. -/
def namingDirectives : List Text :=
  ["ifdef", "ifndef", "elifdef", "elifndef"].map String.toList

/-- The length of a directive behind its number sign, without the end of the line. -/
def directiveLength (s : Text) : Nat :=
  let word := (s.drop (blankLength s)).takeWhile inWord
  let head := blankLength s + word.length
  let rest := s.drop head
  let gap := blankLength rest
  let tail := rest.drop gap
  let behindGap := fun n => if n = 0 then head else head + gap + n
  if word = "include".toList then
    behindGap <|
      match tail with
      | '<' :: _ => angledLength tail
      | _ => (literalLength '"' tail).getD (tail.takeWhile inWord).length
  else if word = "define".toList then
    let n := definedLength tail
    behindGap (n + freeTextLength (tail.drop n))
  else if namingDirectives.contains word then behindGap (tail.takeWhile inWord).length
  else if bareDirectives.contains word then head
  else head + freeTextLength rest

/-! ## Tokens -/

/-- The kinds of tokens. -/
inductive Kind
  | word
  | number
  | string
  | character
  | mark
  | directive
deriving DecidableEq, Repr, Inhabited

/-- What a source has at some place. -/
inductive Piece
  | gap
  | comment
  /-- A character that begins no token. -/
  | stray
  | token (kind : Kind)
deriving DecidableEq, Repr

/-- What the text that begins with `c` has at its front, and how many characters behind the
first one belong to it. -/
def piece (c : Char) (r : Text) : Piece × Nat :=
  let s := c :: r
  if Text.isWhiteSpace c then (.gap, (r.takeWhile Text.isWhiteSpace).length)
  else if c = '\\' ∧ r.head? = some '\n' then (.gap, 1)
  else if c = '\\' ∧ r.take 2 = ['\r', '\n'] then (.gap, 2)
  else
    match commentLength s with
    | some n => (.comment, n - 1)
    | none =>
      match literalLength '"' s, literalLength '\'' s with
      | some n, _ => (.token .string, n - 1)
      | none, some n => (.token .character, n - 1)
      | none, none =>
        if startsWord c then (.token .word, (r.takeWhile inWord).length)
        else if startsNumber s then (.token .number, numberLength s - 1)
        else if c = '#' ∧ (r.drop (blankLength r)).head?.any Char.isAlphanum then
          (.token .directive, directiveLength r)
        else
          match markLength s with
          | some n => (.token .mark, n - 1)
          | none => (.stray, 0)

/-- A token. -/
structure Token where
  kind : Kind
  text : Text
  start : Spot
  stop : Spot
  /-- The comments and stray characters in front of it. -/
  before : List Tree := []
  /-- Whether the line ends behind it. -/
  endsLine : Bool := false
  /-- Whether it is read for itself, so that a reserved word is no name. -/
  literal : Bool := false
deriving Repr, Inhabited

namespace Token

/-- The tokens of a text that starts at a place, and the trees behind the last one. `before`
holds the trees since the last token, the latest first. -/
def scan (p : Spot) (before : List Tree) : Text → List Token × List Tree
  | [] => ([], before.reverse)
  | c :: r =>
    let (kind, n) := piece c r
    let text := c :: r.take n
    let q := p.after text
    match kind with
    | .gap => scan q before (r.drop n)
    | .comment => scan q (leaf "comment" true p text :: before) (r.drop n)
    | .stray => scan q (strayNode p c :: before) (r.drop n)
    | .token kind =>
      let (more, rest) := scan q [] (r.drop n)
      (⟨kind, text, p, q, before.reverse, lineEnds (r.drop n), false⟩ :: more, rest)
termination_by s => s.length
decreasing_by all_goals simp only [List.length_drop, List.length_cons]; omega

/-- The byte order mark. -/
def orderMark : Char := Char.ofNat 0xFEFF

/-- The tokens of a source, and the trees behind the last one. A byte order mark in front of
the source is no part of it. -/
def ofSource (source : Text) : List Token × List Tree :=
  match source with
  | [] => ([], [])
  | c :: r => if c = orderMark then scan (Spot.next {} c) [] r else scan {} [] source

/-- Whether a token is the given mark or word. -/
def isPlain (t : Token) (s : String) : Bool :=
  (t.kind == .mark || t.kind == .word) && t.text == s.toList

/-- The text of a token that is a word. -/
def word? (t : Token) : Option String :=
  if t.kind == .word then some (String.ofList t.text) else none

end Token

end CaplLayout.C
