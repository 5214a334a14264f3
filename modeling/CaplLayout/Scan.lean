import CaplLayout.Text.Basic

/-!
# Scanning lines

The scanner walks through a source and gives each line its nesting level: the number of
braces that are open where the line starts. Braces count in code only, not in comments,
string and character literals and preprocessor directives. A line that continues a block
comment or a string has no level.

Between two characters the scanner is in one of the states of `Lex`. At the end of a line it
falls back to code, except in a block comment and in a string whose line ends in a backslash.
-/

set_option autoImplicit false

namespace CaplLayout

/-- Where the scanner stands between two characters. -/
inductive Lex
  | code
  /-- Behind a slash of code that may begin a comment. -/
  | slash
  | lineComment
  | blockComment
  /-- Behind a star that may end a block comment. -/
  | star
  | string
  /-- Behind a backslash in a string. -/
  | stringEscape
  | char
  /-- Behind a backslash in a character literal. -/
  | charEscape
deriving DecidableEq, Repr, Inhabited

/-- What the scanner carries along: its state and the number of open braces. -/
structure Scan where
  lex : Lex := .code
  depth : Nat := 0
deriving DecidableEq, Repr, Inhabited

namespace Scan

/-- Where a scan starts. -/
def initial : Scan := {}

/-- Reads a character of code. Braces of a directive do not count. -/
def readCode (directive : Bool) (depth : Nat) (c : Char) : Scan :=
  if c = '/' then ⟨.slash, depth⟩
  else if c = '"' then ⟨.string, depth⟩
  else if c = '\'' then ⟨.char, depth⟩
  else if directive then ⟨.code, depth⟩
  else if c = '\x7b' then ⟨.code, depth + 1⟩
  else if c = '\x7d' then ⟨.code, depth - 1⟩
  else ⟨.code, depth⟩

/-- Reads a character of a line. -/
def read (directive : Bool) (s : Scan) (c : Char) : Scan :=
  match s.lex with
  | .code => readCode directive s.depth c
  | .slash =>
    if c = '/' then ⟨.lineComment, s.depth⟩
    else if c = '*' then ⟨.blockComment, s.depth⟩
    else readCode directive s.depth c
  | .lineComment => s
  | .blockComment => if c = '*' then ⟨.star, s.depth⟩ else s
  | .star =>
    if c = '/' then ⟨.code, s.depth⟩ else if c = '*' then s else ⟨.blockComment, s.depth⟩
  | .string =>
    if c = '\\' then ⟨.stringEscape, s.depth⟩ else if c = '"' then ⟨.code, s.depth⟩ else s
  | .stringEscape => ⟨.string, s.depth⟩
  | .char =>
    if c = '\\' then ⟨.charEscape, s.depth⟩ else if c = '\'' then ⟨.code, s.depth⟩ else s
  | .charEscape => ⟨.char, s.depth⟩

/-- Passes the end of the line `line`. -/
def endLine (line : Text) (s : Scan) : Scan :=
  match s.lex with
  | .blockComment | .star => ⟨.blockComment, s.depth⟩
  | .string | .stringEscape =>
    if line.getLast? = some '\\' then ⟨.string, s.depth⟩ else ⟨.code, s.depth⟩
  | _ => ⟨.code, s.depth⟩

/-- Whether a line that starts in state `s` with `body` behind its indentation is a
preprocessor directive. -/
def isDirective (s : Scan) (body : Text) : Bool := s.lex == .code && body.head? == some '#'

/-- Passes a whole line and its end. -/
def readLine (s : Scan) (line : Text) : Scan :=
  let body := line.dropWhile Text.isBlank
  endLine line (line.foldl (read (s.isDirective body)) s)

/-- The nesting level of a line that starts in state `s` with `body` behind its indentation.
A directive has level zero, and a line that starts with a closing brace that of the brace's
partner. -/
def level (s : Scan) (body : Text) : Option Nat :=
  if s.lex ≠ .code then none
  else if body.head? = some '#' then some 0
  else if body.head? = some '\x7d' then some (s.depth - 1)
  else some s.depth

end Scan

/-- A line of a source. -/
structure Line where
  /-- The offset of the first character. -/
  start : Nat
  /-- The blanks in front. -/
  indent : Text
  /-- The text without the blanks at either end. -/
  content : Text
  /-- The nesting level, none for the continuation of a comment or string. -/
  level : Option Nat
deriving DecidableEq, Repr, Inhabited

namespace Line

/-- The offset behind the indentation. -/
def indentEnd (l : Line) : Nat := l.start + l.indent.length

/-- The line `text` at offset `start` that starts in scanner state `s`. -/
def ofText (s : Scan) (start : Nat) (text : Text) : Line :=
  let body := text.dropWhile Text.isBlank
  ⟨start, text.takeWhile Text.isBlank, Text.trimEnd Text.isBlank body, s.level body⟩

/-- The lines that `texts` are when the first starts at `start` in scanner state `s`. -/
def listFrom (s : Scan) (start : Nat) : List Text → List Line
  | [] => []
  | l :: r => ofText s start l :: listFrom (s.readLine l) (start + l.length + 1) r

/-- The lines of a source. -/
def ofSource (source : Text) : List Line := listFrom .initial 0 source.lines

end Line

end CaplLayout
