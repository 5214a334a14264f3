import CaplLayout.Decimal.Integer
import CaplLayout.Toml.Fault

/-!
# Keys and strings of configuration documents

A basic string stands between double quotes and knows escapes; a literal string stands
between single quotes and knows none. Each has a form with three quotes that may run over
several lines: a line feed right behind the opening quotes is dropped, and up to two quotes
may stand right before the closing ones. A key is a path of names with points between them,
each a bare word or a string on one line.

An escape is read as the characters it stands for and the number of characters it takes, so
what is left to read is shorter by sight.
-/

set_option autoImplicit false

namespace CaplLayout.Toml

/-! ## Characters -/

/-- Control characters, the tab apart: comments and strings cannot hold them. -/
def isControl (c : Char) : Bool := (c.toNat < 32 || c.toNat = 127) && c != '\t'

/-- Blanks and line feeds. -/
def isGap (c : Char) : Bool := Text.isBlank c || c == '\n'

/-- The characters of bare keys. -/
def isBare (c : Char) : Bool := c.isAlphanum || c == '-' || c == '_'

/-- The characters that begin a key. -/
def isKeyStart (c : Char) : Bool := isBare c || c == '"' || c == '\''

/-! ## Gaps and comments -/

/-- Skips a comment, up to the line feed that ends it. -/
def skipCommentText : Text → Except Refusal Text
  | [] => .ok []
  | c :: r =>
    if c = '\n' then .ok (c :: r)
    else if isControl c then refuse (.illegalElsewhere c) (c :: r)
    else skipCommentText r

/-- Skips a comment if there is one. -/
def skipComment : Text → Except Refusal Text
  | '#' :: r => skipCommentText r
  | s => .ok s

/-- Skips blanks, line feeds and comments; `inside` says that a comment has begun. -/
def skipGaps (inside : Bool) : Text → Except Refusal Text
  | [] => .ok []
  | c :: r =>
    if inside then
      if c = '\n' then skipGaps false r
      else if isControl c then refuse (.illegalElsewhere c) (c :: r)
      else skipGaps true r
    else if isGap c then skipGaps false r
    else if c = '#' then skipGaps true r
    else .ok (c :: r)

/-! ## Escapes -/

/-- Whether a character is a hexadecimal digit. -/
def isHexDigit (c : Char) : Bool :=
  Integer.isDigit c || ('a' ≤ c && c ≤ 'f') || ('A' ≤ c && c ≤ 'F')

/-- The value of a hexadecimal digit. -/
def hexValue (c : Char) : Nat :=
  if Integer.isDigit c then c.toNat - 48
  else if 'a' ≤ c then c.toNat - 87
  else c.toNat - 55

/-- The number that digits of a base denote, by the values of the digits. -/
def ofBase (base : Nat) (digits : Text) : Nat :=
  digits.foldl (fun n c => base * n + hexValue c) 0

/-- The character whose number `width` hexadecimal digits give. -/
def codePoint (width : Nat) (s : Text) : Except Refusal Char :=
  let digits := s.take width
  if digits.length = width ∧ digits.all isHexDigit then
    let n := ofBase 16 digits
    if n < 0xD800 ∨ (0xE000 ≤ n ∧ n < 0x110000) then .ok (Char.ofNat n)
    else refuse .badCodePoint (s.drop width)
  else refuse .badHex s

/-- What an escape stands for and how many characters behind the backslash it takes. -/
def escape : Text → Except Refusal (Text × Nat)
  | 'b' :: _ => .ok ([Char.ofNat 8], 1)
  | 't' :: _ => .ok (['\t'], 1)
  | 'n' :: _ => .ok (['\n'], 1)
  | 'f' :: _ => .ok ([Char.ofNat 12], 1)
  | 'r' :: _ => .ok (['\r'], 1)
  | '"' :: _ => .ok (['"'], 1)
  | '\\' :: _ => .ok (['\\'], 1)
  | 'u' :: r => (codePoint 4 r).map fun c => ([c], 5)
  | 'U' :: r => (codePoint 8 r).map fun c => ([c], 9)
  | r => refuse .badEscape (r.drop 1)

/-- As `escape`; a backslash at the end of a line joins it with the next text. -/
def escapeOrJoin (s : Text) : Except Refusal (Text × Nat) :=
  match s with
  | [] => escape []
  | c :: _ =>
    if isGap c then
      match s.dropWhile Text.isBlank with
      | [] => .ok ([], s.length)
      | d :: r =>
        if d = '\n' then .ok ([], s.length - (r.dropWhile isGap).length)
        else refuse .badEscape (d :: r)
    else escape s

/-! ## Strings -/

/-- Reads a basic string behind its opening quote. -/
def basicString : Text → Except Refusal (Text × Text)
  | [] => refuse .openString []
  | c :: r =>
    if c = '"' then .ok ([], r)
    else if c = '\\' then do
      let (front, taken) ← escape r
      let (t, rest) ← basicString (r.drop taken)
      .ok (front ++ t, rest)
    else if isControl c then refuse (.illegalInString c) (c :: r)
    else do
      let (t, rest) ← basicString r
      .ok (c :: t, rest)
termination_by s => s.length
decreasing_by all_goals simp only [List.length_drop, List.length_cons]; omega

/-- Reads a basic string over several lines behind its opening quotes. -/
def basicLines : Text → Except Refusal (Text × Text)
  | [] => refuse .openString []
  | c :: r =>
    if c = '"' then
      if r.take 2 = ['"', '"'] then .ok ([], r.drop 2)
      else do
        let (t, rest) ← basicLines r
        .ok (c :: t, rest)
    else if c = '\\' then do
      let (front, taken) ← escapeOrJoin r
      let (t, rest) ← basicLines (r.drop taken)
      .ok (front ++ t, rest)
    else if isControl c && c != '\n' then refuse (.illegalInString c) (c :: r)
    else do
      let (t, rest) ← basicLines r
      .ok (c :: t, rest)
termination_by s => s.length
decreasing_by all_goals simp only [List.length_drop, List.length_cons]; omega

/-- The text before the first occurrence of `stop` and the text behind it. -/
def splitAtFirst (stop : Text) : Text → Option (Text × Text)
  | [] => none
  | c :: r =>
    if stop.isPrefixOf (c :: r) then some ([], (c :: r).drop stop.length)
    else (splitAtFirst stop r).map fun p => (c :: p.1, p.2)

/-- Reads a literal string up to the closing quotes `stop`. -/
def literalString (illegal : Char → Bool) (stop : Text) (s : Text) :
    Except Refusal (Text × Text) :=
  match splitAtFirst stop s with
  | none => refuse (.missingQuote stop) []
  | some (t, rest) =>
    match t.find? illegal with
    | some c => refuse (.illegalElsewhere c) (s.dropWhile fun d => !illegal d)
    | none => .ok (t, rest)

/-- The text without a line feed at its front. -/
def dropLineFeed : Text → Text
  | '\n' :: r => r
  | s => s

/-- Up to two further quotes behind the closing ones belong to the string. -/
def takeQuotes (quote : Char) (t rest : Text) : Text × Text :=
  let more := (rest.take 2).takeWhile (· == quote)
  (t ++ more, rest.drop more.length)

/-- Reads a string of any form, from its opening quote on; `none` if there is none. -/
def string? (s : Text) : Option (Except Refusal (Text × Text)) :=
  match s with
  | '"' :: '"' :: '"' :: r =>
    some ((basicLines (dropLineFeed r)).map fun p => takeQuotes '"' p.1 p.2)
  | '\'' :: '\'' :: '\'' :: r =>
    some ((literalString (fun c => isControl c && c != '\n') ['\'', '\'', '\'']
      (dropLineFeed r)).map fun p => takeQuotes '\'' p.1 p.2)
  | '"' :: r => some (basicString r)
  | '\'' :: r => some (literalString isControl ['\''] r)
  | _ => none

/-! ## Keys -/

/-- Reads one name of a key. -/
def keyPart : Text → Except Refusal (String × Text)
  | '"' :: r => (basicString r).map fun p => (String.ofList p.1, p.2)
  | '\'' :: r => (literalString isControl ['\''] r).map fun p => (String.ofList p.1, p.2)
  | s =>
    match s.takeWhile isBare with
    | [] => refuse .badKeyStart s
    | name => .ok (String.ofList name, s.dropWhile isBare)

/-- Reads at most `fuel` names with points between them, and the blanks behind them. -/
def keyParts : (fuel : Nat) → Text → Except Refusal (KeyPath × Text)
  | 0, s => refuse .badKeyStart s
  | fuel + 1, s => do
    let (name, rest) ← keyPart s
    match rest.dropWhile Text.isBlank with
    | '.' :: r =>
      let (more, rest) ← keyParts fuel (r.dropWhile Text.isBlank)
      .ok (name :: more, rest)
    | rest => .ok ([name], rest)

/-- Reads a key. -/
def key (s : Text) : Except Refusal (KeyPath × Text) := keyParts (s.length + 1) s

end CaplLayout.Toml
