import CaplLayout.Text.Space

/-!
# Integers as options write them

An integer may have white space around it and a sign in front of it; its digits are ASCII
digits, single underscores may stand between two of them, and a point with zeros only may
follow. A run of more than 4300 digits is not read.
-/

set_option autoImplicit false

namespace CaplLayout.Integer

/-- What a text reads as. -/
inductive Reading
  | value (n : Int)
  | malformed
  | tooLong
deriving DecidableEq, Repr

/-- The greatest number of digits that is read. -/
def maxDigits : Nat := 4300

/-- Whether a character is one of the ten ASCII digits. -/
def isDigit (c : Char) : Bool := '0' ≤ c && c ≤ '9'

/-- The value of an ASCII digit. -/
def digitValue (c : Char) : Nat := c.toNat - 48

/-- The number that digits denote. -/
def ofDigits (digits : Text) : Nat := digits.foldl (fun n c => 10 * n + digitValue c) 0

/-- Digits with single underscores between them, without the underscores; `none` if two
underscores meet or one stands at an end. -/
def joinGroups : Text → Option Text
  | [] => none
  | [c] => if isDigit c then some [c] else none
  | c :: d :: r =>
    if isDigit c then
      if d = '_' then (joinGroups r).map (c :: ·) else (joinGroups (d :: r)).map (c :: ·)
    else none

/-- The part before a point that only zeros follow. -/
def dropZeroFraction (s : Text) : Text :=
  let whole := s.takeWhile (· != '.')
  let fraction := (s.dropWhile (· != '.')).drop 1
  if !fraction.isEmpty && fraction.all (· == '0') then whole else s

/-- Splits the sign off. -/
def splitSign : Text → Bool × Text
  | '-' :: r => (true, r)
  | '+' :: r => (false, r)
  | s => (false, s)

/-- Reads an integer. -/
def read (s : Text) : Reading :=
  let (negative, body) := splitSign (Text.trim Text.isWhiteSpace s)
  if maxDigits < (body.takeWhile isDigit).length then .tooLong
  else
    match joinGroups (dropZeroFraction body) with
    | none => .malformed
    | some digits =>
      if maxDigits < digits.length then .tooLong
      else .value (if negative then -(ofDigits digits : Int) else ofDigits digits)

/-- Reads an integer without a fraction. White space around it includes the characters that
separate records. -/
def readWhole (s : Text) : Option Int :=
  let (negative, body) := splitSign (Text.trim Text.isSpace s)
  match joinGroups body with
  | none => none
  | some digits =>
    if maxDigits < digits.length then none
    else some (if negative then -(ofDigits digits : Int) else ofDigits digits)

end CaplLayout.Integer
