import CaplLayout.Toml.Atom

/-!
# Numbers and moments of configuration documents

Integers are decimal, or have a base that a letter behind a zero names; numbers with a
fraction or an exponent are floating point numbers. Single underscores may stand between
digits. A moment is a date, a time of day, or both with or without an offset; its standard
form has the letter `T` between date and time, six decimal places unless all are zero, and
the offset in hours and minutes.

Each reader takes the longest front of the text that has its form, and is `none` when no
front has it.
-/

set_option autoImplicit false

namespace CaplLayout.Toml

/-! ## Numbers -/

/-- The digits at the front, without the single underscores between them, and what follows
the last of them. -/
def digitGroups (p : Char → Bool) : Text → Text × Text
  | [] => ([], [])
  | [c] => if p c then ([c], []) else ([], [c])
  | c :: d :: r =>
    if p c then
      if d = '_' then
        match digitGroups p r with
        | ([], _) => ([c], d :: r)
        | (more, rest) => (c :: more, rest)
      else
        let (more, rest) := digitGroups p (d :: r)
        (c :: more, rest)
    else ([], c :: d :: r)

/-- Reads digits of a base, of which there has to be one. -/
def based? (base : Nat) (p : Char → Bool) (s : Text) : Option (Value × Text) :=
  match digitGroups p s with
  | ([], _) => none
  | (digits, rest) => some (.int (ofBase base digits), rest)

/-- Reads an integer of a named base. -/
def basedInteger? : Text → Option (Value × Text)
  | '0' :: 'x' :: r => based? 16 isHexDigit r
  | '0' :: 'b' :: r => based? 2 (fun c => c == '0' || c == '1') r
  | '0' :: 'o' :: r => based? 8 (fun c => '0' ≤ c && c ≤ '7') r
  | _ => none

/-- Reads the whole part of a decimal number: a zero, or digits that begin with another. -/
def wholePart : Text → Text × Text
  | '0' :: r => (['0'], r)
  | s => digitGroups Integer.isDigit s

/-- Reads a point and digits; no digits if the form is not met. -/
def fractionPart : Text → Text × Text
  | '.' :: r =>
    match digitGroups Integer.isDigit r with
    | ([], _) => ([], '.' :: r)
    | p => p
  | s => ([], s)

/-- Reads an exponent. -/
def exponentPart : Text → Option Int × Text
  | [] => (none, [])
  | c :: r =>
    if c = 'e' ∨ c = 'E' then
      let (negative, body) := Integer.splitSign r
      match digitGroups Integer.isDigit body with
      | ([], _) => (none, c :: r)
      | (digits, rest) =>
        let n := Integer.ofDigits digits
        (some (if negative then -(n : Int) else n), rest)
    else (none, c :: r)

/-- Reads a decimal number. -/
def decimal? (s : Text) : Option (Except Refusal (Value × Text)) :=
  let (negative, body) := Integer.splitSign s
  match wholePart body with
  | ([], _) => none
  | (whole, rest) =>
    let (fraction, rest) := fractionPart rest
    match fraction, exponentPart rest with
    | [], (none, rest) =>
      if Integer.maxDigits < whole.length then some (.error (.tooManyDigits whole.length))
      else
        let n := Integer.ofDigits whole
        some (.ok (.int (if negative then -(n : Int) else n), rest))
    | _, (exponent, rest) =>
      let x := Binary64.ofDecimal negative (Integer.ofDigits (whole ++ fraction))
        (exponent.getD 0 - fraction.length)
      some (.ok (.float x, rest))

/-- Reads an infinite or undefined number. -/
def specialFloat? (s : Text) : Option (Value × Text) :=
  let (negative, body) := Integer.splitSign s
  if body.take 3 = ['i', 'n', 'f'] then some (.float (.infinite negative), body.drop 3)
  else if body.take 3 = ['n', 'a', 'n'] then some (.float .notANumber, body.drop 3)
  else none

/-- Reads a number. -/
def number? (s : Text) : Option (Except Refusal (Value × Text)) :=
  match basedInteger? s with
  | some p => some (.ok p)
  | none => (decimal? s).or ((specialFloat? s).map .ok)

/-! ## Moments -/

/-- Reads `width` digits. -/
def digits? (width : Nat) (s : Text) : Option (Text × Text) :=
  let digits := s.take width
  if digits.length = width ∧ digits.all Integer.isDigit then some (digits, s.drop width)
  else none

/-- Reads two digits that denote a number from `low` to `high`. -/
def pair? (low high : Nat) (s : Text) : Option (Text × Text) :=
  match digits? 2 s with
  | some (digits, rest) =>
    let n := Integer.ofDigits digits
    if low ≤ n ∧ n ≤ high then some (digits, rest) else none
  | none => none

/-- The text behind a character, if it begins with it. -/
def behind? (c : Char) : Text → Option Text
  | [] => none
  | d :: r => if d = c then some r else none

/-- Reads a date: the digits of its year, month and day. -/
def date? (s : Text) : Option ((Text × Text × Text) × Text) := do
  let (year, s) ← digits? 4 s
  let (month, s) ← pair? 1 12 (← behind? '-' s)
  let (day, s) ← pair? 1 31 (← behind? '-' s)
  some ((year, month, day), s)

/-- Whether a year has a day more. -/
def isLeap (year : Nat) : Bool := year % 4 = 0 && (year % 100 != 0 || year % 400 = 0)

/-- The number of days of a month. -/
def daysIn (year month : Nat) : Nat :=
  if month = 2 then if isLeap year then 29 else 28
  else if month = 4 ∨ month = 6 ∨ month = 9 ∨ month = 11 then 30
  else 31

/-- Whether a date is in the calendar, which has no year zero. -/
def isDate (date : Text × Text × Text) : Bool :=
  let year := Integer.ofDigits date.1
  1 ≤ year && Integer.ofDigits date.2.2 ≤ daysIn year (Integer.ofDigits date.2.1)

/-- A date in its standard form. -/
def dateText (date : Text × Text × Text) : Text :=
  date.1 ++ '-' :: date.2.1 ++ '-' :: date.2.2

/-- Decimal places of a second in their standard form: six of them, none if all are zero. -/
def placesText (places : Text) : Text :=
  let six := (places ++ List.replicate 6 '0').take 6
  if six.all (· == '0') then [] else '.' :: six

/-- Reads a time of day as its standard form. -/
def time? (s : Text) : Option (Text × Text) := do
  let (hour, s) ← pair? 0 23 s
  let (minute, s) ← pair? 0 59 (← behind? ':' s)
  let (second, s) ← pair? 0 59 (← behind? ':' s)
  let (places, s) :=
    match s with
    | '.' :: r =>
      match r.takeWhile Integer.isDigit with
      | [] => ([], s)
      | places => (places, r.dropWhile Integer.isDigit)
    | s => ([], s)
  some (hour ++ ':' :: minute ++ ':' :: second ++ placesText places, s)

/-- Reads an offset as its standard form, which has no negative zero. -/
def offset? : Text → Option (Text × Text)
  | [] => none
  | c :: r =>
    if c = 'Z' ∨ c = 'z' then some (['+', '0', '0', ':', '0', '0'], r)
    else if c = '+' ∨ c = '-' then do
      let (hour, r) ← pair? 0 23 r
      let (minute, r) ← pair? 0 59 (← behind? ':' r)
      let sign := if Integer.ofDigits (hour ++ minute) = 0 then '+' else c
      some (sign :: hour ++ ':' :: minute, r)
    else none

/-- Reads a time of day and its offset behind a date. -/
def timeOfDate? : Text → Option (Text × Text)
  | [] => none
  | c :: r =>
    if c = 'T' ∨ c = 't' ∨ c = ' ' then do
      let (time, r) ← time? r
      match offset? r with
      | some (offset, rest) => some (time ++ offset, rest)
      | none => some (time, r)
    else none

/-- A moment with a text. -/
def moment (kind : MomentKind) (text : Text) : Value :=
  .moment ⟨kind, String.ofList text⟩

/-- Reads a moment. -/
def moment? (s : Text) : Option (Except Refusal (Value × Text)) :=
  match date? s with
  | some (date, rest) =>
    some <|
      if isDate date then
        match timeOfDate? rest with
        | some (time, rest) => .ok (moment .dateTime (dateText date ++ 'T' :: time), rest)
        | none => .ok (moment .date (dateText date), rest)
      else refuse .badMoment s
  | none => (time? s).map fun p => .ok (moment .time p.1, p.2)

end CaplLayout.Toml
