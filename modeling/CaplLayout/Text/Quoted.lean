import CaplLayout.Text.Printable

/-!
# Quoted texts

Two ways of writing a text between quotes.

* `encode` writes double quotes and ASCII characters only: a character outside the printable
  ASCII range becomes `\uXXXX`, or two of these for a code point beyond `U+FFFF`.
* `inspect` picks the quote that the text does not need escaped and leaves printable
  characters of any script as they are.
-/

set_option autoImplicit false

namespace CaplLayout.Quoted

/-! ## Hexadecimal digits -/

/-- The `width` lowest hexadecimal digits of `n`, in lower case. -/
def hexDigits : (width : Nat) → (n : Nat) → Text
  | 0, _ => []
  | w + 1, n => hexDigits w (n / 16) ++ [Nat.digitChar (n % 16)]

theorem length_hexDigits (w n : Nat) : (hexDigits w n).length = w := by
  induction w generalizing n with
  | zero => rfl
  | succ w ih => simp [hexDigits, ih]

/-! ## ASCII quoting -/

/-- A unit of sixteen bits as an escape. -/
def unitEscape (n : Nat) : Text := '\\' :: 'u' :: hexDigits 4 n

/-- A character between the quotes. -/
def encodeChar (c : Char) : Text :=
  let n := c.toNat
  if c = '"' then ['\\', '"']
  else if c = '\\' then ['\\', '\\']
  else if c = '\n' then ['\\', 'n']
  else if c = '\r' then ['\\', 'r']
  else if c = '\t' then ['\\', 't']
  else if n = 0x08 then ['\\', 'b']
  else if n = 0x0C then ['\\', 'f']
  else if 0x20 ≤ n ∧ n ≤ 0x7E then [c]
  else if n < 0x10000 then unitEscape n
  else unitEscape (0xD800 + (n - 0x10000) / 0x400) ++ unitEscape (0xDC00 + (n - 0x10000) % 0x400)

/-- The text between double quotes, in ASCII. -/
def encode (s : Text) : Text := '"' :: s.flatMap encodeChar ++ ['"']

/-! ## Quoting for messages -/

/-- The quote for a text: the single one, unless the text holds it and no double one. -/
def quoteFor (s : Text) : Char :=
  if s.contains '\'' && !s.contains '"' then '"' else '\''

/-- A character between the quotes `q`. -/
def inspectChar (q : Char) (c : Char) : Text :=
  let n := c.toNat
  if c = q ∨ c = '\\' then ['\\', c]
  else if c = '\n' then ['\\', 'n']
  else if c = '\r' then ['\\', 'r']
  else if c = '\t' then ['\\', 't']
  else if Text.isPrintable c then [c]
  else if n < 0x100 then '\\' :: 'x' :: hexDigits 2 n
  else if n < 0x10000 then unitEscape n
  else '\\' :: 'U' :: hexDigits 8 n

/-- The text between quotes as messages show it. -/
def inspect (s : Text) : Text :=
  quoteFor s :: s.flatMap (inspectChar (quoteFor s)) ++ [quoteFor s]

/-- The quoted form of a name. -/
def inspectName (s : String) : String := String.ofList (inspect s.toList)

end CaplLayout.Quoted
