import CaplLayout.Text.Basic

/-!
# White space and line boundaries

Three classes of characters that text handling distinguishes beyond the space and the tab:
the white space of Unicode, the wider class that also counts the four information
separators, and the characters that end a line when a text is cut for a comparison.
-/

set_option autoImplicit false

namespace CaplLayout.Text

/-- The Unicode property `White_Space`. -/
def isWhiteSpace (c : Char) : Bool :=
  let n := c.toNat
  (0x09 ≤ n && n ≤ 0x0D) || n == 0x20 || n == 0x85 || n == 0xA0 || n == 0x1680
    || (0x2000 ≤ n && n ≤ 0x200A) || n == 0x2028 || n == 0x2029 || n == 0x202F || n == 0x205F
    || n == 0x3000

/-- The information separators, from the file separator to the unit separator. -/
def isInformationSeparator (c : Char) : Bool := 0x1C ≤ c.toNat && c.toNat ≤ 0x1F

/-- White space or an information separator. -/
def isSpace (c : Char) : Bool := isWhiteSpace c || isInformationSeparator c

/-- The characters that end a line on their own. A carriage return directly before a line
feed does not; the two end the line together. -/
def isBoundary (c : Char) : Bool :=
  let n := c.toNat
  (0x0A ≤ n && n ≤ 0x0D) || (0x1C ≤ n && n ≤ 0x1E) || n == 0x85 || n == 0x2028 || n == 0x2029

/-- The lines of a text with the boundaries that end them; a text without one has none. -/
def boundedLines : Text → List Text
  | [] => []
  | c :: r =>
    let rest := boundedLines r
    if c = '\r' ∧ r.head? = some '\n' then consLine c rest
    else if isBoundary c then [c] :: rest
    else consLine c rest

end CaplLayout.Text
