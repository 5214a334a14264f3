/-!
# Binary floating point numbers of 64 bits

A finite number is a sign, a significand below `2^53` and an exponent counted from that of
the least number: its magnitude is `significand * 2^exponent / 2^1074`. Reading a decimal
rounds to the nearest number, ties to an even significand; writing one takes the fewest
digits that read back, and of these the nearest. All arithmetic is that of natural numbers.
-/

set_option autoImplicit false

namespace CaplLayout

/-- A binary floating point number of 64 bits. -/
inductive Binary64
  | finite (negative : Bool) (significand : Nat) (exponent : Nat)
  | infinite (negative : Bool)
  | notANumber
deriving DecidableEq, Repr, Inhabited

namespace Binary64

/-! ## Reading decimals -/

/-- The quotient `num / den` rounded to the nearest natural number, a tie to the even one. -/
def roundDiv (num den : Nat) : Nat :=
  let q := num / den
  let r := 2 * (num % den)
  if r < den then q
  else if den < r then q + 1
  else if q % 2 = 0 then q else q + 1

/-- The exponent at which the number `num / den / 2^1074` has a significand of 53 bits, or
zero if it is smaller than that. -/
def exponentOf (num den : Nat) : Nat :=
  let e := num.log2 - den.log2 - 53
  if num / (den * Nat.pow 2 e) < Nat.pow 2 53 then e
  else if num / (den * Nat.pow 2 (e + 1)) < Nat.pow 2 53 then e + 1
  else e + 2

/-- The number nearest to `num / den`. -/
def ofQuotient (negative : Bool) (num den : Nat) : Binary64 :=
  let scaled := num * Nat.pow 2 1074
  let e := exponentOf scaled den
  let m := roundDiv scaled (den * Nat.pow 2 e)
  let (m, e) := if m = Nat.pow 2 53 then (Nat.pow 2 52, e + 1) else (m, e)
  if 2045 < e then .infinite negative else .finite negative m e

/-- The number of decimal digits of `n`, none for zero. -/
def digitCount (n : Nat) : Nat := if n = 0 then 0 else (Nat.toDigits 10 n).length

/-- The number nearest to `digits * 10^exponent`. -/
def ofDecimal (negative : Bool) (digits : Nat) (exponent : Int) : Binary64 :=
  if digits = 0 then .finite negative 0 0
  else if 400 < exponent + digitCount digits then .infinite negative
  else if exponent + digitCount digits < -400 then .finite negative 0 0
  else if 0 ≤ exponent then ofQuotient negative (digits * Nat.pow 10 exponent.toNat) 1
  else ofQuotient negative digits (Nat.pow 10 (-exponent).toNat)

/-! ## Whole numbers -/

/-- The integer that a number equals, if it is finite and whole. -/
def toInt? : Binary64 → Option Int
  | .finite negative m e =>
    let n := m * Nat.pow 2 e
    if n % Nat.pow 2 1074 = 0 then
      some (if negative then -(n / Nat.pow 2 1074 : Nat) else (n / Nat.pow 2 1074 : Nat))
    else none
  | _ => none

/-- Whether a number is neither infinite nor undefined. -/
def isFinite : Binary64 → Bool
  | .finite .. => true
  | _ => false

/-! ## Writing decimals -/

/-- The decimal `digits * 10^exponent`. -/
structure Decimal where
  digits : Nat
  exponent : Int
deriving DecidableEq, Repr

/-- Whether the number `num / den` rounds to the number with significand `m` and exponent
`e`; the points halfway to its neighbours do exactly if `m` is even. -/
def roundsTo (m e : Nat) (num den : Nat) : Bool :=
  let x := 4 * num * Nat.pow 2 1074
  let unit := den * Nat.pow 2 e
  let low := if m = Nat.pow 2 52 ∧ 0 < e then (4 * m - 1) * unit else (4 * m - 2) * unit
  let high := (4 * m + 2) * unit
  if m % 2 = 0 then low ≤ x && x ≤ high else low < x && x < high

/-- The distance of `num / den` from the magnitude `m * 2^e / 2^1074`, over a denominator
that depends on `den` and `e` only. -/
def distance (m e : Nat) (num den : Nat) : Nat :=
  let x := num * Nat.pow 2 1074
  let y := m * Nat.pow 2 e * den
  (x - y) + (y - x)

/-- The better of the two decimals with exponent `k` next to the magnitude
`m * 2^e / 2^1074`, if one of them rounds to it. -/
def onGrid (m e : Nat) (k : Int) : Option Decimal :=
  let up := Nat.pow 10 k.toNat
  let down := Nat.pow 10 (-k).toNat
  let below := m * Nat.pow 2 e * down / (Nat.pow 2 1074 * up)
  let fits := fun d => roundsTo m e (d * up) down
  match fits below, fits (below + 1) with
  | true, true =>
    let a := distance m e (below * up) down
    let b := distance m e ((below + 1) * up) down
    if a < b ∨ (a = b ∧ below % 2 = 0) then some ⟨below, k⟩ else some ⟨below + 1, k⟩
  | true, false => some ⟨below, k⟩
  | false, true => some ⟨below + 1, k⟩
  | false, false => none

/-- The first grid with a decimal that reads back, from exponent `k` down. -/
def firstOnGrid (m e : Nat) : (steps : Nat) → (k : Int) → Decimal
  | 0, k => (onGrid m e k).getD ⟨0, k⟩
  | n + 1, k =>
    match onGrid m e k with
    | some d => d
    | none => firstOnGrid m e n (k - 1)

/-- The decimal of fewest digits that reads back as the magnitude `m * 2^e / 2^1074`. -/
def shortest (m e : Nat) : Decimal :=
  let whole := m * Nat.pow 2 e / Nat.pow 2 1074
  let top : Int :=
    if whole = 0 then -(digitCount (Nat.pow 2 1074 / (m * Nat.pow 2 e)) : Int) + 1
    else digitCount whole
  firstOnGrid m e 40 top

/-- A decimal without zeros at its end. -/
def Decimal.trimmed : (steps : Nat) → Decimal → Decimal
  | 0, d => d
  | n + 1, d =>
    if d.digits ≠ 0 ∧ d.digits % 10 = 0 then trimmed n ⟨d.digits / 10, d.exponent + 1⟩ else d

/-- The sign and at least two digits. -/
def exponentText (e : Int) : String :=
  let n := toString e.natAbs
  (if e < 0 then "-" else "+") ++ (if n.length < 2 then "0" ++ n else n)

/-- Positional below `10^16` and from `10^-4` on, with a fraction of at least one digit;
otherwise one digit before the point and an exponent of at least two digits. -/
def Decimal.text (d : Decimal) : String :=
  let digits := toString d.digits
  let scientific : Int := digits.length + d.exponent - 1
  if -4 ≤ scientific ∧ scientific < 16 then
    if 0 ≤ d.exponent then digits ++ String.ofList (List.replicate d.exponent.toNat '0') ++ ".0"
    else if 0 ≤ scientific then
      let n := scientific.toNat + 1
      String.ofList (digits.toList.take n) ++ "." ++ String.ofList (digits.toList.drop n)
    else "0." ++ String.ofList (List.replicate (-scientific - 1).toNat '0') ++ digits
  else
    let fraction := digits.toList.drop 1
    String.ofList (digits.toList.take 1)
      ++ (if fraction.isEmpty then "" else "." ++ String.ofList fraction)
      ++ "e" ++ exponentText scientific

/-- The text of a number. -/
def text : Binary64 → String
  | .notANumber => "nan"
  | .infinite negative => if negative then "-inf" else "inf"
  | .finite negative m e =>
    (if negative then "-" else "")
      ++ if m = 0 then "0.0" else (Decimal.trimmed 400 (shortest m e)).text

end Binary64

end CaplLayout
