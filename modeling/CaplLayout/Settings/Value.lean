import CaplLayout.Decimal.Binary64
import CaplLayout.Keyed
import CaplLayout.Text.Quoted

/-!
# Option values

Options arrive unchecked, from a file or from a caller: a value of any of the shapes that a
configuration language knows, and a list of named values. Names are distinct and keep the
order in which they were first given; giving a name again replaces its value in place.
-/

set_option autoImplicit false

namespace CaplLayout

/-- The three kinds of a point in time. -/
inductive MomentKind
  | dateTime
  | date
  | time
deriving DecidableEq, Repr, Inhabited

/-- A point in time in its standard written form. -/
structure Moment where
  kind : MomentKind
  text : String
deriving DecidableEq, Repr, Inhabited

/-- An unchecked option value. -/
inductive Value
  | null
  | bool (b : Bool)
  | int (n : Int)
  | float (x : Binary64)
  | str (s : String)
  | moment (m : Moment)
  | array (items : List Value)
  | table (entries : List (String × Value))
deriving Repr, Inhabited

namespace Value

/-- Whether a value stands for an option that is not set. -/
def isNull : Value → Bool
  | .null => true
  | _ => false

/-! ## Equality -/

mutual

/-- Whether two values are the same, compared part by part. -/
def same : Value → Value → Bool
  | .null, .null => true
  | .bool a, .bool b => decide (a = b)
  | .int m, .int n => decide (m = n)
  | .float x, .float y => decide (x = y)
  | .str s, .str t => decide (s = t)
  | .moment m, .moment n => decide (m = n)
  | .array items, .array others => sameItems items others
  | .table entries, .table others => sameEntries entries others
  | _, _ => false

/-- Whether two lists have the same items. -/
def sameItems : List Value → List Value → Bool
  | [], [] => true
  | v :: r, w :: s => same v w && sameItems r s
  | _, _ => false

/-- Whether two lists have the same values under the same names. -/
def sameEntries : List (String × Value) → List (String × Value) → Bool
  | [], [] => true
  | (k, v) :: r, (l, w) :: s => decide (k = l) && same v w && sameEntries r s
  | _, _ => false

end

-- a value holds lists of values, so the cases follow the three comparisons together
mutual

theorem same_iff (v w : Value) : same v w = true ↔ v = w := by
  cases v with
  | null | bool | int | float | str | moment => cases w <;> simp [same]
  | array items => cases w <;> simp [same, sameItems_iff items]
  | table entries => cases w <;> simp [same, sameEntries_iff entries]

theorem sameItems_iff (items others : List Value) :
    sameItems items others = true ↔ items = others := by
  cases items with
  | nil => cases others <;> simp [sameItems]
  | cons v r => cases others <;> simp [sameItems, same_iff v, sameItems_iff r]

theorem sameEntries_iff (entries others : List (String × Value)) :
    sameEntries entries others = true ↔ entries = others := by
  match entries, others with
  | [], [] => simp [sameEntries]
  | [], _ :: _ => simp [sameEntries]
  | _ :: _, [] => simp [sameEntries]
  | (k, v) :: r, (l, w) :: s =>
      simp [sameEntries, same_iff v, sameEntries_iff r, Prod.ext_iff, and_assoc]

end

instance : DecidableEq Value := fun v w => decidable_of_iff _ (same_iff v w)

/-! ## Texts of values -/

mutual

/-- The text of a value inside a message: strings quoted, items between brackets. -/
def inspect : Value → String
  | .null => "None"
  | .bool b => if b then "True" else "False"
  | .int n => toString n
  | .float x => x.text
  | .str s => Quoted.inspectName s
  | .moment m => m.text
  | .array items => "[" ++ inspectItems items ++ "]"
  | .table entries => "\x7b" ++ inspectEntries entries ++ "\x7d"

/-- The texts of items, with commas between them. -/
def inspectItems : List Value → String
  | [] => ""
  | [v] => inspect v
  | v :: w :: r => inspect v ++ ", " ++ inspectItems (w :: r)

/-- The texts of named values, with commas between them. -/
def inspectEntries : List (String × Value) → String
  | [] => ""
  | [(k, v)] => Quoted.inspectName k ++ ": " ++ inspect v
  | (k, v) :: e :: r =>
    Quoted.inspectName k ++ ": " ++ inspect v ++ ", " ++ inspectEntries (e :: r)

end

/-- The text of a value that stands alone: a string shows without quotes. -/
def display : Value → String
  | .str s => s
  | v => inspect v

/-- The text of several values between parentheses; one alone is followed by a comma. -/
def inspectTuple : List Value → String
  | [v] => "(" ++ inspect v ++ ",)"
  | vs => "(" ++ inspectItems vs ++ ")"

end Value

/-- Named values in the order in which their names were first given. -/
abbrev Options := List (String × Value)

namespace Options

/-- The value of a name. -/
def get? (o : Options) (name : String) : Option Value := o.lookup name

/-- The options with a value for a name: in the place of the name's present value, or at the
end if it has none. -/
def put (o : Options) (name : String) (v : Value) : Options := Keyed.put o name v

/-- The options with all further ones put in, in order. -/
def putAll (o further : Options) : Options :=
  further.foldl (fun acc e => acc.put e.1 e.2) o

/-- The options without a name. -/
def without (o : Options) (name : String) : Options := o.filter fun e => e.1 != name

/-- Options of several sources, later ones winning; an option that is not set is skipped. -/
def merge (sources : List Options) : Options :=
  sources.foldl (fun acc o => acc.putAll (o.filter fun e => !e.2.isNull)) []

theorem get?_put (o : Options) (name other : String) (v : Value) :
    (o.put name v).get? other = if other = name then some v else o.get? other :=
  Keyed.lookup_put o name other v

end Options

end CaplLayout
