import CaplLayout.Syntax.C.Literal

/-!
# Parsing tokens

A `Parse` takes tokens from the front of its input and gives the trees that they make, or
does not apply. `p ++ q` runs one behind the other, `p <|> q` runs the second where the first
does not apply, and `node` makes a node of what another one gives.

Some tokens can be read in more than one way. Each reading has a weight, to which its
declarators and types add, and `best` takes the reading of the greater weight.

An input may be lenient. In a lenient input a broken part is repaired, at a cost: a token that
is not there is put in, or what stands in the way is left out as an error. `repaired` takes
the cheapest repair after which the part can be parsed.
-/

set_option autoImplicit false

namespace CaplLayout.C

/-- What is left to parse, and how it went so far. -/
structure Input where
  tokens : List Token
  /-- Where the token before ended. -/
  last : Spot := {}
  /-- The fewest tokens that were left at any time, also on ways that were given up. -/
  reach : Nat := tokens.length
  /-- The weight of what has been read. -/
  weight : Int := 0
  /-- Whether broken parts are repaired. -/
  lenient : Bool := false
  /-- How many repairs may still be made. -/
  spare : Nat := 0
  /-- How many tokens are left where a repair may be made. -/
  stuck : Nat := 0
  /-- What the repairs cost. -/
  cost : Nat := 0
  /-- Whether characters that begin no token stand behind the last one. -/
  spoiledEnd : Bool := false
deriving Repr, Inhabited

/-- Takes tokens from an input and makes trees of them. Where it does not apply, what it
gives back tells how far it got. -/
structure Parse where
  run : Input → Option (List Tree) × Input

namespace Parse

instance : Inhabited Parse := ⟨⟨fun i => (none, i)⟩⟩

/-! ## Combinations -/

/-- Applies nowhere. -/
def fail : Parse := ⟨fun i => (none, i)⟩

/-- Takes nothing and gives the trees it is given. -/
def give (trees : List Tree) : Parse := ⟨fun i => (some trees, i)⟩

/-- Takes nothing. -/
def nothing : Parse := give []

/-- Takes nothing and adds to the weight. -/
def weigh (w : Int) : Parse := ⟨fun i => (some [], { i with weight := i.weight + w })⟩

/-- Goes on with what the trees so far call for. -/
def bind (p : Parse) (f : List Tree → Parse) : Parse :=
  ⟨fun i =>
    match p.run i with
    | (none, j) => (none, j)
    | (some trees, j) => (f trees).run j⟩

/-- Runs one behind the other. -/
def seq (p q : Parse) : Parse :=
  p.bind fun a => q.bind fun b => give (a ++ b)

instance : Append Parse := ⟨seq⟩

/-- Runs the second where the first does not apply. -/
def alt (p : Parse) (q : Unit → Parse) : Parse :=
  ⟨fun i =>
    match p.run i with
    | (some trees, j) => (some trees, j)
    | (none, j) => (q ()).run { i with reach := j.reach }⟩

instance : OrElse Parse := ⟨alt⟩

/-- Whether a reading is better than another one of the same input: it takes more tokens, or
as many and has the greater weight. -/
def isBetter (a b : Input) : Bool :=
  a.tokens.length < b.tokens.length
    || (a.tokens.length == b.tokens.length && b.weight < a.weight)

/-- Runs both and takes the better reading, the first one if neither is better. -/
def best (p q : Parse) : Parse :=
  ⟨fun i =>
    match p.run i with
    | (none, j) => q.run { i with reach := j.reach }
    | (some trees, j) =>
      match q.run { i with reach := j.reach } with
      | (none, k) => (some trees, { j with reach := k.reach })
      | (some trees', k) =>
        if isBetter k j then (some trees', k) else (some trees, { j with reach := k.reach })⟩

/-- Chooses by the tokens to come. -/
def peek (f : List Token → Parse) : Parse := ⟨fun i => (f i.tokens).run i⟩

/-- Applies, without taking anything, where another one does. -/
def ahead (p : Parse) : Parse :=
  ⟨fun i =>
    match p.run { i with lenient := false, spare := 0 } with
    | (some _, j) => (some [], { i with reach := j.reach })
    | (none, j) => (none, { i with reach := j.reach })⟩

/-- Runs if it applies. -/
def opt (p : Parse) : Parse := p <|> nothing

/-- Runs at most `fuel` times, as long as it applies and takes tokens. -/
def manyUpTo : (fuel : Nat) → Parse → Parse
  | 0, _ => nothing
  | fuel + 1, p =>
    ⟨fun i =>
      match p.run i with
      | (none, j) => (some [], { i with reach := j.reach })
      | (some trees, j) =>
        if j.tokens.length < i.tokens.length then
          ((give trees).seq (manyUpTo fuel p)).run j
        else (some [], { i with reach := j.reach })⟩

/-- Runs as long as it applies. -/
def many (p : Parse) : Parse := peek fun ts => manyUpTo ts.length p

/-- Makes a node of what another one gives, behind trees that are there already. -/
def extend (front : List Tree) (type : String) (p : Parse) : Parse :=
  p.bind fun trees => give [branch type (front ++ trees)]

/-- Makes a node of what another one gives. -/
def node (type : String) (p : Parse) : Parse := extend [] type p

/-! ## Tokens -/

/-- Takes a token that makes a tree. -/
def token (f : Token → Option Tree) : Parse :=
  ⟨fun i =>
    match i.tokens with
    | [] => (none, i)
    | t :: r =>
      match f t with
      | none => (none, i)
      | some tree =>
        (some (t.before ++ [tree]),
          { i with tokens := r, last := t.stop, reach := min i.reach r.length })⟩

/-- Takes a given mark or word. -/
def plain (s : String) : Parse :=
  token fun t => if t.isPlain s then some (leaf s false t.start t.text) else none

/-- Takes one of several marks or words. -/
def oneOf : List String → Parse
  | [] => fail
  | s :: r => plain s <|> oneOf r

/-- Takes a word that satisfies `p`, as a node of the given type. -/
def wordAs (type : String) (p : String → Bool) : Parse :=
  token fun t =>
    if (t.word?.any p) then some (leaf type true t.start t.text) else none

/-- Whether the next token is a given mark or word. -/
def isNext (ts : List Token) (s : String) : Bool := (ts.head?.map (·.isPlain s)).getD false

/-- Whether the next token is one of several marks or words. -/
def isNextOf (ts : List Token) (marks : List String) : Bool := marks.any (isNext ts)

/-- Runs unless a given mark or word is next. -/
def unlessNext (s : String) (p : Parse) : Parse :=
  peek fun ts => if isNext ts s then nothing else p

/-- Runs if a given mark or word is next. -/
def ifNext (s : String) (p : Parse) : Parse := peek fun ts => if isNext ts s then p else fail

/-! ## Repairs -/

/-- What putting in a token costs. -/
def missingCost : Nat := 610

/-- What leaving out trees of the given number of bytes costs. -/
def strayCost (trees bytes : Nat) : Nat := 500 + 100 * trees + bytes

/-- Makes a repair, if one may still be made, behind which the token that is in the way is
next. -/
def repair (cost : Nat) (p : Parse) : Parse :=
  ⟨fun i =>
    if i.spare = 0 then (none, i)
    else
      match p.run { i with spare := i.spare - 1, cost := i.cost + cost } with
      | (some trees, j) => if j.tokens.length = i.stuck then (some trees, j) else (none, i)
      | (none, j) => (none, j)⟩

/-- Whether trees in front of a token hold an error. -/
def isSpoiled (before : List Tree) : Bool := before.any (·.info.hasError)

/-- Puts in a token that is not there; not where characters stand that begin no token. -/
def putIn (type : String) (named : Bool) : Parse :=
  repair missingCost ⟨fun i =>
    match i.tokens with
    | [] => if i.spoiledEnd then (none, i) else (some [missingNode type named i.last], i)
    | t :: _ =>
      if isSpoiled t.before then (none, i) else (some [missingNode type named i.last], i)⟩

/-- Takes a given mark, or puts it in. -/
def needed (s : String) : Parse := plain s <|> putIn s false

/-- Takes a given mark, or puts it in at the end of the input. -/
def neededAtEnd (s : String) : Parse :=
  plain s <|> peek fun ts => if ts.isEmpty then putIn s false else fail

/-- The marks that end an expression. -/
def expressionEnds : List String := [";", ")", "]", "\x7d", ",", ":"]

/-- Runs unless the end of an expression is next. -/
def unlessEnd (p : Parse) : Parse :=
  peek fun ts => if isNextOf ts expressionEnds then nothing else p

/-- Leaves out one of several marks that stands right before the end of an expression. -/
def strayMark (marks : List String) : Parse :=
  peek fun ts =>
    if isNextOf (ts.drop 1) expressionEnds then
      (repair (strayCost 1 ((ts.head?.map fun t => t.text.length).getD 0)) (oneOf marks)).bind
        fun trees => give [errorNode trees]
    else fail

/-- One or more with commas between them. A comma that nothing follows is left out. -/
def list (p : Parse) : Parse := p ++ many (strayMark [","] <|> plain "," ++ p)

/-- The tokens without the one that is followed by `n - 1` others; it becomes an error in
front of the next one, which is read for itself. -/
def leaveOut (n : Nat) (tree : Token → Tree) : List Token → List Token
  | [] => []
  | [t] => [t]
  | t :: u :: r =>
    if (u :: r).length + 1 = n then
      { u with before := t.before ++ errorNode [tree t] :: u.before, literal := true } :: r
    else t :: leaveOut n tree (u :: r)

/-- The token that is followed by `n - 1` others. -/
def tokenAt (n : Nat) (ts : List Token) : Option Token := (ts.drop (ts.length - n)).head?

/-- The repair that costs less; one that does not lead on is none. -/
def cheaper (a b : Option (List Tree) × Input) : Option (List Tree) × Input :=
  match a.1, b.1 with
  | none, _ => b
  | some _, none => a
  | some _, some _ => if b.2.cost < a.2.cost then b else a

/-- Runs on whole parts first. On a broken one, if the input is lenient, it leaves out the
token at which it got stuck, or makes one repair inside, whatever costs less. The mark that
ends the list of parts, if there is one, is not left out. -/
def repaired (ending : Option String) (tree : Token → Tree) (p : Parse) : Parse :=
  ⟨fun i =>
    let strict := { i with lenient := false, spare := 0, reach := i.tokens.length }
    let resume := fun r : Option (List Tree) × Input =>
      (r.1, { r.2 with lenient := i.lenient, spare := i.spare, reach := min i.reach r.2.reach })
    match p.run strict with
    | (some trees, j) => resume (some trees, j)
    | (none, j) =>
      if i.lenient then
        let without :=
          match tokenAt j.reach i.tokens with
          | none => (none, i)
          | some t =>
            if i.tokens.length < 2 || j.reach = 1 || ending.any t.isPlain then (none, i)
            else
              let ts := leaveOut j.reach tree i.tokens
              let cost := i.cost + strayCost 1 (t.stop.offset - t.start.offset)
              p.run { strict with tokens := ts, reach := ts.length, cost := cost }
        resume (cheaper without (p.run { i with spare := 1, stuck := j.reach }))
      else resume (none, j)⟩

end Parse

/-! ## The grammar's cycle -/

/-- The parses that the grammar's rules refer to from deeper inside. -/
structure Rules where
  /-- An operand with the operators in front of it. -/
  operand : Parse := .fail
  /-- An operand, or an assignment to one. -/
  unary : Parse := .fail
  /-- The same behind a sign, which binds tighter than a step. -/
  signed : Parse := .fail
  expression : Parse := .fail
  comma : Parse := .fail
  typeSpecifier : Parse := .fail
  typeDescriptor : Parse := .fail
  /-- A declarator whose name has the given type. -/
  declarator : String → Parse := fun _ => .fail
  abstractDeclarator : Parse := .fail
  initializer : Parse := .fail
  compound : Parse := .fail
  statement : Parse := .fail
  /-- A statement that another one governs. -/
  governed : Parse := .fail
  item : Parse := .fail

end CaplLayout.C
