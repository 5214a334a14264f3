import CaplLayout.Toml.Document
import CaplLayout.Toml.Number

/-!
# Reading configuration documents

A document is a list of statements, one a line: a header that opens a table, a header that
adds a table to a series, or a key with its value. Pairs of a carriage return and a line feed
count as line feeds. `read` gives the named values of the whole document, or says why there
are none.

Readers that call one another carry fuel; the length of the text bounds what they use.
-/

set_option autoImplicit false

namespace CaplLayout.Toml

/-! ## Values -/

/-- Reads a word that stands for a truth value. -/
def truth? (s : Text) : Option (Value × Text) :=
  if s.take 4 = ['t', 'r', 'u', 'e'] then some (.bool true, s.drop 4)
  else if s.take 5 = ['f', 'a', 'l', 's', 'e'] then some (.bool false, s.drop 5)
  else none

/-- Reads a value without parts. -/
def scalar (s : Text) : Except Refusal (Value × Text) :=
  match string? s with
  | some r => r.map fun p => (.str (String.ofList p.1), p.2)
  | none =>
    match truth? s with
    | some p => .ok p
    | none =>
      match (moment? s).or (number? s) with
      | some r => r
      | none => refuse .badValue s

/-- The refusal, at a place, that a reason gives. -/
def lift {α : Type} (rest : Text) : Except Reason α → Except Refusal α
  | .ok a => .ok a
  | .error reason => refuse reason rest

mutual

/-- Reads a value. -/
def value : (fuel : Nat) → Text → Except Refusal (Value × Text)
  | 0, s => refuse .badValue s
  | fuel + 1, s =>
    match s with
    | '[' :: r => do
      match ← skipGaps false r with
      | ']' :: rest => .ok (.array [], rest)
      | r =>
        let (items, rest) ← items fuel r
        .ok (.array items, rest)
    | '\x7b' :: r => do
      match r.dropWhile Text.isBlank with
      | '\x7d' :: rest => .ok (.table [], rest)
      | r =>
        let (entries, rest) ← inlineEntries fuel [] r
        .ok (.table (Node.options entries), rest)
    | s => scalar s

/-- Reads the items of an array, of which there is one at least, and the closing bracket. -/
def items : (fuel : Nat) → Text → Except Refusal (List Value × Text)
  | 0, s => refuse .badValue s
  | fuel + 1, s => do
    let (v, rest) ← value fuel s
    match ← skipGaps false rest with
    | ']' :: rest => .ok ([v], rest)
    | ',' :: r =>
      match ← skipGaps false r with
      | ']' :: rest => .ok ([v], rest)
      | r =>
        let (more, rest) ← items fuel r
        .ok (v :: more, rest)
    | rest => refuse .openArray rest

/-- Reads a key, the sign behind it and a value. -/
def keyedValue : (fuel : Nat) → Text → Except Refusal ((KeyPath × Value) × Text)
  | 0, s => refuse .badValue s
  | fuel + 1, s => do
    let (path, rest) ← key s
    match rest with
    | '=' :: r =>
      let (v, rest) ← value fuel (r.dropWhile Text.isBlank)
      .ok ((path, v), rest)
    | rest => refuse .missingEquals rest

/-- Reads the entries of a table that is written out as a value, of which there is one at
least, and the closing brace. -/
def inlineEntries : (fuel : Nat) → Entries → Text → Except Refusal (Entries × Text)
  | 0, _, s => refuse .badValue s
  | fuel + 1, entries, s => do
    let ((path, v), rest) ← keyedValue fuel s
    let entries ← lift rest (assignInline entries path v)
    match rest.dropWhile Text.isBlank with
    | '\x7d' :: rest => .ok (entries, rest)
    | ',' :: r => inlineEntries fuel entries (r.dropWhile Text.isBlank)
    | rest => refuse .openTable rest

end

/-! ## Statements -/

/-- A document as far as it has been read. -/
structure Draft where
  entries : Entries := []
  /-- The table that the last header opened. -/
  header : KeyPath := []
  /-- The tables that keys have mentioned since then: the next header declares them. -/
  mentioned : List KeyPath := []

/-- The draft with all mentioned tables declared. -/
def Draft.settle (d : Draft) : Draft :=
  { d with
    entries := d.mentioned.foldl (adjust markDeclared) d.entries
    mentioned := [] }

/-- Reads a key and its value. -/
def Draft.keyLine (d : Draft) (s : Text) : Except Refusal (Draft × Text) := do
  let ((path, v), rest) ← keyedValue (4 * s.length + 4) s
  let entries ← lift rest (assign d.entries d.header path v)
  .ok ({ d with entries, mentioned := d.mentioned ++ wayTo d.header path }, rest)

/-- Reads a header of a table behind its opening bracket. -/
def Draft.tableHeader (d : Draft) (s : Text) : Except Refusal (Draft × Text) := do
  let d := d.settle
  let (path, rest) ← key (s.dropWhile Text.isBlank)
  let entries ← lift rest (declare d.entries path)
  match rest with
  | ']' :: rest => .ok ({ d with entries, header := path }, rest)
  | rest => refuse .openHeader rest

/-- Reads a header of a series behind its opening brackets. -/
def Draft.seriesHeader (d : Draft) (s : Text) : Except Refusal (Draft × Text) := do
  let d := d.settle
  let (path, rest) ← key (s.dropWhile Text.isBlank)
  let entries ← lift rest (extend d.entries path)
  match rest with
  | ']' :: ']' :: rest => .ok ({ d with entries, header := path }, rest)
  | rest => refuse .openSeriesHeader rest

/-- Reads one statement; a comment alone is an empty one. -/
def Draft.statement (d : Draft) (s : Text) : Except Refusal (Draft × Text) :=
  match s with
  | '[' :: '[' :: r => d.seriesHeader r
  | '[' :: r => d.tableHeader r
  | '#' :: r => .ok (d, '#' :: r)
  | s => if (s.take 1).any isKeyStart then d.keyLine s else refuse .badStatement s

/-- Reads at most `fuel` lines. -/
def Draft.readLines : (fuel : Nat) → Draft → Text → Except Refusal Draft
  | 0, d, _ => .ok d
  | fuel + 1, d, s =>
    match s.dropWhile Text.isBlank with
    | [] => .ok d
    | '\n' :: r => readLines fuel d r
    | s => do
      let (d, rest) ← d.statement s
      match ← skipComment (rest.dropWhile Text.isBlank) with
      | [] => .ok d
      | '\n' :: r => readLines fuel d r
      | rest => refuse .trailingText rest

/-- The named values of a document. -/
def read (document : Text) : Except Refusal Options :=
  (Draft.readLines (document.length + 1) ⟨[], [], []⟩ document).map fun d =>
    Node.options d.entries

end CaplLayout.Toml
