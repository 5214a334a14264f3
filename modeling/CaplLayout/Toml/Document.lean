import CaplLayout.Toml.Fault

/-!
# Configuration documents under construction

A document is a tree of tables. A table may be declared by a header of its own, once; a
series of tables grows by one with each header that names it, and what follows belongs to its
last table; an array or a table that is written out as a value is sealed, so nothing can be
added to it. `standing` says what a path leads to, and decides which additions are refused.
-/

set_option autoImplicit false

namespace CaplLayout.Toml

/-- What stands behind a name in a document. -/
inductive Node
  | value (v : Value)
  /-- A table, which is declared or has only been mentioned on the way to something else. -/
  | table (declared : Bool) (entries : List (String × Node))
  /-- A series of tables: the earlier ones, and the one that can still be added to. -/
  | series (earlier : List (List (String × Node))) (entries : List (String × Node))

/-- The entries of a table. -/
abbrev Entries := List (String × Node)

/-! ## Values of documents -/

mutual

/-- The value that a node stands for. -/
def Node.toValue : Node → Value
  | .value v => v
  | .table _ entries => .table (Node.options entries)
  | .series earlier entries =>
    .array (Node.tables earlier ++ [.table (Node.options entries)])

/-- The values of entries. -/
def Node.options : List (String × Node) → Options
  | [] => []
  | (k, n) :: r => (k, n.toValue) :: Node.options r

/-- The values of tables. -/
def Node.tables : List (List (String × Node)) → List Value
  | [] => []
  | t :: r => .table (Node.options t) :: Node.tables r

end

/-! ## What a path leads to -/

/-- What a path leads to. -/
inductive Standing
  | absent
  /-- A value without parts, or something below one. -/
  | scalar
  /-- An array or table written out as a value, or something below one. -/
  | sealedValue
  | table (declared : Bool)
  | series
deriving DecidableEq, Repr

/-- Whether a value has parts. -/
def hasParts : Value → Bool
  | .array _ => true
  | .table _ => true
  | _ => false

/-- What a path leads to from the entries of a table on. -/
def standing : Entries → KeyPath → Standing
  | _, [] => .table false
  | entries, k :: r =>
    match entries.lookup k with
    | none => .absent
    | some (.value v) => if hasParts v then .sealedValue else .scalar
    | some (.table declared inner) => if r = [] then .table declared else standing inner r
    | some (.series _ inner) => if r = [] then .series else standing inner r

/-- Whether a header or a series has claimed a path. -/
def Standing.isDeclared : Standing → Bool
  | .table declared => declared
  | .series => true
  | _ => false

/-- The entries with the node at a path replaced by `f` of what is there. Tables that are
missing on the way are made. -/
def adjust (f : Option Node → Node) : Entries → KeyPath → Entries
  | entries, [] => entries
  | entries, [k] => Keyed.put entries k (f (entries.lookup k))
  | entries, k :: r =>
    Keyed.put entries k <|
      match entries.lookup k with
      | some (.table declared inner) => .table declared (adjust f inner r)
      | some (.series earlier inner) => .series earlier (adjust f inner r)
      | some (.value v) => .value v
      | none => .table false (adjust f [] r)

/-! ## Additions -/

/-- A node as a declared table. -/
def markDeclared : Option Node → Node
  | some (.table _ entries) => .table true entries
  | some n => n
  | none => .table true []

/-- Declares the table at a path. -/
def declare (entries : Entries) (path : KeyPath) : Except Reason Entries :=
  match standing entries path with
  | .sealedValue | .table true | .series => .error (.declaredTwice path)
  | .scalar => .error .overwrites
  | .absent | .table false => .ok (adjust markDeclared entries path)

/-- A series with one table more. -/
def extendSeries : Option Node → Node
  | some (.series earlier entries) => .series (earlier ++ [entries]) []
  | _ => .series [] []

/-- Adds a table to the series at a path. -/
def extend (entries : Entries) (path : KeyPath) : Except Reason Entries :=
  match standing entries path with
  | .sealedValue => .error (.sealedPath path)
  | .scalar | .table _ => .error .overwrites
  | .absent | .series => .ok (adjust extendSeries entries path)

/-- The paths that begin with `front` and go on with some, but not all, of `key`. -/
def wayTo (front key : KeyPath) : List KeyPath :=
  (List.range (key.length - 1)).map fun i => front ++ key.take (i + 1)

/-- Adds a value under a key below a header. -/
def assign (entries : Entries) (header key : KeyPath) (v : Value) : Except Reason Entries :=
  match (wayTo header key).find? fun path => (standing entries path).isDeclared with
  | some path => .error (.redefines path)
  | none =>
    let parent := header ++ key.dropLast
    match standing entries parent with
    | .sealedValue => .error (.sealedPath parent)
    | .scalar => .error .overwrites
    | _ =>
      if standing entries (header ++ key) = .absent then
        .ok (adjust (fun _ => .value v) entries (header ++ key))
      else .error .overwrites

/-- Adds a value under a key of a table that is written out as a value. -/
def assignInline (entries : Entries) (key : KeyPath) (v : Value) : Except Reason Entries :=
  match standing entries key, standing entries key.dropLast with
  | .sealedValue, _ => .error (.sealedPath key)
  | _, .scalar => .error .overwrites
  | .absent, _ => .ok (adjust (fun _ => .value v) entries key)
  | _, _ => .error (.repeatedKey (key.getLast?.getD ""))

end CaplLayout.Toml
