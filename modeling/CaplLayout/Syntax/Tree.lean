import CaplLayout.Failure
import CaplLayout.Text.Quoted
import CaplLayout.Text.Utf8

/-!
# Syntax trees

A node has a type, a place in the source, the bytes that it covers and its children. An error
node stands for input that fits nowhere, a missing node for a token that is not there.

* `Tree.dump` writes a tree without comments and without places, so that two sources which
  differ in layout only have the same dump.
* `Tree.firstError` searches the tree for its first error, entering only nodes that are
  marked as holding one; `Tree.check` reports what it finds.
-/

set_option autoImplicit false

namespace CaplLayout

/-- What a node tells about itself. -/
structure NodeInfo where
  type : String
  /-- Whether the grammar names the node; a token like a bracket is not named. -/
  named : Bool := true
  /-- Whether the node stands for a token that is not there. -/
  missing : Bool := false
  /-- Whether the node or one below it is an error. -/
  hasError : Bool := false
  /-- The line of its first byte, from zero. -/
  row : Int := 0
  /-- The number of bytes before it on that line. -/
  column : Int := 0
  /-- The bytes that it covers. -/
  bytes : List UInt8 := []
deriving DecidableEq, Repr, Inhabited

/-- A syntax tree. -/
inductive Tree
  | node (info : NodeInfo) (children : List Tree)
deriving Repr

instance : Inhabited Tree := ⟨.node default []⟩

namespace Tree

/-- What the root tells about itself. -/
def info : Tree → NodeInfo
  | .node i _ => i

/-! ## Dumps -/

/-- The types of nodes that are comments. -/
def commentTypes : List String := ["comment", "line_comment", "block_comment"]

/-- Whether a node is a comment. -/
def isComment (i : NodeInfo) : Bool := commentTypes.contains i.type

/-- Two spaces for each level. -/
def margin (depth : Nat) : Text := List.replicate (2 * depth) ' '

/-- The line of a node without children: its quoted text, behind its type if it is named. -/
def leafLine (depth : Nat) (i : NodeInfo) : Text :=
  let quoted := Quoted.encode (Utf8.decodeLenient i.bytes)
  if i.named then margin depth ++ i.type.toList ++ ' ' :: quoted else margin depth ++ quoted

mutual

/-- The lines of a tree at a depth. -/
def dumpLines (depth : Nat) : Tree → List Text
  | .node i cs =>
    if isComment i then []
    else
      match cs with
      | [] => [leafLine depth i]
      | c :: r =>
        (margin depth ++ i.type.toList) :: (dumpLines (depth + 1) c ++ dumpAll (depth + 1) r)

/-- The lines of several trees at a depth. -/
def dumpAll (depth : Nat) : List Tree → List Text
  | [] => []
  | t :: r => dumpLines depth t ++ dumpAll depth r

end

/-- A tree as text, a line a node. -/
def dump (t : Tree) : Text := Text.unlines (dumpLines 0 t) ++ ['\n']

/-! ## Errors -/

/-- The type of nodes for input that fits nowhere. -/
def errorType : String := "ERROR"

/-- Whether a node itself is an error. -/
def isError (i : NodeInfo) : Bool := i.type == errorType || i.missing

mutual

/-- The first error, searching a child only if it is marked as holding one or is one. -/
def firstError : Tree → Option NodeInfo
  | .node i cs => if isError i then some i else firstErrorAmong cs

/-- The first error of several trees. -/
def firstErrorAmong : List Tree → Option NodeInfo
  | [] => none
  | t :: r =>
    if t.info.hasError || isError t.info then
      match firstError t with
      | some e => some e
      | none => firstErrorAmong r
    else firstErrorAmong r

end

/-- The error that the node of an error stands for. -/
def errorAt (i : NodeInfo) : SyntaxError :=
  ⟨if i.missing then "Missing " ++ i.type else "Unexpected token", i.row + 1, i.column + 1⟩

/-- The error of a tree: that of its first error node, or of the root if the search finds
none although the root is marked. -/
def syntaxError? (t : Tree) : Option SyntaxError :=
  if t.info.hasError then some (errorAt (t.firstError.getD t.info)) else none

/-- An error as the lenient parser lists it. -/
def listing (e : SyntaxError) : String :=
  toString e.line ++ ":" ++ toString e.column ++ ": " ++ e.message

/-- Accepts a tree and lists its error; a strict check accepts no tree with an error. -/
def check (strict : Bool) (t : Tree) : Except SyntaxError (List String) :=
  match t.syntaxError? with
  | none => .ok []
  | some e => if strict then .error e else .ok [listing e]

end Tree

/-- A parser: it finds a tree for every source. -/
abbrev Grammar := Text → Tree

end CaplLayout
