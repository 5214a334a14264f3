import CaplLayout.Text.Basic

/-!
# Paths as texts

A path is a root, empty for a relative path, and the names below it. Reading a path drops
empty names and the name `.`; two slashes at the front, but not three, are a root of their
own. Nothing here looks at a file system.
-/

set_option autoImplicit false

namespace CaplLayout

/-- A path: its root and the names below it. -/
structure Path where
  root : Text
  names : List Text
deriving DecidableEq, Repr, Inhabited

namespace Path

/-- The pieces between slashes. -/
def pieces : Text → List Text
  | [] => [[]]
  | c :: r => if c = '/' then [] :: pieces r else Text.consLine c (pieces r)

/-- The root of a path's text: no slash, one, or exactly two. -/
def rootOf (s : Text) : Text :=
  match s.takeWhile (· == '/') with
  | [] => []
  | ['/', '/'] => ['/', '/']
  | _ => ['/']

/-- Whether a piece names nothing: it is empty or the present directory. -/
def isVoid (piece : Text) : Bool := piece == [] || piece == ['.']

/-- Reads a path. -/
def ofText (s : Text) : Path := ⟨rootOf s, (pieces s).filter fun p => !isVoid p⟩

/-- Reads a path. -/
def ofString (s : String) : Path := ofText s.toList

/-- Names with slashes between them. -/
def joinNames : List Text → Text
  | [] => []
  | [n] => n
  | n :: m :: r => n ++ '/' :: joinNames (m :: r)

/-- The text of a path; a path without root and names is the present directory. -/
def text (p : Path) : Text :=
  if p.root = [] ∧ p.names = [] then ['.'] else p.root ++ joinNames p.names

/-- The root, if there is one, and the names. -/
def parts (p : Path) : List Text := if p.root = [] then p.names else p.root :: p.names

/-- The last name, empty if there is none. -/
def lastName (p : Path) : Text := p.names.getLast?.getD []

/-- The last point of a name and what follows it, unless it stands first or last. -/
def extension (p : Path) : Text :=
  let name := p.lastName
  let tail := (name.reverse.takeWhile (· != '.')).reverse
  if tail.length < name.length - 1 ∧ tail ≠ [] then '.' :: tail else []

/-! ## Absolute paths -/

/-- Takes the name `..` together with the name before it. At a root it is dropped; without
one it stays. -/
def climb (rooted : Bool) (above : List Text) : List Text → List Text
  | [] => above.reverse
  | n :: r =>
    if n = ['.', '.'] then
      match above with
      | [] => if rooted then climb rooted [] r else climb rooted [n] r
      | a :: up => if a = ['.', '.'] then climb rooted (n :: above) r else climb rooted up r
    else climb rooted (n :: above) r

/-- The path without names that lead up and down again, by its text alone. -/
def normal (p : Path) : Path := ⟨p.root, climb (p.root ≠ []) [] p.names⟩

/-- The path seen from the directory `base`. -/
def inside (base p : Path) : Path :=
  if p.root = [] then ⟨base.root, base.names ++ p.names⟩ else p

end Path

end CaplLayout
