import CaplLayout.Text.Path
import CaplLayout.Text.Quoted
import CaplLayout.Text.Utf8

/-!
# File systems

A file system is a tree of directories and files below one root, together with the directory
in which names that do not begin with a slash are looked up. `resolve` follows a path name by
name: each name has to be looked up in a directory, `..` leads back up, and an empty name (as
behind a slash at the end) asks for a directory without leaving it.

Some files may be closed for writing, and some patterns may be closed for searching.
-/

set_option autoImplicit false

namespace CaplLayout

/-- A file with its bytes, or a directory with its named entries. -/
inductive Entry
  | file (bytes : List UInt8)
  | directory (entries : List (Text × Entry))
deriving Repr, Inhabited

namespace Entry

/-- The entry of a name in a directory. -/
def child? (e : Entry) (name : Text) : Option Entry :=
  match e with
  | .file _ => none
  | .directory entries => entries.lookup name

/-- Whether an entry is a directory. -/
def isDirectory : Entry → Bool
  | .directory _ => true
  | .file _ => false

/-- The entry that names lead to, one below the other. -/
def find? (e : Entry) : List Text → Option Entry
  | [] => some e
  | n :: r => (e.child? n).bind fun d => d.find? r

/-- The entry with the bytes of the file that names lead to replaced. -/
def replace (bytes : List UInt8) : List Text → Entry → Entry
  | [], .file _ => .file bytes
  | [], .directory entries => .directory entries
  | _ :: _, .file b => .file b
  | n :: r, .directory entries =>
    .directory (entries.map fun p => if p.1 = n then (p.1, replace bytes r p.2) else p)

/-- Whether an entry is a directory that is not empty. -/
def hasEntries : Entry → Bool
  | .directory entries => !entries.isEmpty
  | .file _ => false

/-- Puts an entry where names lead, together with the directories on the way. A directory with
entries is not replaced by another directory. -/
def plant (new : Entry) : List Text → Entry → Entry
  | [], old => if old.hasEntries && new.isDirectory then old else new
  | n :: r, old =>
    let entries :=
      match old with
      | .directory entries => entries
      | .file _ => []
    if (entries.lookup n).isSome then
      .directory (entries.map fun p => if p.1 = n then (p.1, plant new r p.2) else p)
    else .directory (entries ++ [(n, plant new r (.directory []))])

end Entry

/-- Why the operating system refuses. -/
inductive SystemError
  | noEntry
  | denied
  | notDirectory
  | isDirectory
  | nameTooLong
deriving DecidableEq, Repr, Inhabited

namespace SystemError

/-- The number of a refusal. -/
def number : SystemError → Nat
  | .noEntry => 2
  | .denied => 13
  | .notDirectory => 20
  | .isDirectory => 21
  | .nameTooLong => 36

/-- The words for a refusal. -/
def words : SystemError → String
  | .noEntry => "No such file or directory"
  | .denied => "Permission denied"
  | .notDirectory => "Not a directory"
  | .isDirectory => "Is a directory"
  | .nameTooLong => "File name too long"

/-- The text of a refusal that concerns a path. -/
def text (e : SystemError) (path : Text) : String :=
  "[Errno " ++ toString e.number ++ "] " ++ e.words ++ ": "
    ++ String.ofList (Quoted.inspect path)

end SystemError

/-- Why a path cannot be used. -/
inductive AccessError
  /-- The operating system refuses. -/
  | system (e : SystemError) (path : Text)
  /-- The path holds the null character, so the operating system cannot be asked. -/
  | nullCharacter
deriving DecidableEq, Repr, Inhabited

namespace AccessError

/-- The text of an access error. -/
def text : AccessError → String
  | .system e path => e.text path
  | .nullCharacter => "embedded null byte"

end AccessError

/-- A file system, seen from one of its directories. -/
structure FileSystem where
  /-- The directory at the root. -/
  root : Entry
  /-- The names that lead from the root to the present directory. -/
  cwd : List Text
  /-- The paths that cannot be opened for writing. -/
  closed : List Text := []
  /-- The patterns that cannot be searched for. -/
  hidden : List Text := []
deriving Repr, Inhabited

namespace FileSystem

/-! ## Looking up paths -/

/-- The null character. -/
def null : Char := Char.ofNat 0

/-- The greatest number of bytes of a name. -/
def maxName : Nat := 255

/-- The number of bytes from which on a path is too long. -/
def maxPath : Nat := 4096

/-- Where a walk through the tree stands: the names from the root, the last one first, and
the entry there. -/
structure Place where
  above : List Text
  entry : Entry
deriving Repr

namespace Place

/-- The names from the root on. -/
def names (p : Place) : List Text := p.above.reverse

end Place

/-- Follows one name. -/
def step (root : Entry) (p : Place) (name : Text) : Except SystemError Place :=
  if !p.entry.isDirectory then .error .notDirectory
  else if Path.isVoid name then .ok p
  else if name = ['.', '.'] then
    let above := p.above.drop 1
    match root.find? above.reverse with
    | some e => .ok ⟨above, e⟩
    | none => .error .noEntry
  else if maxName < (Utf8.encode name).length then .error .nameTooLong
  else
    match p.entry.child? name with
    | some e => .ok ⟨name :: p.above, e⟩
    | none => .error .noEntry

/-- Follows several names. -/
def walk (root : Entry) : Place → List Text → Except SystemError Place
  | p, [] => .ok p
  | p, n :: r => do walk root (← step root p n) r

/-- Follows a path. -/
def resolve (fs : FileSystem) (path : Text) : Except SystemError Place :=
  if path = [] then .error .noEntry
  else if maxPath ≤ (Utf8.encode path).length then .error .nameTooLong
  else
    let rooted := path.head? = some '/'
    let above := if rooted then [] else fs.cwd.reverse
    match fs.root.find? above.reverse with
    | some e => walk fs.root ⟨above, e⟩ (Path.pieces path)
    | none => .error .noEntry

/-- The entry at a path, if there is one. -/
def entry? (fs : FileSystem) (path : Text) : Option Entry :=
  if path.contains null then none
  else
    match fs.resolve path with
    | .ok p => some p.entry
    | .error _ => none

/-- Whether something is at a path. -/
def hasEntry (fs : FileSystem) (path : Text) : Bool := (fs.entry? path).isSome

/-- Whether a file is at a path. -/
def isFile (fs : FileSystem) (path : Text) : Bool :=
  match fs.entry? path with
  | some (.file _) => true
  | _ => false

/-- Whether a directory is at a path. -/
def isDirectory (fs : FileSystem) (path : Text) : Bool :=
  match fs.entry? path with
  | some (.directory _) => true
  | _ => false

/-- The entries of the directory at a path, none if there is no directory. The empty path is
the present directory. -/
def entriesAt (fs : FileSystem) (path : Text) : List (Text × Entry) :=
  match fs.entry? (if path = [] then ['.'] else path) with
  | some (.directory entries) => entries
  | _ => []

/-- The present directory as a path. -/
def here (fs : FileSystem) : Path := ⟨['/'], fs.cwd⟩

/-- A path from the root on, without names that lead up and down again. -/
def absolute (fs : FileSystem) (path : Text) : Path := (fs.here.inside (Path.ofText path)).normal

/-! ## Reading and writing -/

/-- Opens the file at a path: its names from the root and its bytes. -/
def openFile (fs : FileSystem) (path : Text) : Except AccessError (List Text × List UInt8) :=
  if path.contains null then .error .nullCharacter
  else
    match fs.resolve path with
    | .error e => .error (.system e path)
    | .ok p =>
      match p.entry with
      | .file bytes => .ok (p.names, bytes)
      | .directory _ => .error (.system .isDirectory path)

/-- The bytes of the file at a path. -/
def read (fs : FileSystem) (path : Text) : Except AccessError (List UInt8) :=
  (fs.openFile path).map Prod.snd

/-- Replaces the bytes of the file at a path, which has to be there. -/
def write (fs : FileSystem) (path : Text) (bytes : List UInt8) :
    Except AccessError FileSystem :=
  if fs.closed.contains path then .error (.system .denied path)
  else
    match fs.openFile path with
    | .error e => .error e
    | .ok (names, _) => .ok { fs with root := fs.root.replace bytes names }

end FileSystem

end CaplLayout
