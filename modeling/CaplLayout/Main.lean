import CaplLayout.CommandLine
import CaplLayout.Syntax.C.Grammar

/-!
# The command

The command takes a picture of the files that its arguments can lead to, carries itself out on
the picture, prints, and writes back the files that have changed. What it does is decided by
`CommandLine.run`; here is only what touches the machine.
-/

set_option autoImplicit false

namespace CaplLayout.Command

/-- The depth down to which directories are looked into. -/
def maxDepth : Nat := 64

/-- A picture of a file or directory on the disk; none of what cannot be read. -/
def picture : (depth : Nat) → IO.FS.DirEntry → IO (Option (Text × Entry))
  | 0, _ => return none
  | depth + 1, entry => do
    let name := entry.fileName.toList
    try
      if ← entry.path.isDir then
        let inside ← (← entry.path.readDir).toList.filterMapM (picture depth)
        return some (name, .directory inside)
      else
        return some (name, .file (← IO.FS.readBinFile entry.path).toList)
    catch _ => return none

/-- The place of an entry on the disk, by its names from the root. -/
def placeOf (names : List Text) : IO.FS.DirEntry :=
  match names.getLast? with
  | none => { root := "/", fileName := "." }
  | some last =>
    { root := String.ofList ('/' :: Path.joinNames names.dropLast)
      fileName := String.ofList last }

/-- The part of a path in front of the first name with wildcards. -/
def literalPart (path : Text) : Path :=
  let p := Path.ofText path
  ⟨p.root, p.names.takeWhile fun n => !Glob.hasMagic n⟩

/-- The places that a pattern or path leads to, by their names from the root. -/
def reached (here : FileSystem) (path : String) : List Text :=
  (here.absolute (literalPart path.toList).text).names

/-- The file system as far as the given arguments lead to it. -/
def filesFor (a : CommandLine.Arguments) : IO FileSystem := do
  let cwd := (Path.ofString (← IO.currentDir).toString).names
  let here : FileSystem := { root := .directory [], cwd := cwd }
  let places := ((a.config :: a.patterns).map (reached here)).mergeSort fun p q =>
    decide (p.length ≤ q.length)
  let root ← places.foldlM (fun root names => do
    match ← picture maxDepth (placeOf names) with
    | some (_, entry) => return Entry.plant entry names root
    | none => return root) (Entry.directory [])
  return { here with root := Entry.plant (.directory []) cwd root }

/-- Reads a stream to its end, behind what has been read already. -/
partial def readToEnd (stream : IO.FS.Stream) (front : ByteArray) : IO ByteArray := do
  let next ← stream.read 65536
  if next.isEmpty then return front else readToEnd stream (front ++ next)

/-- Prints pieces of output. -/
def printAll (pieces : List Piece) : IO Unit := do
  let out ← IO.getStdout
  let err ← IO.getStderr
  for p in pieces do
    let stream :=
      match p.stream with
      | .out => out
      | .err => err
    stream.putStr (String.ofList p.text)
    stream.flush

/-- Writes the files back that a session has written. -/
def writeBack (s : Session) : IO Unit := do
  for names in s.written.eraseDups do
    match s.files.root.find? names with
    | some (.file bytes) => IO.FS.writeBinFile (placeOf names).path ⟨bytes.toArray⟩
    | _ => pure ()

/-- What is told about the end of a command without an exit code of its own. -/
def crashText : CommandLine.Crash → String
  | .usage => "Error: the arguments cannot be used"
  | .config e => e.message
  | .stop (.aborted message) => message
  | .stop .nullCharacter => AccessError.nullCharacter.text

/-- The status of a command that ends without an exit code of its own. -/
def crashStatus : CommandLine.Crash → UInt32
  | .usage => 2
  | _ => 1

end CaplLayout.Command

section

open CaplLayout CaplLayout.Command

/-- Runs the command. -/
def main (args : List String) : IO UInt32 := do
  let terminal ← (← IO.getStdout).isTty
  let a := (CommandLine.readAll {} args).getD {}
  let files ← filesFor a
  let stdin ← if a.stdin then readToEnd (← IO.getStdin) .empty else pure .empty
  let (s, result) := CommandLine.run C.grammar terminal { files := files } args stdin.toList
  printAll s.output
  writeBack s
  match result with
  | .ok code => return code.toNat.toUInt32
  | .error e =>
    (← IO.getStderr).putStrLn (crashText e)
    return crashStatus e

end
