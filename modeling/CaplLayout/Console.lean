import CaplLayout.Text.Basic

/-!
# Console output

What a run prints is a list of pieces, each for one of two streams, in the order in which
they are printed. Messages go through `echo`, which removes the sequences that set colours
unless the streams are terminals; log lines, which are printed on request only, do not.
-/

set_option autoImplicit false

namespace CaplLayout

/-- The two streams that a run prints to. -/
inductive Stream
  | out
  | err
deriving DecidableEq, Repr, Inhabited

/-- A piece of output. -/
structure Piece where
  stream : Stream
  text : Text
deriving DecidableEq, Repr, Inhabited

/-- How the streams of a run are to be used. -/
structure Console where
  /-- Whether the streams are terminals. -/
  terminal : Bool := false
  /-- Whether log lines are printed. -/
  verbose : Bool := false
deriving DecidableEq, Repr, Inhabited

namespace Console

/-- Whether a character may stand inside a sequence that sets colours. -/
def isParameter (c : Char) : Bool := c == ';' || c == '?' || ('0' ≤ c && c ≤ '9')

/-- Whether a character ends a sequence that sets colours. -/
def isFinal (c : Char) : Bool := ('a' ≤ c && c ≤ 'z') || ('A' ≤ c && c ≤ 'Z')

/-- The escape character. -/
def escape : Char := Char.ofNat 0x1B

/-- The number of characters of the sequence that sets colours at the start of a text, zero
if there is none: the escape character, an opening bracket, parameters and a letter. -/
def sequenceLength : Text → Nat
  | c :: '[' :: r =>
    if c = escape then
      let n := (r.takeWhile isParameter).length
      match r.drop n with
      | d :: _ => if isFinal d then n + 3 else 0
      | [] => 0
    else 0
  | _ => 0

/-- The text without the sequences that set colours; `skip` characters still belong to the
sequence before. -/
def plainFrom (skip : Nat) : Text → Text
  | [] => []
  | c :: r =>
    if skip ≠ 0 then plainFrom (skip - 1) r
    else
      let n := sequenceLength (c :: r)
      if n = 0 then c :: plainFrom 0 r else plainFrom (n - 1) r

/-- The text without the sequences that set colours. -/
def plain (s : Text) : Text := plainFrom 0 s

/-- The text as it reaches the stream. -/
def shown (c : Console) (s : Text) : Text := if c.terminal then s else plain s

/-- Prints a text as it is. -/
def echo (c : Console) (stream : Stream) (s : Text) : List Piece := [⟨stream, c.shown s⟩]

/-- Prints a line. -/
def echoLine (c : Console) (stream : Stream) (s : String) : List Piece :=
  c.echo stream (s.toList ++ ['\n'])

/-- The text in a dim colour. -/
def dim (s : String) : String :=
  String.ofList (escape :: "[90m".toList ++ s.toList ++ escape :: "[0m".toList)

/-- Prints a log line, if these are asked for. -/
def log (c : Console) (s : String) : List Piece :=
  if c.verbose then [⟨.err, "DEBUG: ".toList ++ s.toList ++ ['\n']⟩] else []

end Console

namespace Piece

/-- What the pieces print to one of the streams. -/
def printed (stream : Stream) (pieces : List Piece) : Text :=
  pieces.flatMap fun p => if p.stream = stream then p.text else []

theorem printed_append (stream : Stream) (a b : List Piece) :
    printed stream (a ++ b) = printed stream a ++ printed stream b := by
  simp [printed]

end Piece

end CaplLayout
