import CaplLayout.Files.Basic

/-!
# Patterns of file names

A pattern is a path whose names may hold wildcards: `*` for any characters, `?` for one, and
a set of characters between brackets. The name `**` stands for any number of directories.

A pattern is cut into the directory in front of its first wildcard and the names from there
on (`Glob.Search`). The search goes through these names one by one and finds, for each path
found so far, what the name matches below it. A path that is found in several ways, as with
`**` twice, is listed as often.
-/

set_option autoImplicit false

namespace CaplLayout.Glob

/-! ## Wildcards in one name -/

/-- What a part of a pattern matches. -/
inductive Wildcard
  /-- Any characters. -/
  | star
  /-- Any one character. -/
  | any
  /-- The character itself. -/
  | char (c : Char)
  /-- A character in one of the ranges, or in none of them. -/
  | oneOf (negated : Bool) (ranges : List (Char × Char))
deriving DecidableEq, Repr

/-- Whether a wildcard other than `star` matches a character. -/
def Wildcard.accepts : Wildcard → Char → Bool
  | .star, _ => true
  | .any, _ => true
  | .char d, c => c == d
  | .oneOf negated ranges, c => (ranges.any fun r => r.1 ≤ c && c ≤ r.2) != negated

/-- Whether wildcards match a whole name. -/
def fits : List Wildcard → Text → Bool
  | [], s => s.isEmpty
  | .star :: ws, [] => fits ws []
  | .star :: ws, c :: r => fits ws (c :: r) || fits (.star :: ws) r
  | _ :: _, [] => false
  | w :: ws, c :: r => w.accepts c && fits ws r
termination_by ws s => (s.length, ws.length)

/-! ## Sets of characters -/

/-- Splits a set off behind its opening bracket: the text up to the closing bracket, which
may stand first as an ordinary character, and the rest. -/
def splitSet (s : Text) : Option (Text × Text) :=
  let bang := if s.head? = some '!' then 1 else 0
  let first := if (s.drop bang).head? = some ']' then bang + 1 else bang
  let n := ((s.drop first).takeWhile (· != ']')).length + first
  match s.drop n with
  | [] => none
  | _ :: rest => some (s.take n, rest)

/-- Cuts a set at the hyphens that form ranges: the first one with at least `least`
characters before it, and then each with at least two characters since the last. -/
def cutRanges (least : Nat) (s : Text) : List Text :=
  let n := ((s.drop least).takeWhile (· != '-')).length + least
  if h : n < s.length then s.take n :: cutRanges 2 (s.drop (n + 1)) else [s]
termination_by s.length
decreasing_by simp only [List.length_drop]; omega

/-- A hyphen with nothing behind it forms no range: it belongs to the part before it. -/
def mendLast : List Text → List Text
  | [] => []
  | [p, []] => [p ++ ['-']]
  | p :: r => p :: mendLast r

/-- Drops ranges whose ends are in the wrong order. -/
def dropEmpty : List Text → List Text
  | [] => []
  | p :: r =>
    match dropEmpty r with
    | [] => [p]
    | q :: ps =>
      match p.getLast?, q.head? with
      | some a, some b => if b < a then (p.dropLast ++ q.drop 1) :: ps else p :: q :: ps
      | _, _ => p :: q :: ps

/-- Single characters as ranges. -/
def singles (s : Text) : List (Char × Char) := s.map fun c => (c, c)

/-- The ranges that the parts of a set stand for. -/
def rangesOf : List Text → List (Char × Char)
  | [] => []
  | [p] => singles p
  | p :: q :: r =>
    match p.getLast?, q with
    | some a, b :: q' => singles p.dropLast ++ (a, b) :: rangesOf (q' :: r)
    | _, _ => singles p ++ ('-', '-') :: rangesOf (q :: r)
termination_by ps => ps.length

/-- The parts of a set without ranges in the wrong order. -/
def setParts (s : Text) : List Text :=
  if s.contains '-' then
    dropEmpty (mendLast (cutRanges (if s.head? = some '!' then 2 else 1) s))
  else [s]

/-- What a set matches. An exclamation mark in front negates it; a set without characters
matches none, and its negation any. -/
def readSet (s : Text) : Wildcard :=
  match setParts s with
  | ('!' :: p) :: r => .oneOf true (rangesOf (p :: r))
  | ps => .oneOf false (rangesOf ps)

/-! ## Patterns of one name -/

/-- Reads a pattern of one name. A bracket that nothing closes stands for itself. -/
def readName (s : Text) : List Wildcard :=
  match s with
  | [] => []
  | '*' :: r => .star :: readName r
  | '?' :: r => .any :: readName r
  | '[' :: r =>
    match _h : splitSet r with
    | some (set, rest) => readSet set :: readName rest
    | none => .char '[' :: readName r
  | c :: r => .char c :: readName r
termination_by s.length
decreasing_by
  all_goals simp_wf
  all_goals
    try
      rename _ = some _ => h
      unfold splitSet at h
      dsimp only at h
      split at h
      · simp at h
      · next heq =>
          have := congrArg List.length heq
          simp only [Option.some.injEq, Prod.mk.injEq] at h
          obtain ⟨_, rfl⟩ := h
          simp only [List.length_drop, List.length_cons] at this
          omega

/-- Whether a text holds a wildcard. -/
def hasMagic (s : Text) : Bool := s.any fun c => c == '*' || c == '?' || c == '['

/-- The name that stands for any number of directories. -/
def anyDepth : Text := ['*', '*']

/-! ## Searches -/

/-- A search: the directory in which it starts, and the names from there on. -/
structure Search where
  base : Text
  names : List Text
deriving DecidableEq, Repr

/-- A path with a name below it. A slash at the end of the path serves as it is. -/
def join (path name : Text) : Text :=
  if path = [] ∨ path.getLast? = some '/' then path ++ name else path ++ '/' :: name

/-- A text without the slashes at its end, unless it has nothing else. -/
def dropSlashes (s : Text) : Text :=
  match Text.trimEnd (· == '/') s with
  | [] => s
  | t => t

/-- The names of a search: empty ones count at the end only. -/
def keepNames : List Text → List Text
  | [] => []
  | [n] => [n]
  | n :: r => if n = [] then keepNames r else n :: keepNames r

/-- The search of a pattern. -/
def Search.ofPattern (pattern : Text) : Search :=
  let pieces := Path.pieces pattern
  let before := pieces.takeWhile fun p => !hasMagic p
  let rest := pieces.dropWhile fun p => !hasMagic p
  let base := before.flatMap fun p => p ++ ['/']
  ⟨dropSlashes base, keepNames rest⟩

mutual

/-- The paths of everything below a directory, of directories only if these are asked for. -/
def below (directoriesOnly : Bool) : List (Text × Entry) → List Text
  | [] => []
  | (name, e) :: r =>
    (if directoriesOnly && !e.isDirectory then []
      else name :: (belowEntry directoriesOnly e).map fun p => join name p)
      ++ below directoriesOnly r

/-- The paths of everything below an entry. -/
def belowEntry (directoriesOnly : Bool) : Entry → List Text
  | .file _ => []
  | .directory entries => below directoriesOnly entries

end

/-- The names below the path `path` that the name `name` of a pattern finds. -/
def findBelow (fs : FileSystem) (directoriesOnly : Bool) (path name : Text) : List Text :=
  if name = anyDepth then [] :: below directoriesOnly (fs.entriesAt path)
  else if hasMagic name then
    let entries := (fs.entriesAt path).filter fun e => !directoriesOnly || e.2.isDirectory
    (entries.map Prod.fst).filter (fits (readName name))
  else if name = [] then if fs.isDirectory path then [[]] else []
  else if fs.hasEntry (join path name) then [name] else []

/-- The paths that names find below the paths found so far. -/
def follow (fs : FileSystem) : List Text → List Text → List Text
  | [], found => found
  | n :: r, found =>
    follow fs r
      (found.flatMap fun path => (findBelow fs (!r.isEmpty) path n).map (join path))

/-- The paths that a pattern finds, in no particular order. -/
def search (fs : FileSystem) (pattern : Text) : Except AccessError (List Text) :=
  if fs.hidden.contains pattern then .error (.system .denied pattern)
  else
    let s := Search.ofPattern pattern
    if s.base.contains FileSystem.null then .error .nullCharacter
    else .ok (follow fs s.names [s.base])

end CaplLayout.Glob
