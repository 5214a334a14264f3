import CaplLayout.Files.Glob
import CaplLayout.Proofs.Places

/-!
# Going down a tree

A path is cut at its slashes into pieces, and a file system follows them one by one. If a path leads
to a file, so does each front part of it to a directory, and what is listed there goes on along the
rest of the path (`leads_of_isFile`).

This needs a tree whose directories are told apart by the names in them (`Entry.WellNamed`): a name
that stands twice, holds a slash or is one of `.` and `..` could be listed but not followed.
-/

set_option autoImplicit false

namespace CaplLayout

/-! ## Pieces of paths -/

namespace Path

theorem pieces_ne_nil (s : Text) : pieces s ≠ [] := by
  cases s with
  | nil => simp [pieces]
  | cons c r =>
      rw [pieces]
      split
      · simp
      · exact Text.consLine_ne_nil c _

/-- The pieces of two texts with a slash between them. -/
theorem pieces_append_slash (a b : Text) : pieces (a ++ '/' :: b) = pieces a ++ pieces b := by
  induction a with
  | nil => simp [pieces]
  | cons c r ih =>
      rw [List.cons_append, pieces, pieces, ih]
      split
      · rfl
      · cases h : pieces r with
        | nil => exact absurd h (pieces_ne_nil r)
        | cons p ps => rfl

theorem pieces_of_not_mem {s : Text} (h : '/' ∉ s) : pieces s = [s] := by
  induction s with
  | nil => rfl
  | cons c r ih =>
      rw [List.mem_cons, not_or] at h
      rw [pieces, if_neg (Ne.symm h.1), ih h.2]
      rfl

theorem slash_not_mem_piece {s p : Text} (hp : p ∈ pieces s) : '/' ∉ p := by
  induction s generalizing p with
  | nil =>
      rw [pieces, List.mem_singleton] at hp
      simp [hp]
  | cons c r ih =>
      rw [pieces] at hp
      split at hp
      · rcases List.mem_cons.mp hp with rfl | hp
        · simp
        · exact ih hp
      · next hc =>
          cases h : pieces r with
          | nil => exact absurd h (pieces_ne_nil r)
          | cons q qs =>
              rw [h] at hp ih
              rcases List.mem_cons.mp hp with rfl | hp
              · have hq : '/' ∉ q := ih List.mem_cons_self
                simp [Ne.symm hc, hq]
              · exact ih (List.mem_cons_of_mem q hp)

theorem joinNames_consLine {c : Char} {ps : List Text} (h : ps ≠ []) :
    joinNames (Text.consLine c ps) = c :: joinNames ps := by
  cases ps with
  | nil => exact absurd rfl h
  | cons p ps => cases ps <;> simp [Text.consLine, joinNames]

/-- Cutting a path into pieces loses nothing. -/
theorem joinNames_pieces (s : Text) : joinNames (pieces s) = s := by
  induction s with
  | nil => rfl
  | cons c r ih =>
      rw [pieces]
      split
      · next h =>
          subst h
          cases hr : pieces r with
          | nil => exact absurd hr (pieces_ne_nil r)
          | cons p ps => rw [joinNames, ← hr, ih, List.nil_append]
      · rw [joinNames_consLine (pieces_ne_nil r), ih]

theorem pieces_inj {s t : Text} (h : pieces s = pieces t) : s = t := by
  rw [← joinNames_pieces s, h, joinNames_pieces]

theorem joinNames_append {a b : List Text} (ha : a ≠ []) (hb : b ≠ []) :
    joinNames (a ++ b) = joinNames a ++ '/' :: joinNames b := by
  induction a with
  | nil => exact absurd rfl ha
  | cons p ps ih =>
      cases ps with
      | nil =>
          cases b with
          | nil => exact absurd rfl hb
          | cons q qs => rfl
      | cons q qs =>
          have hrest := ih (by simp)
          rw [List.cons_append] at hrest
          rw [List.cons_append, List.cons_append, joinNames, hrest, joinNames]
          simp

end Path

/-! ## Well-named trees -/

/-- Whether a text can be the name of an entry. -/
def isName (s : Text) : Bool := !Path.isVoid s && s != ['.', '.'] && !s.contains '/'

theorem isName_iff {s : Text} :
    isName s = true ↔ s ≠ [] ∧ s ≠ ['.'] ∧ s ≠ ['.', '.'] ∧ '/' ∉ s := by
  unfold isName Path.isVoid
  simp [and_assoc]

namespace Entry

/-- The entries of each directory have names, each of them its own. -/
inductive WellNamed : Entry → Prop
  | file (bytes : List UInt8) : WellNamed (.file bytes)
  | directory {entries : List (Text × Entry)} : (entries.map Prod.fst).Nodup →
      (∀ p ∈ entries, isName p.1 = true) → (∀ p ∈ entries, WellNamed p.2) →
      WellNamed (.directory entries)

namespace WellNamed

variable {entries : List (Text × Entry)} {p : Text × Entry}

theorem nodup (h : (Entry.directory entries).WellNamed) : (entries.map Prod.fst).Nodup := by
  cases h with
  | directory hnodup hname hrest => exact hnodup

theorem isName (h : (Entry.directory entries).WellNamed) (hp : p ∈ entries) :
    CaplLayout.isName p.1 = true := by
  cases h with
  | directory hnodup hname hrest => exact hname p hp

theorem of_mem (h : (Entry.directory entries).WellNamed) (hp : p ∈ entries) : p.2.WellNamed := by
  cases h with
  | directory hnodup hname hrest => exact hrest p hp

end WellNamed

theorem mem_of_lookup {entries : List (Text × Entry)} {n : Text} {e : Entry}
    (h : entries.lookup n = some e) : (n, e) ∈ entries := by
  obtain ⟨front, back, rfl, -⟩ := List.lookup_eq_some_iff.mp h
  simp

theorem WellNamed.find? {e d : Entry} {names : List Text} (h : e.WellNamed)
    (hfind : e.find? names = some d) : d.WellNamed := by
  induction names generalizing e with
  | nil =>
      cases hfind
      exact h
  | cons n r ih =>
      cases h with
      | file bytes => cases hfind
      | directory hnodup hname hrest =>
          obtain ⟨c, hchild, hc⟩ := Option.bind_eq_some_iff.mp hfind
          exact ih (hrest _ (mem_of_lookup hchild)) hc

/-- The entries of a directory go on along names: as long as these are names of entries they are
listed, and those in front of the last one are directories. -/
def Leads : List (Text × Entry) → List Text → Prop
  | _, [] => True
  | entries, s :: ss =>
    isName s = true → ∃ e, entries.lookup s = some e
      ∧ (ss ≠ [] → ∃ inner, e = .directory inner ∧ Leads inner ss)

end Entry

/-! ## Front parts of paths -/

namespace FileSystem

variable {fs : FileSystem} {root : Entry} {p q : Place}

theorem isDirectory_of_step {n : Text} (h : step root p n = .ok q) :
    ∃ entries, p.entry = .directory entries := by
  unfold step at h
  cases hentry : p.entry with
  | file bytes =>
      rw [hentry] at h
      cases h
  | directory entries => exact ⟨entries, rfl⟩

theorem walk_append (root : Entry) (p : Place) (a b : List Text) :
    walk root p (a ++ b) = walk root p a >>= fun q => walk root q b := by
  induction a generalizing p with
  | nil => rfl
  | cons n r ih =>
      rw [List.cons_append, walk, walk]
      cases step root p n with
      | error e => rfl
      | ok q => exact ih q

/-- Whoever goes on from a place goes on from a directory. -/
theorem isDirectory_of_walk {names : List Text} (hnames : names ≠ [])
    (h : walk root p names = .ok q) : ∃ entries, p.entry = .directory entries := by
  cases names with
  | nil => exact absurd rfl hnames
  | cons n r =>
      rw [walk] at h
      cases hstep : step root p n with
      | error e =>
          rw [hstep] at h
          cases h
      | ok next => exact isDirectory_of_step hstep

/-- Following the name of an entry leads to that entry. -/
theorem lookup_of_step {s : Text} {entries : List (Text × Entry)} {above : List Text}
    (hname : isName s = true) (h : step root ⟨above, .directory entries⟩ s = .ok q) :
    entries.lookup s = some q.entry := by
  obtain ⟨hne, hhere, hup, -⟩ := isName_iff.mp hname
  unfold step at h
  rw [if_neg (by simp [Entry.isDirectory]), if_neg (by simp [Path.isVoid, hne, hhere]),
    if_neg hup] at h
  split at h
  · cases h
  · have hchild : (Entry.directory entries).child? s = entries.lookup s := rfl
    cases hlookup : entries.lookup s with
    | none =>
        simp only [hchild, hlookup] at h
        cases h
    | some e =>
        simp only [hchild, hlookup] at h
        cases h
        rfl

theorem leads_of_walk {entries : List (Text × Entry)} {above names : List Text}
    (h : walk root ⟨above, .directory entries⟩ names = .ok q) : Entry.Leads entries names := by
  induction names generalizing above entries with
  | nil => trivial
  | cons s ss ih =>
      intro hname
      rw [walk] at h
      cases hstep : step root ⟨above, .directory entries⟩ s with
      | error e =>
          rw [hstep] at h
          cases h
      | ok next =>
          rw [hstep] at h
          refine ⟨next.entry, lookup_of_step hname hstep, fun hss => ?_⟩
          obtain ⟨inner, hinner⟩ := isDirectory_of_walk hss h
          obtain ⟨above', entry⟩ := next
          obtain rfl : entry = .directory inner := hinner
          exact ⟨inner, rfl, ih h⟩

end FileSystem

namespace Glob

/-- What stands in front of the names below a path: the path with a slash at its end, or nothing for
the empty path. -/
def front (path : Text) : Text := join path []

theorem join_eq (path name : Text) : join path name = front path ++ name := by
  unfold front join
  split <;> simp

theorem front_nil : front [] = [] := rfl

theorem front_append_slash (a : Text) : front (a ++ ['/']) = a ++ ['/'] := by
  rw [front, join, if_pos (Or.inr (by simp)), List.append_nil]

theorem front_of_getLast? {path : Text} (hne : path ≠ []) (hlast : path.getLast? ≠ some '/') :
    front path = path ++ ['/'] := by
  rw [front, join, if_neg (by simp [hne, hlast])]

/-- A path that is not empty ends in a slash, which is kept, or gets one. -/
theorem front_cases {path : Text} (hne : path ≠ []) :
    (∃ a, path = a ++ ['/'] ∧ front path = a ++ ['/']) ∨ front path = path ++ ['/'] := by
  by_cases hlast : path.getLast? = some '/'
  · obtain ⟨a, rfl⟩ := List.getLast?_eq_some_iff.mp hlast
    exact Or.inl ⟨a, rfl, front_append_slash a⟩
  · exact Or.inr (front_of_getLast? hne hlast)

theorem front_front (path : Text) : front (front path) = front path := by
  by_cases hne : path = []
  · rw [hne, front_nil, front_nil]
  · rcases front_cases hne with ⟨a, -, h⟩ | h
    · rw [h, front_append_slash]
    · rw [h, front_append_slash]

theorem prefix_front (path : Text) : path <+: front path := by
  unfold front join
  split <;> simp

end Glob

namespace FileSystem

variable {fs : FileSystem} {path t : Text} {final : Place}

theorem resolve_eq_ok_iff {q : Place} :
    fs.resolve path = .ok q ↔ path ≠ [] ∧ (Utf8.encode path).length < maxPath
      ∧ ∃ e, fs.root.find? (if path.head? = some '/' then [] else fs.cwd.reverse).reverse = some e
        ∧ walk fs.root ⟨if path.head? = some '/' then [] else fs.cwd.reverse, e⟩
            (Path.pieces path) = .ok q := by
  unfold resolve
  dsimp only
  by_cases hnil : path = []
  · simp [hnil]
  · by_cases hlong : maxPath ≤ (Utf8.encode path).length
    · rw [if_neg hnil, if_pos hlong]
      refine iff_of_false (fun h => nomatch h) fun h => ?_
      exact absurd h.2.1 (Nat.not_lt_of_le hlong)
    · rw [if_neg hnil, if_neg hlong]
      cases fs.root.find? (if path.head? = some '/' then [] else fs.cwd.reverse).reverse with
      | none => simp
      | some e => simp [hnil, Nat.lt_of_not_le hlong]

/-- The pieces of a path, and those of what goes on below it. -/
theorem walk_front {p : Place} (hne : path ≠ [])
    (h : walk fs.root p (Path.pieces (Glob.front path ++ t)) = .ok final) :
    ∃ mid, walk fs.root p (Path.pieces path) = .ok mid
      ∧ walk fs.root mid (Path.pieces t) = .ok final := by
  rcases Glob.front_cases hne with ⟨a, rfl, hfront⟩ | hfront
  · -- the last piece of the path is empty, and asks for a directory without leaving it
    rw [hfront, List.append_assoc, List.singleton_append, Path.pieces_append_slash,
      walk_append] at h
    cases hmid : walk fs.root p (Path.pieces a) with
    | error e =>
        rw [hmid] at h
        cases h
    | ok mid =>
        rw [hmid] at h
        obtain ⟨entries, hentries⟩ := isDirectory_of_walk (Path.pieces_ne_nil t) h
        refine ⟨mid, ?_, h⟩
        have hstep : step fs.root mid [] = .ok mid := by
          unfold step
          rw [hentries]
          rfl
        rw [Path.pieces_append_slash, walk_append, hmid]
        show walk fs.root mid [[]] = .ok mid
        rw [walk, hstep]
        rfl
  · rw [hfront, List.append_assoc, List.singleton_append, Path.pieces_append_slash,
      walk_append] at h
    cases hmid : walk fs.root p (Path.pieces path) with
    | error e =>
        rw [hmid] at h
        cases h
    | ok mid =>
        rw [hmid] at h
        exact ⟨mid, rfl, h⟩

/-- **A path that leads somewhere** leads there through each of its front parts. -/
theorem resolve_front (hne : path ≠ []) (h : fs.resolve (Glob.front path ++ t) = .ok final) :
    ∃ mid, fs.resolve path = .ok mid ∧ walk fs.root mid (Path.pieces t) = .ok final := by
  obtain ⟨-, hlength, e, hfind, hwalk⟩ := resolve_eq_ok_iff.mp h
  obtain ⟨rest, hrest⟩ := Glob.prefix_front path
  have hhead : (Glob.front path ++ t).head? = path.head? := by
    rw [← hrest, List.append_assoc, List.head?_append_of_ne_nil _ hne]
  rw [hhead] at hfind hwalk
  obtain ⟨mid, hmid, hgoes⟩ := walk_front hne hwalk
  refine ⟨mid, resolve_eq_ok_iff.mpr ⟨hne, ?_, e, hfind, hmid⟩, hgoes⟩
  calc (Utf8.encode path).length
      ≤ (Utf8.encode (Glob.front path ++ t)).length := by
        rw [← hrest, Utf8.encode, Utf8.encode, List.append_assoc, List.flatMap_append,
          List.length_append]
        exact Nat.le_add_right _ _
    _ < maxPath := hlength

theorem resolve_of_entry? {e : Entry} (h : fs.entry? path = some e) :
    ∃ above, fs.resolve path = .ok ⟨above, e⟩ := by
  unfold entry? at h
  split at h
  · cases h
  · cases hplace : fs.resolve path with
    | error error =>
        rw [hplace] at h
        cases h
    | ok place =>
        rw [hplace] at h
        cases h
        exact ⟨place.above, rfl⟩

theorem resolve_of_isFile (h : fs.isFile path = true) :
    null ∉ path ∧ ∃ above bytes, fs.resolve path = .ok ⟨above, .file bytes⟩ := by
  refine ⟨null_not_mem_of_isFile h, ?_⟩
  unfold isFile at h
  split at h
  · next bytes hentry =>
      obtain ⟨above, habove⟩ := resolve_of_entry? hentry
      exact ⟨above, bytes, habove⟩
  · cases h

theorem entry?_of_resolve {place : Place} (hnull : null ∉ path)
    (h : fs.resolve path = .ok place) : fs.entry? path = some place.entry := by
  unfold entry?
  rw [if_neg (by simpa using hnull), h]

theorem null_not_mem_of_front (h : null ∉ Glob.front path ++ t) : null ∉ path := by
  obtain ⟨rest, hrest⟩ := Glob.prefix_front path
  rw [← hrest] at h
  exact fun hmem => h (List.mem_append_left _ (List.mem_append_left _ hmem))

/-- The entries that are listed at a front part of the path of a file go on along the rest of the
path. -/
theorem leads_of_isFile (h : fs.isFile (Glob.front path ++ t) = true) :
    Entry.Leads (fs.entriesAt path) (Path.pieces t) := by
  obtain ⟨hnull, _, _, hfinal⟩ := resolve_of_isFile h
  have hpieces := Path.pieces_ne_nil t
  by_cases hne : path = []
  · -- below the present directory, unless the rest begins at the root
    subst hne
    rw [Glob.front_nil, List.nil_append] at hfinal
    obtain ⟨-, -, e, hfind, hwalk⟩ := resolve_eq_ok_iff.mp hfinal
    by_cases hroot : t.head? = some '/'
    · obtain ⟨r, rfl⟩ : ∃ r, t = '/' :: r := by
        cases t with
        | nil => cases hroot
        | cons c r => exact ⟨r, by rw [Option.some.inj hroot]⟩
      rw [Path.pieces, if_pos rfl]
      intro hname
      cases hname
    · rw [if_neg hroot] at hfind hwalk
      obtain ⟨entries, hentries⟩ := isDirectory_of_walk hpieces hwalk
      obtain rfl : e = .directory entries := hentries
      have hhere : fs.resolve ['.'] = .ok ⟨fs.cwd.reverse, .directory entries⟩ :=
        resolve_eq_ok_iff.mpr ⟨by simp, by decide, _, hfind, rfl⟩
      have hentries : fs.entriesAt [] = entries := by
        rw [entriesAt, if_pos rfl, entry?_of_resolve (by decide) hhere]
      rw [hentries]
      exact leads_of_walk hwalk
  · obtain ⟨⟨above, entry⟩, hmid, hgoes⟩ := resolve_front hne hfinal
    obtain ⟨entries, hentries⟩ := isDirectory_of_walk hpieces hgoes
    obtain rfl : entry = .directory entries := hentries
    have hentries : fs.entriesAt path = entries := by
      rw [entriesAt, if_neg hne, entry?_of_resolve (null_not_mem_of_front hnull) hmid]
    rw [hentries]
    exact leads_of_walk hgoes

/-- There is something at each front part of the path of a file. -/
theorem hasEntry_of_isFile (hne : path ≠ []) (h : fs.isFile (Glob.front path ++ t) = true) :
    fs.hasEntry path = true := by
  obtain ⟨hnull, _, _, hfinal⟩ := resolve_of_isFile h
  obtain ⟨mid, hmid, -⟩ := resolve_front hne hfinal
  rw [hasEntry, entry?_of_resolve (null_not_mem_of_front hnull) hmid]
  rfl

/-- A path that ends in a slash, or is empty, is not that of a file. -/
theorem isFile_front (fs : FileSystem) (path : Text) : fs.isFile (Glob.front path) = false := by
  rw [Bool.eq_false_iff]
  intro h
  obtain ⟨-, above, bytes, hresolve⟩ := resolve_of_isFile h
  obtain ⟨hne, -, e, -, hwalk⟩ := resolve_eq_ok_iff.mp hresolve
  -- behind its last slash the path goes on with an empty piece, from a directory to itself
  obtain ⟨mid, -, hlast⟩ :=
    walk_front (t := []) hne (by rwa [Glob.front_front, List.append_nil])
  rw [Path.pieces, walk] at hlast
  cases hstep : step fs.root mid [] with
  | error error =>
      rw [hstep] at hlast
      cases hlast
  | ok place =>
      rw [hstep] at hlast
      obtain ⟨entries, hentries⟩ := isDirectory_of_step hstep
      cases hlast
      unfold step at hstep
      rw [hentries] at hstep
      cases hstep
      cases hentries

/-- What is listed in a well-named tree is well-named. -/
theorem wellNamed_entriesAt (h : fs.root.WellNamed) (path : Text) :
    (Entry.directory (fs.entriesAt path)).WellNamed := by
  unfold entriesAt
  split
  · next hentry =>
      obtain ⟨above, habove⟩ := resolve_of_entry? hentry
      exact h.find? (inTree_resolve habove)
  · exact .directory List.nodup_nil (by simp) (by simp)

end FileSystem

end CaplLayout
