import CaplLayout.Proofs.Expansion
import CaplLayout.Proofs.Shapes

/-!
# What patterns have a run do

Seen from the run, a pattern is a list of deeds: log lines, calls for paths, and the report of a
pattern that cannot be searched for (`Deed`). Which deeds these are depends on which paths are those
of files, and on nothing else that a call is likely to change (`Selection.deedsAt_congr`): how often
a pattern finds a file shows in the path of the file alone. As long as no call changes which paths
these are or stops the run, the deeds of several patterns are done one pattern after the other
(`Selection.visitPatterns_eq_deeds`).
-/

set_option autoImplicit false

namespace CaplLayout

/-! ## File systems with the same paths -/

namespace Entry

/-- Whether a tree is well-named shows in its shape. -/
theorem wellNamed_of_shape {e : Entry} (h : e.shape.WellNamed) : e.WellNamed := by
  generalize hshape : e.shape = d at h
  induction h generalizing e with
  | file bytes =>
      cases e with
      | file b => exact .file b
      | directory entries => cases hshape
  | @directory shapes hnodup hname hrest ih =>
      cases e with
      | file b => cases hshape
      | directory entries =>
          rw [shape, shapes_eq_map, directory.injEq] at hshape
          subst hshape
          have hmem : ∀ p ∈ entries, (p.1, p.2.shape) ∈ entries.map fun p => (p.1, p.2.shape) :=
            fun p hp => List.mem_map_of_mem hp
          rw [List.map_map] at hnodup
          exact .directory hnodup (fun p hp => hname (p.1, p.2.shape) (hmem p hp)) fun p hp =>
            ih (p.1, p.2.shape) (hmem p hp) rfl

theorem wellNamed_shape {e : Entry} (h : e.WellNamed) : e.shape.WellNamed := by
  induction h with
  | file bytes => exact .file []
  | @directory entries hnodup hname hrest ih =>
      rw [shape, shapes_eq_map]
      refine .directory ?_ ?_ ?_
      · rw [List.map_map]
        exact hnodup
      · intro q hq
        obtain ⟨p, hp, rfl⟩ := List.mem_map.mp hq
        exact hname p hp
      · intro q hq
        obtain ⟨p, hp, rfl⟩ := List.mem_map.mp hq
        exact ih p hp

end Entry

/-- The file system `b`, well-named as it is, has files at the same paths as `a`, is seen from the
same directory and can be searched for the same patterns. -/
structure FileSystem.SamePaths (a b : FileSystem) : Prop where
  wellNamed : b.root.WellNamed
  cwd_eq : b.cwd = a.cwd
  hidden_eq : b.hidden = a.hidden
  isFile_eq : ∀ path, b.isFile path = a.isFile path

namespace FileSystem

theorem SamePaths.refl {fs : FileSystem} (h : fs.root.WellNamed) : fs.SamePaths fs :=
  ⟨h, rfl, rfl, fun _ => rfl⟩

/-- File systems of one shape have the same paths. -/
theorem samePaths_of_shape_eq {a b : FileSystem} (ha : a.root.WellNamed) (h : b.shape = a.shape) :
    a.SamePaths b := by
  have hroot : b.root.shape = a.root.shape := congrArg FileSystem.root h
  have hcwd : b.shape.cwd = a.shape.cwd := congrArg FileSystem.cwd h
  have hhidden : b.shape.hidden = a.shape.hidden := congrArg FileSystem.hidden h
  refine ⟨Entry.wellNamed_of_shape ?_, hcwd, hhidden, ?_⟩
  · rw [hroot]
    exact Entry.wellNamed_shape ha
  · intro path
    rw [← isFile_shape, h, isFile_shape]

theorem SamePaths.trans {a b c : FileSystem} (h : a.SamePaths b) (h' : b.SamePaths c) :
    a.SamePaths c :=
  ⟨h'.wellNamed, h'.cwd_eq.trans h.cwd_eq, h'.hidden_eq.trans h.hidden_eq,
    fun path => (h'.isFile_eq path).trans (h.isFile_eq path)⟩

end FileSystem

namespace Selection

variable {sel : Selection} {a b : FileSystem}

theorem admits_congr (h : a.SamePaths b) : sel.admits b = sel.admits a := by
  funext path
  rw [admits, admits, h.isFile_eq]

theorem isIgnored_congr (h : a.SamePaths b) (path : String) :
    sel.isIgnored b path = sel.isIgnored a path := by
  unfold isIgnored FileSystem.absolute FileSystem.here
  rw [h.cwd_eq]

/-- Where two file systems have the same paths, a pattern can be searched for in both or in
neither. -/
theorem search_congr (h : a.SamePaths b) (pattern : Text) :
    (∃ e, Glob.search a pattern = .error e ∧ Glob.search b pattern = .error e)
      ∨ ∃ found found', Glob.search a pattern = .ok found ∧ Glob.search b pattern = .ok found' := by
  unfold Glob.search
  rw [h.hidden_eq]
  dsimp only
  split
  · exact Or.inl ⟨_, rfl, rfl⟩
  · split
    · exact Or.inl ⟨_, rfl, rfl⟩
    · exact Or.inr ⟨_, _, rfl, rfl⟩

/-- **A pattern lists the same files** in two file systems with the same paths. -/
theorem expand_congr (ha : a.root.WellNamed) (h : a.SamePaths b) {pattern : String}
    (hmagic : Glob.hasMagic pattern.toList = true) :
    sel.expand b pattern = sel.expand a pattern := by
  rcases search_congr h pattern.toList with ⟨e, hsearch, hsearch'⟩ | ⟨_, _, hsearch, hsearch'⟩
  · rw [expand, expand, hsearch, hsearch']
    rfl
  · obtain ⟨found, hfound⟩ : ∃ found, sel.expand a pattern = .ok found := by
      rw [expand, hsearch]
      exact ⟨_, rfl⟩
    obtain ⟨found', hfound'⟩ : ∃ found, sel.expand b pattern = .ok found := by
      rw [expand, hsearch']
      exact ⟨_, rfl⟩
    have hperm : found'.Perm found := List.perm_iff_count.mpr fun f => by
      rw [count_expand h.wellNamed hmagic hfound', count_expand ha hmagic hfound, admits_congr h]
    have heq : found' = found :=
      hperm.eq_of_pairwise (fun _ _ _ _ => le_antisymm) (pairwise_expand hfound')
        (pairwise_expand hfound)
    rw [hfound, hfound', heq]

end Selection

/-! ## Deeds -/

/-- What a run does at a pattern. -/
inductive Deed
  /-- It prints a log line. -/
  | log (line : String)
  /-- It reports that a pattern cannot be searched for. -/
  | report (pattern : String) (e : AccessError)
  /-- It calls for a path. -/
  | call (path : String)
deriving DecidableEq, Repr

namespace Deed

/-- Does a deed. -/
def perform (console : Console) (visit : Session → String → Session × Option Stop) (s : Session) :
    Deed → Session
  | .log line => s.print (console.log line)
  | .report pattern e =>
    (s.print (console.echoLine .err
      ("Unable to expand glob pattern: " ++ pattern ++ "\n" ++ e.text))).escalate .failure
  | .call path => (visit s path).1

/-- The paths that deeds call for, in order. -/
def calls (deeds : List Deed) : List String :=
  deeds.filterMap fun
    | .call path => some path
    | _ => none

/-- Whether a deed is the report of a pattern. -/
def isReport : Deed → Bool
  | .report _ _ => true
  | _ => false

theorem calls_append (ds es : List Deed) : calls (ds ++ es) = calls ds ++ calls es :=
  List.filterMap_append

theorem calls_map_call (names : List String) : calls (names.map .call) = names := by
  induction names with
  | nil => rfl
  | cons f r ih => exact congrArg (f :: ·) ih

variable {console : Console} {visit : Session → String → Session × Option Stop}

/-- Of all deeds only reports, and whatever is called, touch the exit code. -/
theorem exit_foldl_perform (hvisit : ∀ s f, (visit s f).1.exit = s.exit) (s : Session)
    (deeds : List Deed) :
    (deeds.foldl (perform console visit) s).exit
      = if deeds.any isReport then s.exit.escalate .failure else s.exit := by
  induction deeds generalizing s with
  | nil => rfl
  | cons d deeds ih =>
      rw [List.foldl_cons, ih, List.any_cons]
      cases d with
      | log line => rfl
      | call path =>
          rw [perform, hvisit]
          rfl
      | report pattern e =>
          -- a second failure changes nothing
          have htwice : (s.exit.escalate .failure).escalate .failure = s.exit.escalate .failure :=
            ExitCode.escalate_assoc s.exit .failure .failure
          change (if _ then (s.exit.escalate .failure).escalate .failure
            else s.exit.escalate .failure) = s.exit.escalate .failure
          rw [htwice, ite_self]

end Deed

namespace Selection

variable (sel : Selection) (files : FileSystem)

/-- Whether a path has one of the dependency directories among its components, and such paths are
passed over. -/
def Shuns (p : Path) : Prop :=
  sel.ignore = true ∧ ∃ n ∈ p.parts, String.ofList n ∈ sel.dependencyDirs

theorem passesOver_iff (p : Path) : sel.passesOver p = true ↔ sel.Shuns p := by
  simp [passesOver, Shuns]

/-- The deeds that a pattern may stand for. -/
inductive StandsFor (pattern : String) : List Deed → Prop
  /-- A path without wildcards is passed over if, seen from the root, it has a dependency directory
  among its components. -/
  | passedOver : Glob.hasMagic pattern.toList = false →
      sel.Shuns (files.absolute pattern.toList) → StandsFor pattern [.log ("Ignoring " ++ pattern)]
  /-- Any other path without wildcards is called for, be there a file or not. -/
  | itself : Glob.hasMagic pattern.toList = false →
      ¬ sel.Shuns (files.absolute pattern.toList) → StandsFor pattern [.call pattern]
  /-- A pattern that cannot be searched for is reported. -/
  | unsearchable {e : AccessError} : Glob.hasMagic pattern.toList = true →
      sel.expand files pattern = .error e → StandsFor pattern [.report pattern e]
  /-- The files that the pattern finds are called for in ascending order, all but those whose path,
  as it is found, has a dependency directory among its components. -/
  | listed {found : List String} : Glob.hasMagic pattern.toList = true →
      sel.expand files pattern = .ok found → found.Pairwise (· ≤ ·) →
      (∀ f, f ∈ found ↔ files.isFile f.toList = true ∧ ¬ sel.Shuns (Path.ofString f)
        ∧ 0 < Glob.ways pattern.toList f.toList) →
      StandsFor pattern (.log ("Pattern " ++ pattern ++ " matched " ++ toString found.length
        ++ " file(s)") :: found.map .call)

/-- What a run does at a pattern. -/
def deedsAt (pattern : String) : List Deed :=
  if !Glob.hasMagic pattern.toList then
    if sel.isIgnored files pattern then [.log ("Ignoring " ++ pattern)] else [.call pattern]
  else
    match sel.expand files pattern with
    | .error e => [.report pattern e]
    | .ok found =>
      .log ("Pattern " ++ pattern ++ " matched " ++ toString found.length ++ " file(s)")
        :: found.map .call

/-- What a run does at patterns, one after the other. -/
def deeds (patterns : List String) : List Deed := patterns.flatMap (sel.deedsAt files)

theorem deeds_append (ps qs : List String) :
    sel.deeds files (ps ++ qs) = sel.deeds files ps ++ sel.deeds files qs := List.flatMap_append

variable {sel} {files}

theorem mem_found_iff (hroot : files.root.WellNamed) {pattern : String}
    (hmagic : Glob.hasMagic pattern.toList = true) {found : List String}
    (h : sel.expand files pattern = .ok found) (f : String) :
    f ∈ found ↔ files.isFile f.toList = true ∧ ¬ sel.Shuns (Path.ofString f)
      ∧ 0 < Glob.ways pattern.toList f.toList := by
  rw [← List.count_pos_iff, count_expand hroot hmagic h, ← passesOver_iff, admits, Path.ofString]
  split
  · next hadmits => simp_all
  · next hadmits => simp_all

theorem deedsAt_of_path {pattern : String} (hmagic : Glob.hasMagic pattern.toList = false) :
    sel.deedsAt files pattern
      = if sel.isIgnored files pattern then [.log ("Ignoring " ++ pattern)]
        else [.call pattern] := by
  unfold deedsAt
  rw [hmagic]
  rfl

theorem deedsAt_of_error {pattern : String} (hmagic : Glob.hasMagic pattern.toList = true)
    {e : AccessError} (h : sel.expand files pattern = .error e) :
    sel.deedsAt files pattern = [.report pattern e] := by
  unfold deedsAt
  rw [hmagic, h]
  rfl

theorem deedsAt_of_ok {pattern : String} (hmagic : Glob.hasMagic pattern.toList = true)
    {found : List String} (h : sel.expand files pattern = .ok found) :
    sel.deedsAt files pattern
      = .log ("Pattern " ++ pattern ++ " matched " ++ toString found.length ++ " file(s)")
        :: found.map .call := by
  unfold deedsAt
  rw [hmagic, h]
  rfl

theorem standsFor_deedsAt (hroot : files.root.WellNamed) (pattern : String) :
    sel.StandsFor files pattern (sel.deedsAt files pattern) := by
  cases hmagic : Glob.hasMagic pattern.toList with
  | false =>
      rw [deedsAt_of_path hmagic]
      split
      · next hignored => exact .passedOver hmagic ((passesOver_iff sel _).mp hignored)
      · next hignored =>
          exact .itself hmagic fun hshuns => hignored ((passesOver_iff sel _).mpr hshuns)
  | true =>
      cases hexpand : sel.expand files pattern with
      | error e =>
          rw [deedsAt_of_error hmagic hexpand]
          exact .unsearchable hmagic hexpand
      | ok found =>
          rw [deedsAt_of_ok hmagic hexpand]
          exact .listed hmagic hexpand (pairwise_expand hexpand)
            (mem_found_iff hroot hmagic hexpand)

/-- A pattern is reported exactly if it cannot be searched for. -/
theorem any_isReport_deedsAt (pattern : String) :
    (sel.deedsAt files pattern).any Deed.isReport = true
      ↔ Glob.hasMagic pattern.toList = true ∧ ∃ e, sel.expand files pattern = .error e := by
  cases hmagic : Glob.hasMagic pattern.toList with
  | false =>
      rw [deedsAt_of_path hmagic]
      split <;> simp [Deed.isReport]
  | true =>
      cases hexpand : sel.expand files pattern with
      | error e => simp [deedsAt_of_error hmagic hexpand, Deed.isReport]
      | ok found => simp [deedsAt_of_ok hmagic hexpand, Deed.isReport]

/-- **A pattern has the same done** in two file systems with the same paths. -/
theorem deedsAt_congr (hroot : files.root.WellNamed) {b : FileSystem} (h : files.SamePaths b)
    (pattern : String) : sel.deedsAt b pattern = sel.deedsAt files pattern := by
  unfold deedsAt
  cases hmagic : Glob.hasMagic pattern.toList with
  | false =>
      rw [isIgnored_congr h]
      rfl
  | true =>
      rw [expand_congr hroot h hmagic]
      rfl

/-! ## Doing them -/

variable {console : Console} {visit : Session → String → Session × Option Stop}

/-- Calls that do not stop and keep an invariant are made one after the other. -/
theorem visitAll_eq_foldl {step : Session → String → Session} (P : Session → Prop)
    {names : List String}
    (h : ∀ s, P s → ∀ f ∈ names, visit s f = (step s f, none) ∧ P (step s f)) {s : Session}
    (hs : P s) :
    visitAll visit s names = (names.foldl step s, none) ∧ P (names.foldl step s) := by
  induction names generalizing s with
  | nil => exact ⟨rfl, hs⟩
  | cons f r ih =>
      obtain ⟨hvisit, hkept⟩ := h s hs f List.mem_cons_self
      rw [visitAll, hvisit, List.foldl_cons]
      exact ih (fun t ht g hg => h t ht g (List.mem_cons_of_mem f hg)) hkept

/-- Whatever is called neither stops the run nor changes the paths that there are. -/
def GoesOn (files : FileSystem) (visit : Session → String → Session × Option Stop)
    (names : List String) : Prop :=
  ∀ s, files.SamePaths s.files → ∀ f ∈ names,
    (visit s f).2 = none ∧ files.SamePaths (visit s f).1.files

theorem GoesOn.mono {names more : List String} (h : GoesOn files visit more)
    (hsub : names ⊆ more) : GoesOn files visit names :=
  fun s hs f hf => h s hs f (hsub hf)

theorem visitAll_eq_deeds {names : List String} (h : GoesOn files visit names) {s : Session}
    (hs : files.SamePaths s.files) :
    visitAll visit s names = ((names.map .call).foldl (Deed.perform console visit) s, none)
      ∧ files.SamePaths ((names.map .call).foldl (Deed.perform console visit) s).files := by
  rw [List.foldl_map]
  refine visitAll_eq_foldl (fun t => files.SamePaths t.files) (fun t ht f hf => ?_) hs
  obtain ⟨hnone, hsame⟩ := h t ht f hf
  exact ⟨Prod.ext rfl hnone, hsame⟩

theorem visitPattern_eq_deeds (hroot : files.root.WellNamed) {pattern : String}
    (h : GoesOn files visit (Deed.calls (sel.deedsAt files pattern))) {s : Session}
    (hs : files.SamePaths s.files) :
    sel.visitPattern console visit s pattern
        = ((sel.deedsAt files pattern).foldl (Deed.perform console visit) s, none)
      ∧ files.SamePaths
          ((sel.deedsAt files pattern).foldl (Deed.perform console visit) s).files := by
  -- the pattern is looked up in the session, where it stands for the same
  rw [← deedsAt_congr hroot hs] at h ⊢
  unfold visitPattern
  cases hmagic : Glob.hasMagic pattern.toList with
  | false =>
      rw [deedsAt_of_path hmagic] at h ⊢
      rw [if_pos (by rfl)]
      split
      · exact ⟨rfl, hs⟩
      · next hignored =>
          rw [if_neg hignored] at h
          obtain ⟨hnone, hsame⟩ := h s hs pattern List.mem_cons_self
          exact ⟨Prod.ext rfl hnone, hsame⟩
  | true =>
      rw [if_neg (by simp)]
      cases hexpand : sel.expand s.files pattern with
      | error e =>
          rw [deedsAt_of_error hmagic hexpand]
          exact ⟨rfl, hs⟩
      | ok found =>
          rw [deedsAt_of_ok hmagic hexpand] at h ⊢
          have hfound : GoesOn files visit found := by
            rw [← Deed.calls_map_call found]
            exact h
          exact visitAll_eq_deeds hfound hs

theorem calls_deedsAt_subset {pattern : String} {patterns : List String}
    (h : pattern ∈ patterns) :
    Deed.calls (sel.deedsAt files pattern) ⊆ Deed.calls (sel.deeds files patterns) :=
  fun _ hf => by
    obtain ⟨d, hd, hcall⟩ := List.mem_filterMap.mp hf
    exact List.mem_filterMap.mpr ⟨d, List.mem_flatMap.mpr ⟨pattern, h, hd⟩, hcall⟩

theorem any_isReport_deeds {patterns : List String} :
    (sel.deeds files patterns).any Deed.isReport = true
      ↔ ∃ pattern ∈ patterns, Glob.hasMagic pattern.toList = true
        ∧ ∃ e, sel.expand files pattern = .error e := by
  rw [deeds, List.any_flatMap, List.any_eq_true]
  simp only [any_isReport_deedsAt]

theorem visitPatterns_eq_foldl (console : Console) {s : Session} {patterns : List String}
    (hroot : s.files.root.WellNamed)
    (hvisit : GoesOn s.files visit (Deed.calls (sel.deeds s.files patterns))) :
    sel.visitPatterns console visit s patterns
      = ((sel.deeds s.files patterns).foldl (Deed.perform console visit) s, none) := by
  rw [deeds, List.foldl_flatMap]
  refine (visitAll_eq_foldl (fun t => s.files.SamePaths t.files) ?_ (.refl hroot)).1
  intro t ht pattern hpattern
  exact visitPattern_eq_deeds hroot (hvisit.mono (calls_deedsAt_subset hpattern)) ht

/-- **Each pattern adds its own deeds**, for a path, a list of files or neither (`StandsFor`), and
the deeds of several patterns are done in the order of the patterns, whatever is called for the
paths. If that leaves the exit code alone, the code tells whether some pattern could not be
searched for. -/
theorem visitPatterns_eq_deeds (sel : Selection) (console : Console) {s : Session}
    {patterns : List String} (hroot : s.files.root.WellNamed)
    (hvisit : GoesOn s.files visit (Deed.calls (sel.deeds s.files patterns))) :
    (∀ pattern, sel.StandsFor s.files pattern (sel.deedsAt s.files pattern))
      ∧ (∀ ps qs, Deed.calls (sel.deeds s.files (ps ++ qs))
          = Deed.calls (sel.deeds s.files ps) ++ Deed.calls (sel.deeds s.files qs))
      ∧ sel.visitPatterns console visit s patterns
          = ((sel.deeds s.files patterns).foldl (Deed.perform console visit) s, none)
      ∧ ((∀ t f, (visit t f).1.exit = t.exit) →
          ((∃ pattern ∈ patterns, Glob.hasMagic pattern.toList = true
              ∧ ∃ e, sel.expand s.files pattern = .error e) →
            (sel.visitPatterns console visit s patterns).1.exit = s.exit.escalate .failure)
          ∧ ((∀ pattern ∈ patterns, Glob.hasMagic pattern.toList = true →
              ∃ found, sel.expand s.files pattern = .ok found) →
            (sel.visitPatterns console visit s patterns).1.exit = s.exit)) := by
  have hrun := visitPatterns_eq_foldl console hroot hvisit
  refine ⟨standsFor_deedsAt hroot, fun ps qs => ?_, hrun, fun hexit => ⟨fun hsome => ?_, ?_⟩⟩
  · rw [deeds_append, Deed.calls_append]
  · rw [hrun, Deed.exit_foldl_perform hexit, if_pos (any_isReport_deeds.mpr hsome)]
  · intro hnone
    rw [hrun, Deed.exit_foldl_perform hexit, if_neg]
    rw [any_isReport_deeds]
    rintro ⟨pattern, hpattern, hmagic, e, he⟩
    obtain ⟨found, hfound⟩ := hnone pattern hpattern hmagic
    rw [hfound] at he
    cases he

/-- Empties a file, if it can be written. -/
def emptied (s : Session) (path : String) : Session × Option Stop :=
  match s.files.write path.toList [] with
  | .ok files => ({ s with files := files }, none)
  | .error _ => (s, none)

theorem shape_emptied (s : Session) (path : String) :
    (emptied s path).1.files.shape = s.files.shape := by
  unfold emptied
  split
  · next files hwrite =>
      unfold FileSystem.write at hwrite
      split at hwrite
      · cases hwrite
      · split at hwrite
        · cases hwrite
        · cases hwrite
          exact congrArg (fun root => { s.files with root := root }) (Entry.shape_replace _ _ _)
  · rfl

theorem goesOn_emptied (files : FileSystem) (names : List String) :
    GoesOn files emptied names := by
  intro s hs f _
  refine ⟨?_, hs.trans (FileSystem.samePaths_of_shape_eq hs.wellNamed (shape_emptied s f))⟩
  unfold emptied
  split <;> rfl

/-- A file system with one file, in a directory, and a pattern that cannot be searched for. -/
def guarded : FileSystem := { oneFile with hidden := [['b', '*']] }

/-- A path through a dependency directory, a pattern that cannot be searched for, one that can, and
a path at which there is nothing. -/
def someOfEach : List String := ["lib/y.can", "b*", "**/*.can", "z.can"]

open Glob in
theorem search_guarded : search guarded "**/*.can".toList = .ok ["a/x.can".toList] := by
  -- names are read and matched by recursion on lengths, which `simp` unfolds and `decide` does not
  have hname : readName "*.can".toList = [.star, .char '.', .char 'c', .char 'a', .char 'n'] := by
    simp [readName]
  have hdirs : findBelow guarded true [] anyDepth = [[], ['a']] := by decide
  have htop : follow guarded ["*.can".toList] [[]] = [] := by
    rw [follow_cons]
    show ([['a']].filter (fits (readName "*.can".toList))).flatMap _ = _
    rw [hname]
    simp [fits, Wildcard.accepts]
  have hbelow : follow guarded ["*.can".toList] [['a']] = ["a/x.can".toList] := by
    rw [follow_cons]
    show (["x.can".toList].filter (fits (readName "*.can".toList))).flatMap _ = _
    rw [hname]
    simp [fits, Wildcard.accepts, follow, join]
  have hfollow : follow guarded [anyDepth, "*.can".toList] [[]] = ["a/x.can".toList] :=
    calc follow guarded [anyDepth, "*.can".toList] [[]]
        = (findBelow guarded true [] anyDepth).flatMap fun path =>
            follow guarded ["*.can".toList] [join [] path] := follow_cons _ _ _ _
      _ = follow guarded ["*.can".toList] [[]]
          ++ (follow guarded ["*.can".toList] [['a']] ++ []) := by
          rw [hdirs]
          rfl
      _ = ["a/x.can".toList] := by
          rw [htop, hbelow]
          rfl
  have hsearch : Search.ofPattern "**/*.can".toList = ⟨[], [anyDepth, "*.can".toList]⟩ := by decide
  unfold search
  rw [if_neg (by decide), hsearch]
  show Except.ok (follow guarded [anyDepth, "*.can".toList] [[]]) = _
  rw [hfollow]

theorem calls_someOfEach :
    Deed.calls ((⟨true, ["lib"]⟩ : Selection).deeds guarded someOfEach) = ["a/x.can", "z.can"] := by
  have hadmits : (⟨true, ["lib"]⟩ : Selection).admits guarded "a/x.can".toList = true := by
    decide +kernel
  have hfound : (⟨true, ["lib"]⟩ : Selection).expand guarded "**/*.can" = .ok ["a/x.can"] := by
    refine expand_of_search search_guarded ?_ (List.pairwise_singleton _ _)
    rw [List.filter_cons_of_pos hadmits]
    rfl
  have hnone : (⟨true, ["lib"]⟩ : Selection).expand guarded "b*"
      = .error (.system .denied ['b', '*']) := by decide +kernel
  rw [deeds, someOfEach, List.flatMap_cons, List.flatMap_cons, List.flatMap_cons,
    List.flatMap_singleton, deedsAt_of_path (by decide : Glob.hasMagic "lib/y.can".toList = false),
    if_pos (by decide), deedsAt_of_error (by decide) hnone, deedsAt_of_ok (by decide) hfound,
    deedsAt_of_path (by decide), if_neg (by decide)]
  rfl

/-- Of the four patterns the first is passed over, the second is reported, as it cannot be searched
for, and the others are visited all the same, where the files are emptied. -/
theorem visitPatterns_eq_deeds_emptied :
    guarded.root.WellNamed
      ∧ GoesOn guarded emptied
          (Deed.calls ((⟨true, ["lib"]⟩ : Selection).deeds guarded someOfEach))
      ∧ Deed.calls ((⟨true, ["lib"]⟩ : Selection).deeds guarded someOfEach) = ["a/x.can", "z.can"]
      ∧ ((⟨true, ["lib"]⟩ : Selection).visitPatterns {} emptied ⟨guarded, .success, [], []⟩
          someOfEach).1.exit = .failure := by
  have hroot : guarded.root.WellNamed := wellNamed_oneFile
  have hgoes := goesOn_emptied guarded
    (Deed.calls ((⟨true, ["lib"]⟩ : Selection).deeds guarded someOfEach))
  have hexit : ∀ t f, (emptied t f).1.exit = t.exit := by
    intro t f
    unfold emptied
    split <;> rfl
  have h := visitPatterns_eq_deeds ⟨true, ["lib"]⟩ {} (s := ⟨guarded, .success, [], []⟩) hroot hgoes
  exact ⟨hroot, hgoes, calls_someOfEach, (h.2.2.2 hexit).1 ⟨"b*", by decide, by decide, _, rfl⟩⟩

end Selection

end CaplLayout
