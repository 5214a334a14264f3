import CaplLayout.Proofs.Descent
import Mathlib.Algebra.Ring.Nat
import Mathlib.Data.List.TakeWhile

/-!
# In how many ways a pattern finds a file

A search goes through the names of a pattern and lists, for each path found so far, what the next
name finds below it (`Glob.follow`). Said of the file that is found, and not of the tree, this lays
the names along the pieces of its path (`waysAlong`): each name takes one piece, but `anyDepth` any
number of them. The search lists a file once for each way to do so (`count_search`).

For one name this counts over all that is listed in a directory, of which only the entry under the
next piece of the path matters (`sum_entries`); the rest is an induction along the names
(`countsWays_of_areNames`). There are two ways only for patterns that ask twice for directories at
any depth (`ways_le_one`).
-/

set_option autoImplicit false

namespace CaplLayout

namespace Glob

/-! ## Ways along the names of a pattern -/

/-- Whether a name of a pattern, other than `anyDepth`, stands for a piece of a path. -/
def stands (n s : Text) : Bool := if hasMagic n then isName s && fits (readName n) s else n == s

/-- In how many ways the names of a pattern can be laid along the pieces of a path, each name over
one piece, and `anyDepth` over any number of names of entries. -/
def waysAlong : List Text → List Text → Nat
  | [], ss => if ss = [] then 1 else 0
  | _ :: _, [] => 0
  | n :: r, s :: ss =>
    if n = anyDepth then
      -- it takes no piece, or `s` and goes on, unless that is the last one
      waysAlong r (s :: ss)
        + if isName s then if ss = [] then waysAlong r [] else waysAlong (n :: r) ss else 0
    else if stands n s then waysAlong r ss else 0
termination_by ns ss => ns.length + ss.length

/-- In how many ways a pattern finds a path. -/
def ways (pattern path : Text) : Nat :=
  let s := Search.ofPattern pattern
  if front s.base <+: path then
    waysAlong s.names (Path.pieces (path.drop (front s.base).length))
  else 0

theorem waysAlong_cons_nil (n : Text) (r : List Text) : waysAlong (n :: r) [] = 0 := by
  rw [waysAlong]

theorem waysAlong_nil {r : List Text} (h : r ≠ []) : waysAlong r [] = 0 := by
  cases r with
  | nil => exact absurd rfl h
  | cons n r => exact waysAlong_cons_nil n r

theorem waysAlong_anyDepth (r : List Text) (s : Text) (ss : List Text) :
    waysAlong (anyDepth :: r) (s :: ss)
      = waysAlong r (s :: ss)
        + if isName s then if ss = [] then waysAlong r [] else waysAlong (anyDepth :: r) ss
          else 0 := by
  rw [waysAlong, if_pos rfl]

theorem waysAlong_cons {n : Text} (hn : n ≠ anyDepth) (r : List Text) (s : Text)
    (ss : List Text) :
    waysAlong (n :: r) (s :: ss) = if stands n s then waysAlong r ss else 0 := by
  rw [waysAlong, if_neg hn]

/-- Each name but `anyDepth` takes a piece. -/
theorem length_le_of_waysAlong {ns ss : List Text} (h : waysAlong ns ss ≠ 0) :
    ns.length ≤ ss.length + ns.count anyDepth := by
  induction ns generalizing ss with
  | nil => simp
  | cons n r ih =>
      by_cases hn : n = anyDepth
      · -- by the pieces: it takes the first one, or the names behind it go on from there
        subst hn
        rw [List.count_cons_self, List.length_cons]
        induction ss with
        | nil => exact absurd (waysAlong_cons_nil _ r) h
        | cons s ss ihss =>
            rw [waysAlong_anyDepth] at h
            by_cases hstay : waysAlong r (s :: ss) = 0
            · rw [hstay, Nat.zero_add] at h
              split at h
              · split at h
                · have := ih h
                  rw [List.length_nil] at this
                  omega
                · have := ihss h
                  rw [List.length_cons]
                  omega
              · exact absurd rfl h
            · have := ih hstay
              omega
      · rw [List.count_cons_of_ne hn, List.length_cons]
        cases ss with
        | nil => exact absurd (waysAlong_cons_nil n r) h
        | cons s ss =>
            rw [waysAlong_cons hn] at h
            split at h
            · have := ih h
              rw [List.length_cons]
              omega
            · exact absurd rfl h

/-- Names without `anyDepth` go over as many pieces as they are. -/
theorem length_eq_of_waysAlong {ns ss : List Text} (hns : anyDepth ∉ ns)
    (h : waysAlong ns ss ≠ 0) : ss.length = ns.length := by
  induction ns generalizing ss with
  | nil =>
      rw [waysAlong] at h
      split at h
      · next hss => rw [hss]
      · exact absurd rfl h
  | cons n r ih =>
      rw [List.mem_cons, not_or] at hns
      cases ss with
      | nil => exact absurd (waysAlong_cons_nil n r) h
      | cons s ss =>
          rw [waysAlong_cons (Ne.symm hns.1)] at h
          split at h
          · rw [List.length_cons, List.length_cons, ih hns.2 h]
          · exact absurd rfl h

/-- If the names behind it take all pieces that are left, `anyDepth` takes none. -/
theorem waysAlong_anyDepth_of_ne {r ss : List Text} {s : Text} (hr : anyDepth ∉ r)
    (h : waysAlong r (s :: ss) ≠ 0) :
    waysAlong (anyDepth :: r) (s :: ss) = waysAlong r (s :: ss) := by
  have hlength := length_eq_of_waysAlong hr h
  rw [List.length_cons] at hlength
  rw [waysAlong_anyDepth, Nat.add_eq_left]
  split
  · split
    · refine waysAlong_nil ?_
      rintro rfl
      cases hlength
    · by_contra hgo
      have hmore := length_le_of_waysAlong hgo
      rw [List.length_cons, List.count_cons_self, List.count_eq_zero.mpr hr] at hmore
      omega
  · rfl

/-- **Two ways need two names** that stand for any number of directories. -/
theorem waysAlong_le_one {ns : List Text} (hns : ns.count anyDepth ≤ 1) (ss : List Text) :
    waysAlong ns ss ≤ 1 := by
  induction ns generalizing ss with
  | nil =>
      rw [waysAlong]
      split <;> omega
  | cons n r ih =>
      by_cases hn : n = anyDepth
      · subst hn
        rw [List.count_cons_self] at hns
        have hnone : anyDepth ∉ r := List.count_eq_zero.mp (by omega)
        have hrest := ih (by omega)
        induction ss with
        | nil => simp [waysAlong_cons_nil]
        | cons s ss ihss =>
            by_cases hstay : waysAlong r (s :: ss) = 0
            · rw [waysAlong_anyDepth, hstay, Nat.zero_add]
              split
              · split
                · exact hrest []
                · exact ihss
              · omega
            · rw [waysAlong_anyDepth_of_ne hnone hstay]
              exact hrest _
      · rw [List.count_cons_of_ne hn] at hns
        cases ss with
        | nil => simp [waysAlong_cons_nil]
        | cons s ss =>
            rw [waysAlong_cons hn]
            split
            · exact ih hns ss
            · omega

/-! ## Ways through pieces -/

/-- In how many ways names go on along pieces `ts` behind pieces `xs` in front of them. -/
def waysBehind (r xs ts : List Text) : Nat :=
  if xs <+: ts then waysAlong r (ts.drop xs.length) else 0

theorem waysBehind_nil (r ts : List Text) : waysBehind r [] ts = waysAlong r ts := by
  simp [waysBehind]

theorem waysBehind_cons_nil (r xs : List Text) (x : Text) : waysBehind r (x :: xs) [] = 0 := by
  simp [waysBehind]

theorem waysBehind_cons (r xs ts : List Text) (x t : Text) :
    waysBehind r (x :: xs) (t :: ts) = if x = t then waysBehind r xs ts else 0 := by
  unfold waysBehind
  simp only [List.cons_prefix_cons, List.length_cons, List.drop_succ_cons]
  by_cases h : x = t <;> simp [h]

theorem waysBehind_none (xs ts : List Text) :
    waysBehind [] xs ts = if xs = ts then 1 else 0 := by
  unfold waysBehind
  rw [waysAlong]
  by_cases h : xs = ts
  · simp [h]
  · rw [if_neg h]
    split
    · next hprefix =>
        refine if_neg fun hrest => h ?_
        rw [← List.prefix_iff_eq_append.mp hprefix, hrest, List.append_nil]
    · rfl

/-- The pieces that a found name adds to a path: none if it is empty. -/
def added (x : Text) : List Text := if x = [] then [] else Path.pieces x

theorem added_nil : added [] = [] := rfl

theorem added_of_ne {x : Text} (h : x ≠ []) : added x = Path.pieces x := if_neg h

theorem added_eq_pieces_iff {x t : Text} (ht : t ≠ []) :
    added x = Path.pieces t ↔ x = t := by
  by_cases hx : x = []
  · rw [hx, added_nil]
    exact iff_of_false (Path.pieces_ne_nil t).symm ht.symm
  · rw [added_of_ne hx]
    exact ⟨Path.pieces_inj, congrArg Path.pieces⟩

/-- In how many ways names go on along pieces behind what was found. -/
def waysOn (r ts found : List Text) : Nat := (found.map fun x => waysBehind r (added x) ts).sum

theorem waysOn_nil (r ts : List Text) : waysOn r ts [] = 0 := rfl

theorem waysOn_cons (r ts found : List Text) (x : Text) :
    waysOn r ts (x :: found) = waysBehind r (added x) ts + waysOn r ts found := List.sum_cons

theorem waysOn_singleton (r ts : List Text) (x : Text) :
    waysOn r ts [x] = waysBehind r (added x) ts := by
  rw [waysOn_cons, waysOn_nil, Nat.add_zero]

theorem waysOn_append (r ts a b : List Text) :
    waysOn r ts (a ++ b) = waysOn r ts a + waysOn r ts b := by
  simp only [waysOn, List.map_append, List.sum_append]

theorem waysOn_flatMap {α : Type} (r ts : List Text) (es : List α) (f : α → List Text) :
    waysOn r ts (es.flatMap f) = (es.map fun e => waysOn r ts (f e)).sum := by
  induction es with
  | nil => rfl
  | cons e es ih =>
      rw [List.flatMap_cons, List.map_cons, List.sum_cons, ← ih]
      exact waysOn_append r ts (f e) _

/-! ## What is listed in directories -/

/-- Of the entries of a directory, each under a name of its own, a sum over those of one name takes
at most one. -/
theorem sum_lookup {entries : List (Text × Entry)} (h : (entries.map Prod.fst).Nodup) (s : Text)
    (k : Entry → Nat) :
    (entries.map fun p => if p.1 = s then k p.2 else 0).sum = (entries.lookup s).elim 0 k := by
  induction entries with
  | nil => rfl
  | cons p entries ih =>
      obtain ⟨name, e⟩ := p
      rw [List.map_cons, List.nodup_cons] at h
      rw [List.map_cons, List.sum_cons, ih h.2, List.lookup_cons]
      by_cases hname : name = s
      · subst hname
        have hnone : entries.lookup name = none := by
          rw [List.lookup_eq_none_iff]
          intro p hp
          rw [bne_iff_ne]
          exact fun heq => h.1 (List.mem_map.mpr ⟨p, hp, heq.symm⟩)
        simp [hnone]
      · have hother : (s == name) = false := by simpa using Ne.symm hname
        simp [hname, hother]

/-- What one entry of a directory adds to the paths below it. -/
def belowOne (directoriesOnly : Bool) (p : Text × Entry) : List Text :=
  if directoriesOnly && !p.2.isDirectory then []
  else p.1 :: (belowEntry directoriesOnly p.2).map (join p.1)

theorem below_eq_flatMap (d : Bool) (entries : List (Text × Entry)) :
    below d entries = entries.flatMap (belowOne d) := by
  induction entries with
  | nil => rfl
  | cons p entries ih =>
      rw [List.flatMap_cons, ← ih]
      rfl

/-- Whether a found name neither is empty nor ends in a slash, so that whatever is found below it
stands behind a slash of its own. -/
def Ends (x : Text) : Prop := x ≠ [] ∧ x.getLast? ≠ some '/'

theorem ends_of_not_mem {x : Text} (hne : x ≠ []) (h : '/' ∉ x) : Ends x :=
  ⟨hne, fun hlast => h (List.mem_of_getLast? hlast)⟩

theorem front_append_of_ends {x : Text} (h : Ends x) (q : Text) :
    front (q ++ x) = q ++ x ++ ['/'] := by
  refine front_of_getLast? (by simp [h.1]) ?_
  rw [List.getLast?_append_of_ne_nil _ h.1]
  exact h.2

theorem join_of_isName {s : Text} (h : isName s = true) (x : Text) :
    join s x = s ++ '/' :: x := by
  obtain ⟨hne, -, -, hslash⟩ := isName_iff.mp h
  obtain ⟨-, hlast⟩ := ends_of_not_mem hne hslash
  rw [join, if_neg (by simp [hne, hlast])]

theorem Ends.join {s x : Text} (hs : isName s = true) (hx : Ends x) : Ends (Glob.join s x) := by
  obtain ⟨hne, hlast⟩ := hx
  rw [join_of_isName hs]
  refine ⟨by simp, ?_⟩
  rw [List.append_cons, List.getLast?_append_of_ne_nil _ hne]
  exact hlast

theorem ends_of_mem_belowEntry {e : Entry} (h : e.WellNamed) (d : Bool) :
    ∀ x ∈ belowEntry d e, Ends x := by
  induction h with
  | file bytes =>
      intro x hx
      cases hx
  | directory hnodup hname hrest ih =>
      intro x hx
      rw [belowEntry, below_eq_flatMap] at hx
      obtain ⟨p, hp, hx⟩ := List.mem_flatMap.mp hx
      unfold belowOne at hx
      split at hx
      · cases hx
      · rcases List.mem_cons.mp hx with rfl | hx
        · obtain ⟨hne, -, -, hslash⟩ := isName_iff.mp (hname p hp)
          exact ends_of_not_mem hne hslash
        · obtain ⟨y, hy, rfl⟩ := List.mem_map.mp hx
          exact (ih p hp y hy).join (hname p hp)

theorem added_of_isName {n : Text} (h : isName n = true) : added n = [n] := by
  obtain ⟨hne, -, -, hslash⟩ := isName_iff.mp h
  rw [added_of_ne hne, Path.pieces_of_not_mem hslash]

theorem added_join {n x : Text} (hn : isName n = true) (hx : x ≠ []) :
    added (join n x) = n :: added x := by
  obtain ⟨-, -, -, hslash⟩ := isName_iff.mp hn
  rw [join_of_isName hn, added_of_ne (by simp), Path.pieces_append_slash,
    Path.pieces_of_not_mem hslash, added_of_ne hx]
  rfl

theorem waysOn_map_join (r ss : List Text) {n s : Text} (hn : isName n = true) {found : List Text}
    (hfound : ∀ x ∈ found, Ends x) :
    waysOn r (s :: ss) (found.map (join n)) = if n = s then waysOn r ss found else 0 := by
  induction found with
  | nil => simp [waysOn_nil]
  | cons x found ih =>
      have hx := hfound x List.mem_cons_self
      rw [List.map_cons, waysOn_cons, added_join hn hx.1, waysBehind_cons, waysOn_cons,
        ih fun y hy => hfound y (List.mem_cons_of_mem x hy)]
      split <;> rfl

theorem waysOn_ends_nil (r : List Text) {found : List Text} (hfound : ∀ x ∈ found, Ends x) :
    waysOn r [] found = 0 := by
  induction found with
  | nil => rfl
  | cons x found ih =>
      have hx := hfound x List.mem_cons_self
      obtain ⟨p, ps, hpieces⟩ := List.exists_cons_of_ne_nil (Path.pieces_ne_nil x)
      rw [waysOn_cons, added_of_ne hx.1, hpieces, waysBehind_cons_nil,
        ih fun y hy => hfound y (List.mem_cons_of_mem x hy)]

/-- In how many ways names go on along pieces at an entry or below it. -/
def waysInto (r ss : List Text) (e : Entry) : Nat :=
  if !r.isEmpty && !e.isDirectory then 0
  else waysAlong r ss + waysOn r ss (belowEntry (!r.isEmpty) e)

theorem waysInto_nil (r : List Text) {e : Entry} (he : e.WellNamed) :
    waysInto r [] e = waysAlong r [] := by
  unfold waysInto
  split
  · next h => rw [waysAlong_nil (by rintro rfl; simp at h)]
  · rw [waysOn_ends_nil r (ends_of_mem_belowEntry he _), Nat.add_zero]

theorem waysInto_directory (r ss : List Text) (entries : List (Text × Entry)) :
    waysInto r ss (.directory entries)
      = waysAlong r ss + waysOn r ss (below (!r.isEmpty) entries) := by
  rw [waysInto, Entry.isDirectory, Bool.not_true, Bool.and_false, if_neg Bool.false_ne_true,
    belowEntry]

theorem waysOn_belowOne (r ss : List Text) (s : Text) {p : Text × Entry}
    (hname : isName p.1 = true) (he : p.2.WellNamed) :
    waysOn r (s :: ss) (belowOne (!r.isEmpty) p)
      = if p.1 = s then waysInto r ss p.2 else 0 := by
  unfold belowOne waysInto
  by_cases hd : (!r.isEmpty && !p.2.isDirectory) = true
  · rw [if_pos hd, if_pos hd, waysOn_nil, ite_self]
  · rw [if_neg hd, if_neg hd, waysOn_cons,
      waysOn_map_join r ss hname (ends_of_mem_belowEntry he _), added_of_isName hname,
      waysBehind_cons, waysBehind_nil]
    split <;> rfl

section Listed

variable {entries : List (Text × Entry)}

/-- A sum over the entries of one name is that for the entry to which the path leads. -/
theorem sum_entries (h : (Entry.directory entries).WellNamed) {s : Text} {ss : List Text}
    (hleads : Entry.Leads entries (s :: ss)) {k : Entry → Nat} {n : Nat}
    (hlast : ss = [] → ∀ e : Entry, e.WellNamed → k e = n)
    (hgo : ∀ inner, (Entry.directory inner).WellNamed → Entry.Leads inner ss → ss ≠ [] →
      k (.directory inner) = n) :
    (entries.map fun p => if p.1 = s then k p.2 else 0).sum = if isName s then n else 0 := by
  rw [sum_lookup h.nodup]
  by_cases hs : isName s = true
  · obtain ⟨e, hlookup, hinner⟩ := hleads hs
    rw [hlookup, if_pos hs]
    by_cases hss : ss = []
    · exact hlast hss e (h.of_mem (Entry.mem_of_lookup hlookup))
    · obtain ⟨inner, rfl, hrest⟩ := hinner hss
      exact hgo inner (h.of_mem (Entry.mem_of_lookup hlookup)) hrest hss
  · have hnone : entries.lookup s = none := by
      rw [List.lookup_eq_none_iff]
      intro p hp
      rw [bne_iff_ne]
      rintro rfl
      exact hs (h.isName hp)
    rw [hnone, if_neg hs]
    rfl

theorem waysOn_below_eq_sum (r ss : List Text) (s : Text)
    (h : (Entry.directory entries).WellNamed) :
    waysOn r (s :: ss) (below (!r.isEmpty) entries)
      = (entries.map fun p => if p.1 = s then waysInto r ss p.2 else 0).sum := by
  rw [below_eq_flatMap, waysOn_flatMap]
  congr 1
  exact List.map_congr_left fun p hp =>
    waysOn_belowOne r ss s (h.isName hp) (h.of_mem hp)

/-- What `anyDepth` finds below a directory other than the directory itself. -/
theorem waysOn_below (r : List Text) {s : Text} {ss : List Text}
    (h : (Entry.directory entries).WellNamed) (hleads : Entry.Leads entries (s :: ss)) :
    waysOn r (s :: ss) (below (!r.isEmpty) entries)
      = if isName s then if ss = [] then waysAlong r [] else waysAlong (anyDepth :: r) ss
        else 0 := by
  -- by the pieces behind the first one: with each of them the search is one directory further down
  induction ss generalizing s entries with
  | nil =>
      rw [waysOn_below_eq_sum r [] s h, if_pos rfl]
      exact sum_entries h hleads (fun _ e he => waysInto_nil r he) fun _ _ _ hne => absurd rfl hne
  | cons s' ss ih =>
      rw [waysOn_below_eq_sum r _ s h, if_neg (List.cons_ne_nil s' ss)]
      refine sum_entries h hleads (fun hss => absurd hss (List.cons_ne_nil s' ss)) ?_
      intro inner hinner hrest _
      rw [waysInto_directory, ih hinner hrest, waysAlong_anyDepth]

/-- What a name with wildcards finds in a directory, as one of its names. -/
def listed (d : Bool) (n : Text) (entries : List (Text × Entry)) : List Text :=
  ((entries.filter fun e => !d || e.2.isDirectory).map Prod.fst).filter (fits (readName n))

theorem listed_cons (d : Bool) (n : Text) (p : Text × Entry) (entries : List (Text × Entry)) :
    listed d n (p :: entries)
      = (if (!d || p.2.isDirectory) && fits (readName n) p.1 then [p.1] else [])
        ++ listed d n entries := by
  unfold listed
  cases hd : !d || p.2.isDirectory <;> cases hn : fits (readName n) p.1 <;> simp [hd, hn]

theorem waysOn_listed_eq_sum (r ss : List Text) (d : Bool) (n s : Text)
    (h : ∀ p ∈ entries, isName p.1 = true) :
    waysOn r (s :: ss) (listed d n entries)
      = (entries.map fun p => if p.1 = s then
          if (!d || p.2.isDirectory) && fits (readName n) s then waysAlong r ss else 0
        else 0).sum := by
  induction entries with
  | nil => rfl
  | cons p entries ih =>
      have hp := h p List.mem_cons_self
      rw [listed_cons, waysOn_append, ih fun q hq => h q (List.mem_cons_of_mem p hq),
        List.map_cons, List.sum_cons]
      congr 1
      by_cases hs : p.1 = s
      · subst hs
        rw [if_pos rfl]
        split
        · rw [waysOn_singleton, added_of_isName hp, waysBehind_cons, if_pos rfl, waysBehind_nil]
        · rfl
      · rw [if_neg hs]
        split
        · rw [waysOn_singleton, added_of_isName hp, waysBehind_cons, if_neg hs]
        · rfl

theorem waysOn_listed (r ss : List Text) (n : Text) {s : Text}
    (h : (Entry.directory entries).WellNamed) (hleads : Entry.Leads entries (s :: ss)) :
    waysOn r (s :: ss) (listed (!r.isEmpty) n entries)
      = if isName s && fits (readName n) s then waysAlong r ss else 0 := by
  have hsum := sum_entries h hleads
    (k := fun e =>
      if (!(!r.isEmpty) || e.isDirectory) && fits (readName n) s then waysAlong r ss else 0)
    (n := if fits (readName n) s then waysAlong r ss else 0) ?_ ?_
  · rw [waysOn_listed_eq_sum r ss _ n s fun p hp => h.isName hp]
    refine hsum.trans ?_
    cases isName s <;> rfl
  · -- an entry that is no directory counts only if no name is left, and else nothing does
    rintro rfl e -
    cases r with
    | nil => rfl
    | cons m r => simp [waysAlong_cons_nil]
  · intro inner _ _ _
    simp [Entry.isDirectory]

end Listed

/-! ## Ways below a path -/

section Search

variable {fs : FileSystem} {q t : Text}

/-- There is something at the first piece of what leads on to a file. -/
theorem hasEntry_join (h : fs.isFile (front q ++ t) = true) {s : Text} {ss : List Text}
    (hpieces : Path.pieces t = s :: ss) (hs : s ≠ []) : fs.hasEntry (join q s) = true := by
  have hslash : '/' ∉ s :=
    Path.slash_not_mem_piece (s := t) (hpieces ▸ List.mem_cons_self)
  rw [join_eq]
  by_cases hss : ss = []
  · obtain rfl : t = s :=
      Path.pieces_inj (by rw [hpieces, hss, Path.pieces_of_not_mem hslash])
    unfold FileSystem.isFile at h
    split at h
    · next bytes hentry =>
        rw [FileSystem.hasEntry, hentry]
        rfl
    · cases h
  · refine FileSystem.hasEntry_of_isFile (t := Path.joinNames ss) (by simp [hs]) ?_
    rw [front_append_of_ends (ends_of_not_mem hs hslash), List.append_assoc]
    have ht : t = s ++ '/' :: Path.joinNames ss := by
      rw [← Path.joinNames_pieces t, hpieces, ← List.singleton_append,
        Path.joinNames_append (List.cons_ne_nil s []) hss]
      rfl
    rw [List.append_assoc, List.singleton_append, ← ht]
    exact h

/-- A slash at the end of a pattern finds no file. -/
theorem waysOn_trailing (h : fs.isFile (front q ++ t) = true) {s : Text} {ss : List Text}
    (hpieces : Path.pieces t = s :: ss) :
    waysOn [] (s :: ss) (if fs.isDirectory q then [[]] else [])
      = if ([] : Text) == s then waysAlong [] ss else 0 := by
  have hnot : waysAlong [] (s :: ss) = 0 := by simp [waysAlong]
  have hleft : waysOn [] (s :: ss) (if fs.isDirectory q then [[]] else []) = 0 := by
    split
    · rw [waysOn_singleton, added_nil, waysBehind_nil, hnot]
    · rfl
  rw [hleft]
  split
  · next hs =>
      rw [beq_iff_eq] at hs
      subst hs
      cases ss with
      | nil =>
          obtain rfl : t = [] := Path.pieces_inj hpieces
          rw [List.append_nil, FileSystem.isFile_front] at h
          cases h
      | cons s' ss => simp [waysAlong]
  · rfl

/-- A name without wildcards finds the entry of that name. -/
theorem waysOn_literal (h : fs.isFile (front q ++ t) = true) {n s : Text} {ss : List Text}
    (hpieces : Path.pieces t = s :: ss) (hn : n ≠ []) (hslash : '/' ∉ n) (r : List Text) :
    waysOn r (s :: ss) (if fs.hasEntry (join q n) then [n] else [])
      = if n == s then waysAlong r ss else 0 := by
  have hadded : added n = [n] := by rw [added_of_ne hn, Path.pieces_of_not_mem hslash]
  by_cases hs : n = s
  · subst hs
    rw [if_pos (hasEntry_join h hpieces hn), if_pos (beq_self_eq_true n), waysOn_singleton, hadded,
      waysBehind_cons, if_pos rfl, waysBehind_nil]
  · rw [if_neg (c := (n == s) = true) (by simpa using hs)]
    split
    · rw [waysOn_singleton, hadded, waysBehind_cons, if_neg hs]
    · rfl

/-- **What one name finds** below a path leads on to a file in as many ways as the name does with
those behind it. -/
theorem waysOn_findBelow (hroot : fs.root.WellNamed) (h : fs.isFile (front q ++ t) = true)
    {n : Text} {r : List Text} (hslash : '/' ∉ n) (hempty : n = [] → r = []) :
    waysOn r (Path.pieces t) (findBelow fs (!r.isEmpty) q n)
      = waysAlong (n :: r) (Path.pieces t) := by
  have hlisted := FileSystem.wellNamed_entriesAt hroot q
  have hleads := FileSystem.leads_of_isFile h
  obtain ⟨s, ss, hpieces⟩ := List.exists_cons_of_ne_nil (Path.pieces_ne_nil t)
  rw [hpieces] at hleads ⊢
  unfold findBelow
  by_cases hany : n = anyDepth
  · subst hany
    rw [if_pos rfl, waysOn_cons, added_nil, waysBehind_nil, waysOn_below r hlisted hleads,
      waysAlong_anyDepth]
  · rw [if_neg hany, waysAlong_cons hany]
    by_cases hmagic : hasMagic n = true
    · rw [if_pos hmagic, stands, if_pos hmagic]
      exact waysOn_listed r ss n hlisted hleads
    · rw [if_neg hmagic, stands, if_neg hmagic]
      by_cases hn : n = []
      · obtain rfl := hempty hn
        rw [if_pos hn, hn]
        exact waysOn_trailing h hpieces
      · rw [if_neg hn]
        exact waysOn_literal h hpieces hn hslash r

theorem ends_of_mem_findBelow (hroot : fs.root.WellNamed) {n x : Text} {d : Bool}
    (hslash : '/' ∉ n) (hx : x ∈ findBelow fs d q n) : x = [] ∨ Ends x := by
  have hlisted := FileSystem.wellNamed_entriesAt hroot q
  unfold findBelow at hx
  split at hx
  · exact (List.mem_cons.mp hx).imp_right fun hx => ends_of_mem_belowEntry hlisted d x hx
  · split at hx
    · obtain ⟨p, hp, rfl⟩ := List.mem_map.mp (List.mem_filter.mp hx).1
      obtain ⟨hne, -, -, hslash⟩ :=
        isName_iff.mp (hlisted.isName (List.mem_filter.mp hp).1)
      exact Or.inr (ends_of_not_mem hne hslash)
    · split at hx
      · split at hx
        · exact Or.inl (List.mem_singleton.mp hx)
        · cases hx
      · next hn =>
          split at hx
          · rw [List.mem_singleton.mp hx]
            exact Or.inr (ends_of_not_mem hn hslash)
          · cases hx

theorem follow_flatMap (fs : FileSystem) (ns found : List Text) :
    follow fs ns found = found.flatMap fun x => follow fs ns [x] := by
  induction ns generalizing found with
  | nil => simp [follow]
  | cons n r ih =>
      rw [follow, ih, List.flatMap_assoc]
      congr 1
      funext x
      rw [follow, ih, List.flatMap_singleton]

theorem follow_cons (fs : FileSystem) (n : Text) (r : List Text) (q : Text) :
    follow fs (n :: r) [q]
      = (findBelow fs (!r.isEmpty) q n).flatMap fun x => follow fs r [join q x] := by
  rw [follow, follow_flatMap, List.flatMap_singleton, List.flatMap_map]

/-- Whatever names find below a path stands behind its slash. -/
theorem front_prefix_of_mem_follow {ns : List Text} (hns : ns ≠ []) {p : Text}
    (hp : p ∈ follow fs ns [q]) : front q <+: p := by
  induction ns generalizing q with
  | nil => exact absurd rfl hns
  | cons n r ih =>
      rw [follow_cons] at hp
      obtain ⟨x, -, hp⟩ := List.mem_flatMap.mp hp
      rw [join_eq] at hp
      cases r with
      | nil =>
          rw [follow, List.mem_singleton] at hp
          rw [hp]
          exact List.prefix_append (front q) x
      | cons m r =>
          have hfront : front q <+: front (front q ++ x) :=
            (List.prefix_append (front q) x).trans (prefix_front _)
          exact hfront.trans (ih (List.cons_ne_nil m r) hp)

theorem waysBehind_pieces_self (r : List Text) (x : Text) :
    waysBehind r (Path.pieces x) (Path.pieces x) = waysAlong r [] := by
  simp [waysBehind]

theorem waysBehind_pieces_slash (r : List Text) (x t : Text) :
    waysBehind r (Path.pieces x) (Path.pieces (x ++ '/' :: t)) = waysAlong r (Path.pieces t) := by
  rw [waysBehind, Path.pieces_append_slash, if_pos (List.prefix_append _ _),
    List.drop_left]

theorem waysBehind_pieces_of_ne (r : List Text) {x : Text} (hne : t ≠ x)
    (hslash : ¬ ∃ t', t = x ++ '/' :: t') :
    waysBehind r (Path.pieces x) (Path.pieces t) = 0 := by
  refine if_neg fun hprefix => ?_
  obtain ⟨rest, hrest⟩ := hprefix
  by_cases hnil : rest = []
  · rw [hnil, List.append_nil] at hrest
    exact hne (Path.pieces_inj hrest).symm
  · refine hslash ⟨Path.joinNames rest, ?_⟩
    rw [← Path.joinNames_pieces t, ← hrest, Path.joinNames_append (Path.pieces_ne_nil x) hnil,
      Path.joinNames_pieces]

/-- Behind the last name, what was found has to be the file. -/
theorem count_found (h : fs.isFile (front q ++ t) = true) (x : Text) :
    [front q ++ x].count (front q ++ t) = waysBehind [] (added x) (Path.pieces t) := by
  have hne : t ≠ [] := by
    rintro rfl
    rw [List.append_nil, FileSystem.isFile_front] at h
    cases h
  have hself : front q ++ x = front q ++ t ↔ added x = Path.pieces t := by
    rw [List.append_cancel_left_eq, added_eq_pieces_iff hne]
  rw [List.count_singleton, waysBehind_none]
  simp only [beq_iff_eq, hself]

/-- Names that lead in as many ways from a path to the files below it as they can be laid along the
rest of their paths. -/
def CountsWays (fs : FileSystem) (r : List Text) : Prop :=
  ∀ q t : Text, fs.isFile (front q ++ t) = true →
    (follow fs r [q]).count (front q ++ t) = waysAlong r (Path.pieces t)

/-- Behind what was found such names lead to the file in as many ways as they go on behind it. -/
theorem CountsWays.count_follow_append {r : List Text} (hcounts : CountsWays fs r) (hr : r ≠ [])
    (h : fs.isFile (front q ++ t) = true) {x : Text} (hx : Ends x) :
    (follow fs r [front q ++ x]).count (front q ++ t)
      = waysBehind r (added x) (Path.pieces t) := by
  have hfront := front_append_of_ends hx (front q)
  rw [added_of_ne hx.1]
  by_cases hgo : ∃ t', t = x ++ '/' :: t'
  · obtain ⟨t', rfl⟩ := hgo
    have hpath : front q ++ (x ++ '/' :: t') = front (front q ++ x) ++ t' := by
      rw [hfront]
      simp
    rw [hpath] at h ⊢
    rw [hcounts _ t' h, waysBehind_pieces_slash]
  · -- the file is not below what was found, so nothing that is found from there on is the file
    have hnone : front q ++ t ∉ follow fs r [front q ++ x] := by
      intro hmem
      have hprefix := front_prefix_of_mem_follow hr hmem
      rw [hfront, List.append_assoc, List.prefix_append_right_inj] at hprefix
      obtain ⟨t', ht'⟩ := hprefix
      exact hgo ⟨t', by rw [← ht']; simp⟩
    rw [List.count_eq_zero.mpr hnone]
    by_cases hself : t = x
    · rw [hself, waysBehind_pieces_self, waysAlong_nil hr]
    · rw [waysBehind_pieces_of_ne r hself hgo]

theorem CountsWays.count_follow_join {r : List Text} (hcounts : r ≠ [] → CountsWays fs r)
    (h : fs.isFile (front q ++ t) = true) {x : Text} (hx : x = [] ∨ Ends x) :
    (follow fs r [join q x]).count (front q ++ t)
      = waysBehind r (added x) (Path.pieces t) := by
  rw [join_eq]
  by_cases hr : r = []
  · rw [hr, follow]
    exact count_found h x
  · rcases hx with rfl | hx
    · -- the directory itself, as `anyDepth` finds it
      rw [List.append_nil, added_nil, waysBehind_nil]
      have hcount := hcounts hr (front q) t (by rwa [front_front])
      rwa [front_front] at hcount
    · exact (hcounts hr).count_follow_append hr h hx

/-- The names of a search hold no slash, and only the last one may be empty. -/
structure AreNames (ns : List Text) : Prop where
  slash_not_mem : ∀ n ∈ ns, '/' ∉ n
  nil_not_mem : [] ∉ ns.dropLast

theorem AreNames.eq_nil_of_head {r : List Text} (h : AreNames ([] :: r)) : r = [] := by
  by_contra hr
  have hnil := h.nil_not_mem
  rw [List.dropLast_cons_of_ne_nil hr] at hnil
  exact hnil List.mem_cons_self

theorem AreNames.tail {n : Text} {r : List Text} (h : AreNames (n :: r)) : AreNames r := by
  refine ⟨fun m hm => h.slash_not_mem m (List.mem_cons_of_mem n hm), ?_⟩
  by_cases hr : r = []
  · simp [hr]
  · have hnil := h.nil_not_mem
    rw [List.dropLast_cons_of_ne_nil hr] at hnil
    exact fun hmem => hnil (List.mem_cons_of_mem n hmem)

/-- **How often names find a file** below a path is in how many ways they can be laid along the rest
of its path. -/
theorem countsWays_of_areNames (hroot : fs.root.WellNamed) {ns : List Text} (hns : ns ≠ [])
    (hnames : AreNames ns) : CountsWays fs ns := by
  induction ns with
  | nil => exact absurd rfl hns
  | cons n r ih =>
      intro q t h
      have hslash := hnames.slash_not_mem n List.mem_cons_self
      have hlast : n = [] → r = [] := by
        rintro rfl
        exact hnames.eq_nil_of_head
      -- one step, and the names behind it from whatever that has found
      rw [← waysOn_findBelow hroot h hslash hlast, follow_cons, List.count_flatMap, waysOn]
      congr 1
      refine List.map_congr_left fun x hx => ?_
      exact CountsWays.count_follow_join (fun hr => ih hr hnames.tail) h
        (ends_of_mem_findBelow hroot hslash hx)

end Search

/-! ## The search of a pattern -/

theorem hasMagic_consLine (c : Char) {ps : List Text} (h : ps ≠ []) :
    (Text.consLine c ps).any hasMagic = (hasMagic [c] || ps.any hasMagic) := by
  cases ps with
  | nil => exact absurd rfl h
  | cons p ps => simp [Text.consLine, hasMagic, Bool.or_assoc]

/-- The slashes at which a pattern is cut are no wildcards. -/
theorem any_hasMagic_pieces (s : Text) : (Path.pieces s).any hasMagic = hasMagic s := by
  induction s with
  | nil => rfl
  | cons c r ih =>
      have hcons : hasMagic (c :: r) = (hasMagic [c] || hasMagic r) := by simp [hasMagic]
      rw [Path.pieces, hcons, ← ih]
      split
      · next hc =>
          subst hc
          rfl
      · exact hasMagic_consLine c (Path.pieces_ne_nil r)

theorem keepNames_ne_nil {ns : List Text} (h : ns ≠ []) : keepNames ns ≠ [] := by
  fun_induction keepNames ns with
  | case1 => exact absurd rfl h
  | case2 n => simp
  | case3 r hr ih => exact ih (by simpa using hr)
  | case4 n r hr hn ih => simp

theorem mem_of_mem_keepNames {ns : List Text} {n : Text} (h : n ∈ keepNames ns) : n ∈ ns := by
  fun_induction keepNames ns with
  | case1 => exact h
  | case2 m => exact h
  | case3 r hr ih => exact List.mem_cons_of_mem _ (ih h)
  | case4 m r hr hm ih =>
      rcases List.mem_cons.mp h with rfl | h
      · exact List.mem_cons_self
      · exact List.mem_cons_of_mem m (ih h)

theorem nil_not_mem_dropLast_keepNames (ns : List Text) : [] ∉ (keepNames ns).dropLast := by
  fun_induction keepNames ns with
  | case1 => simp
  | case2 n => simp
  | case3 r hr ih => exact ih
  | case4 n r hr hn ih =>
      rw [List.dropLast_cons_of_ne_nil (keepNames_ne_nil (by simpa using hr)), List.mem_cons,
        not_or]
      exact ⟨Ne.symm hn, ih⟩

theorem names_ne_nil {pattern : Text} (h : hasMagic pattern = true) :
    (Search.ofPattern pattern).names ≠ [] := by
  refine keepNames_ne_nil fun hnone => ?_
  rw [← any_hasMagic_pieces, List.any_eq_true] at h
  obtain ⟨p, hp, hmagic⟩ := h
  have := List.dropWhile_eq_nil_iff.mp hnone p hp
  rw [hmagic] at this
  cases this

theorem ways_le_one {pattern : Text}
    (h : (Search.ofPattern pattern).names.count anyDepth ≤ 1) (path : Text) :
    ways pattern path ≤ 1 := by
  unfold ways
  dsimp only
  split
  · exact waysAlong_le_one h _
  · exact Nat.zero_le 1

theorem areNames_names (pattern : Text) : AreNames (Search.ofPattern pattern).names := by
  refine ⟨fun n hn => ?_, nil_not_mem_dropLast_keepNames _⟩
  exact Path.slash_not_mem_piece ((List.dropWhile_suffix _).subset (mem_of_mem_keepNames hn))

/-- **A search finds a file** as often as there are ways in which the pattern does. -/
theorem count_search {fs : FileSystem} (hroot : fs.root.WellNamed) {pattern : Text}
    (hmagic : hasMagic pattern = true) {found : List Text} (h : search fs pattern = .ok found)
    {path : Text} (hfile : fs.isFile path = true) : found.count path = ways pattern path := by
  have hnames := names_ne_nil hmagic
  unfold search at h
  split at h
  · cases h
  · dsimp only at h
    split at h
    · cases h
    · cases h
      unfold ways
      dsimp only
      split
      · next hprefix =>
          have hpath := List.prefix_iff_eq_append.mp hprefix
          have hcount := countsWays_of_areNames hroot hnames (areNames_names pattern)
            (Search.ofPattern pattern).base
            (path.drop (front (Search.ofPattern pattern).base).length) (by rwa [hpath])
          rwa [hpath] at hcount
      · next hprefix =>
          exact List.count_eq_zero.mpr fun hmem =>
            hprefix (front_prefix_of_mem_follow hnames hmem)

end Glob

end CaplLayout
