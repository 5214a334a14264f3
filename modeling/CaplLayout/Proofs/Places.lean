import CaplLayout.Files.Basic
import Mathlib.Data.List.Basic

/-!
# Where the bytes of files are

A file is told by its *place*, its names from the root. Many paths lead to one place, but the
place of an opened file holds the bytes that have been read (`bytesAt_of_openFile`), and writing to
a path replaces the bytes of one place and no other (`bytesAt_write`).
-/

set_option autoImplicit false

namespace CaplLayout

/-! ## Paths without the null character -/

namespace Path

theorem mem_of_mem_pieces {c : Char} {s piece : Text} (hpiece : piece ∈ pieces s)
    (hc : c ∈ piece) : c ∈ s := by
  have hflat : c ∈ (pieces s).flatten := List.mem_flatten_of_mem hpiece hc
  clear hpiece hc
  induction s with
  | nil => simp [pieces] at hflat
  | cons d r ih =>
      rw [pieces] at hflat
      split at hflat
      · exact List.mem_cons_of_mem _ (ih (by simpa using hflat))
      · cases hr : pieces r with
        | nil =>
            rw [hr] at hflat
            simp [Text.consLine] at hflat
            simp [hflat]
        | cons l ls =>
            rw [hr] at hflat ih
            simp only [Text.consLine, List.flatten_cons, List.cons_append, List.mem_cons] at hflat
            rcases hflat with rfl | h
            · exact List.mem_cons_self
            · exact List.mem_cons_of_mem _ (ih h)

theorem mem_of_mem_joinNames {c : Char} {ns : List Text} (h : c ∈ joinNames ns) :
    c = '/' ∨ ∃ n ∈ ns, c ∈ n := by
  fun_induction joinNames ns with
  | case1 => cases h
  | case2 n => exact Or.inr ⟨n, List.mem_singleton_self n, h⟩
  | case3 n m r ih =>
      rcases List.mem_append.mp h with h | h
      · exact Or.inr ⟨n, List.mem_cons_self, h⟩
      rcases List.mem_cons.mp h with h | h
      · exact Or.inl h
      rcases ih h with h | ⟨k, hk, hc⟩
      · exact Or.inl h
      · exact Or.inr ⟨k, List.mem_cons_of_mem _ hk, hc⟩

theorem mem_of_mem_rootOf {c : Char} {s : Text} (h : c ∈ rootOf s) : c = '/' := by
  unfold rootOf at h
  split at h <;> simp_all

/-- Reading a path brings no characters into it but slashes and points. -/
theorem mem_of_mem_text {c : Char} {s : String} (h : c ∈ (ofString s).text) :
    c = '/' ∨ c = '.' ∨ c ∈ s.toList := by
  unfold text at h
  split at h
  · exact Or.inr (Or.inl (List.mem_singleton.mp h))
  rcases List.mem_append.mp h with h | h
  · exact Or.inl (mem_of_mem_rootOf h)
  rcases mem_of_mem_joinNames h with h | ⟨n, hn, hc⟩
  · exact Or.inl h
  · exact Or.inr (Or.inr (mem_of_mem_pieces (List.mem_of_mem_filter hn) hc))

theorem exists_mem_pieces {c : Char} {s : Text} (hc : c ∈ s) (hslash : c ≠ '/') :
    ∃ piece ∈ pieces s, c ∈ piece := by
  induction s with
  | nil => cases hc
  | cons d r ih =>
      rw [pieces]
      rcases List.mem_cons.mp hc with rfl | hr
      · rw [if_neg hslash]
        cases pieces r with
        | nil => exact ⟨[c], List.mem_cons_self, List.mem_cons_self⟩
        | cons l ls => exact ⟨c :: l, List.mem_cons_self, List.mem_cons_self⟩
      · obtain ⟨piece, hpiece, hmem⟩ := ih hr
        split
        · exact ⟨piece, List.mem_cons_of_mem _ hpiece, hmem⟩
        · cases hpieces : pieces r with
          | nil =>
              rw [hpieces] at hpiece
              cases hpiece
          | cons l ls =>
              rw [hpieces] at hpiece
              rcases List.mem_cons.mp hpiece with rfl | hls
              · exact ⟨d :: piece, List.mem_cons_self, List.mem_cons_of_mem _ hmem⟩
              · exact ⟨piece, List.mem_cons_of_mem _ hls, hmem⟩

theorem mem_joinNames {c : Char} {ns : List Text} {n : Text} (hn : n ∈ ns) (hc : c ∈ n) :
    c ∈ joinNames ns := by
  fun_induction joinNames ns with
  | case1 => cases hn
  | case2 m =>
      rw [List.mem_singleton] at hn
      rwa [← hn]
  | case3 k m r ih =>
      rcases List.mem_cons.mp hn with rfl | hn
      · exact List.mem_append_left _ hc
      · exact List.mem_append_right _ (List.mem_cons_of_mem _ (ih hn))

/-- Reading a path drops no characters but slashes and points. -/
theorem mem_text {c : Char} {s : String} (hc : c ∈ s.toList) (hslash : c ≠ '/') (hpoint : c ≠ '.') :
    c ∈ (ofString s).text := by
  obtain ⟨piece, hpiece, hmem⟩ := exists_mem_pieces hc hslash
  have hvoid : isVoid piece = false := by
    rw [isVoid, Bool.or_eq_false_iff, beq_eq_false_iff_ne, beq_eq_false_iff_ne]
    constructor
    · rintro rfl
      cases hmem
    · rintro rfl
      exact hpoint (List.mem_singleton.mp hmem)
  have hnames : piece ∈ (ofString s).names :=
    List.mem_filter.mpr ⟨hpiece, by rw [hvoid]; rfl⟩
  have hsome : ¬ ((ofString s).root = [] ∧ (ofString s).names = []) := by
    rintro ⟨-, hnil⟩
    rw [hnil] at hnames
    cases hnames
  rw [text, if_neg hsome]
  exact List.mem_append_right _ (mem_joinNames hnames hmem)

theorem null_mem_text_iff {s : String} :
    FileSystem.null ∈ (ofString s).text ↔ FileSystem.null ∈ s.toList := by
  constructor
  · intro hmem
    rcases mem_of_mem_text hmem with h | h | h
    · exact absurd h (by decide)
    · exact absurd h (by decide)
    · exact h
  · exact fun h => mem_text h (by decide) (by decide)

theorem null_not_mem_text {s : String} (h : FileSystem.null ∉ s.toList) :
    FileSystem.null ∉ (ofString s).text := mt null_mem_text_iff.mp h

end Path

/-! ## Entries -/

namespace Entry

/-- The bytes of a file. -/
def bytes? : Entry → Option (List UInt8)
  | .file bytes => some bytes
  | .directory _ => none

/-- The bytes of the file that names lead to, if they lead to one. -/
def bytesAt (e : Entry) (names : List Text) : Option (List UInt8) := (e.find? names).bind bytes?

theorem find?_append (e : Entry) (a b : List Text) :
    e.find? (a ++ b) = (e.find? a).bind fun d => d.find? b := by
  induction a generalizing e with
  | nil => rfl
  | cons n r ih =>
      rw [List.cons_append, find?, find?]
      cases e.child? n with
      | none => rfl
      | some d => exact ih d

theorem bytesAt_cons (e : Entry) (n : Text) (r : List Text) :
    e.bytesAt (n :: r) = (e.child? n).bind fun d => d.bytesAt r := by
  rw [bytesAt, find?]
  cases e.child? n <;> rfl

theorem lookup_map_ite {α β : Type} [BEq α] [LawfulBEq α] [DecidableEq α] (f : β → β) (n m : α)
    (l : List (α × β)) :
    (l.map fun p => if p.1 = n then (p.1, f p.2) else p).lookup m
      = if m = n then (l.lookup m).map f else l.lookup m := by
  induction l with
  | nil => simp
  | cons p l ih =>
      obtain ⟨k, v⟩ := p
      rw [List.map_cons]
      by_cases hk : k = n
      · rw [if_pos hk]
        by_cases hm : m = k
        · rw [if_pos (hm.trans hk)]
          simp [hm]
        · simpa [List.lookup_cons, beq_false_of_ne hm] using ih
      · rw [if_neg hk]
        by_cases hm : m = k
        · rw [if_neg fun h => hk (hm.symm.trans h)]
          simp [hm]
        · simpa [List.lookup_cons, beq_false_of_ne hm] using ih

/-- **Replacing the bytes at one place** changes them there, if a file is there, and nowhere
else. -/
theorem bytesAt_replace (e : Entry) (bytes : List UInt8) (names other : List Text) :
    (e.replace bytes names).bytesAt other
      = if other = names then (e.bytesAt names).map fun _ => bytes else e.bytesAt other := by
  induction names generalizing e other with
  | nil =>
      cases e with
      | directory entries => cases other <;> rfl
      | file b => cases other <;> rfl
  | cons n r ih =>
      cases e with
      | file b =>
          rw [replace]
          split
          · next h => rw [h]; rfl
          · rfl
      | directory entries =>
          cases other with
          | nil => rfl
          | cons m t =>
              have hchild : (replace bytes (n :: r) (.directory entries)).child? m
                  = if m = n then (entries.lookup m).map (replace bytes r)
                    else entries.lookup m := by
                rw [replace]
                exact lookup_map_ite _ _ _ _
              rw [bytesAt_cons, hchild, bytesAt_cons, bytesAt_cons]
              by_cases hm : m = n
              · subst hm
                rw [if_pos rfl, child?]
                cases entries.lookup m with
                | none => simp
                | some d => simpa using ih d t
              · rw [if_neg hm, if_neg fun h => hm (List.cons.inj h).1]
                rfl

end Entry

namespace FileSystem

variable {fs : FileSystem} {path : Text}

/-! ## Walks -/

/-- The names of a place lead to its entry. -/
def Place.InTree (root : Entry) (p : Place) : Prop := root.find? p.names = some p.entry

theorem inTree_step {root : Entry} {p q : Place} {name : Text} (hp : p.InTree root)
    (h : step root p name = .ok q) : q.InTree root := by
  unfold step at h
  split at h
  · cases h
  split at h
  · cases h
    exact hp
  split at h
  · dsimp only at h
    split at h
    · next hfind =>
        cases h
        exact hfind
    · cases h
  split at h
  · cases h
  split at h
  · next hchild =>
      cases h
      unfold Place.InTree Place.names at hp ⊢
      rw [List.reverse_cons, Entry.find?_append, hp]
      simp [Entry.find?, hchild]
  · cases h

theorem inTree_walk {root : Entry} {p q : Place} {names : List Text} (hp : p.InTree root)
    (h : walk root p names = .ok q) : q.InTree root := by
  induction names generalizing p with
  | nil =>
      cases h
      exact hp
  | cons n r ih =>
      rw [walk] at h
      cases hstep : step root p n with
      | error e =>
          rw [hstep] at h
          cases h
      | ok next =>
          rw [hstep] at h
          exact ih (inTree_step hp hstep) h

theorem inTree_resolve {p : Place} (h : fs.resolve path = .ok p) : p.InTree fs.root := by
  unfold resolve at h
  split at h
  · cases h
  split at h
  · cases h
  dsimp only at h
  split at h
  · next e hfind => exact inTree_walk (p := ⟨_, e⟩) hfind h
  · cases h

/-! ## Files -/

/-- The bytes of the file at a place, if there is one. -/
def bytesAt (fs : FileSystem) (place : List Text) : Option (List UInt8) := fs.root.bytesAt place

/-- **The place of an opened file** holds its bytes. -/
theorem bytesAt_of_openFile {place : List Text} {bytes : List UInt8}
    (h : fs.openFile path = .ok (place, bytes)) : fs.bytesAt place = some bytes := by
  unfold openFile at h
  split at h
  · cases h
  split at h
  · cases h
  next p hresolve =>
    have htree := inTree_resolve hresolve
    split at h
    · next hentry =>
        cases h
        rw [bytesAt, Entry.bytesAt, htree, hentry]
        rfl
    · cases h

/-- Only a path with a null character keeps the operating system from being asked. -/
theorem null_mem_of_openFile (h : fs.openFile path = .error .nullCharacter) : null ∈ path := by
  unfold openFile at h
  split at h
  · next hnull => simpa using hnull
  split at h
  · cases h
  split at h <;> cases h

/-- What writing to a path comes to. -/
theorem write_cases (bytes : List UInt8) {place : List Text} {old : List UInt8}
    (h : fs.openFile path = .ok (place, old)) :
    (fs.write path bytes = .error (.system .denied path) ∧ path ∈ fs.closed)
      ∨ (fs.write path bytes = .ok { fs with root := fs.root.replace bytes place }
          ∧ path ∉ fs.closed) := by
  rw [write, h]
  by_cases hc : path ∈ fs.closed
  · exact Or.inl ⟨if_pos (by simpa using hc), hc⟩
  · exact Or.inr ⟨if_neg (by simpa using hc), hc⟩

/-- **Writing replaces the bytes of one place** and no others. -/
theorem bytesAt_write {bytes old : List UInt8} {place : List Text} {files : FileSystem}
    (hopen : fs.openFile path = .ok (place, old)) (h : fs.write path bytes = .ok files) :
    files.bytesAt place = some bytes
      ∧ ∀ other, other ≠ place → files.bytesAt other = fs.bytesAt other := by
  rcases write_cases bytes hopen with ⟨hwrite, -⟩ | ⟨hwrite, -⟩
  · rw [hwrite] at h
    cases h
  · rw [hwrite] at h
    cases h
    have hold : fs.root.bytesAt place = some old := bytesAt_of_openFile hopen
    constructor
    · rw [bytesAt, Entry.bytesAt_replace, if_pos rfl, hold]
      rfl
    · intro other hother
      exact (Entry.bytesAt_replace _ _ _ _).trans (if_neg hother)

/-- The file system with nothing but one file, in its root. -/
def single (name source : Text) : FileSystem :=
  { root := .directory [(name, .file (Utf8.encode source))], cwd := [] }

/-- The operating system can be asked about the path of a file. -/
theorem null_not_mem_of_isFile (h : fs.isFile path = true) :
    null ∉ path := by
  intro hnull
  unfold isFile entry? at h
  rw [if_pos (by simpa using hnull)] at h
  cases h

end FileSystem

end CaplLayout
