import CaplLayout.Proofs.History

/-!
# File systems that differ in bytes

The shape of a tree is the tree with all files empty. Following a path, listing a directory and
searching for a pattern see no more of a tree than its shape, so they come to the same in two file
systems of one shape (`Selection.resolve_congr`); and a file whose bytes are the same in both is
read alike (`openFile_congr`). Writing to a file keeps the shape. So what a run writes has no
bearing on which files its patterns find (`Processor.Processed.shape_eq`).
-/

set_option autoImplicit false

namespace CaplLayout

/-! ## Trees -/

namespace Entry

mutual

/-- The entry with all files empty. -/
def shape : Entry → Entry
  | .file _ => .file []
  | .directory entries => .directory (shapes entries)

/-- The named entries with all files empty. -/
def shapes : List (Text × Entry) → List (Text × Entry)
  | [] => []
  | (n, e) :: r => (n, e.shape) :: shapes r

end

theorem shapes_eq_map (entries : List (Text × Entry)) :
    shapes entries = entries.map fun p => (p.1, p.2.shape) := by
  induction entries with
  | nil => rfl
  | cons p r ih => rw [shapes, ih, List.map_cons]

theorem lookup_shapes (entries : List (Text × Entry)) (n : Text) :
    (shapes entries).lookup n = (entries.lookup n).map shape := by
  induction entries with
  | nil => rfl
  | cons p r ih =>
      rw [shapes, List.lookup_cons, List.lookup_cons, ih]
      cases n == p.1 <;> rfl

theorem child?_shape (e : Entry) (n : Text) : e.shape.child? n = (e.child? n).map shape := by
  cases e with
  | file b => rfl
  | directory entries => exact lookup_shapes entries n

theorem isDirectory_shape (e : Entry) : e.shape.isDirectory = e.isDirectory := by
  cases e <;> rfl

theorem find?_shape (e : Entry) (ns : List Text) : e.shape.find? ns = (e.find? ns).map shape := by
  induction ns generalizing e with
  | nil => rfl
  | cons n r ih =>
      rw [find?, find?, child?_shape]
      cases e.child? n with
      | none => rfl
      | some d => exact ih d

/-- Replacing the bytes of a file keeps the shape of the tree. -/
theorem shape_replace (e : Entry) (bytes : List UInt8) (names : List Text) :
    (e.replace bytes names).shape = e.shape := by
  induction names generalizing e with
  | nil => cases e <;> rfl
  | cons n r ih =>
      cases e with
      | file b => rfl
      | directory entries =>
          rw [replace, shape, shape, shapes_eq_map, shapes_eq_map, List.map_map]
          refine congrArg directory (List.map_congr_left fun p _ => ?_)
          rw [Function.comp_apply]
          split
          · rw [ih]
          · rfl

end Entry

/-! ## Following paths -/

namespace FileSystem

variable (fs : FileSystem) (path : Text)

/-- The place with all files below it empty. -/
def Place.shape (p : Place) : Place := ⟨p.above, p.entry.shape⟩

/-- The file system with all files empty. -/
def shape (fs : FileSystem) : FileSystem := { fs with root := fs.root.shape }

theorem step_shape (root : Entry) (p : Place) (name : Text) :
    step root.shape p.shape name = (step root p name).map Place.shape := by
  unfold step Place.shape
  dsimp only
  rw [Entry.isDirectory_shape, Entry.find?_shape, Entry.child?_shape]
  split_ifs
  · rfl
  · rfl
  · cases root.find? (p.above.drop 1).reverse <;> rfl
  · rfl
  · cases p.entry.child? name <;> rfl

theorem walk_shape (root : Entry) (p : Place) (names : List Text) :
    walk root.shape p.shape names = (walk root p names).map Place.shape := by
  induction names generalizing p with
  | nil => rfl
  | cons n r ih =>
      rw [walk, walk, step_shape]
      cases step root p n with
      | error e => rfl
      | ok q => exact ih q

theorem resolve_shape : fs.shape.resolve path = (fs.resolve path).map Place.shape := by
  unfold resolve shape
  dsimp only
  rw [Entry.find?_shape]
  split_ifs
  all_goals first
    | rfl
    | cases fs.root.find? _ with
      | none => rfl
      | some e => exact walk_shape fs.root ⟨_, e⟩ _

theorem entry?_shape : fs.shape.entry? path = (fs.entry? path).map Entry.shape := by
  unfold entry?
  rw [resolve_shape]
  split
  · rfl
  · cases fs.resolve path <;> rfl

theorem isFile_shape : fs.shape.isFile path = fs.isFile path := by
  unfold isFile
  rw [entry?_shape]
  rcases fs.entry? path with _ | (_ | _) <;> rfl

theorem isDirectory_shape : fs.shape.isDirectory path = fs.isDirectory path := by
  unfold isDirectory
  rw [entry?_shape]
  rcases fs.entry? path with _ | (_ | _) <;> rfl

theorem hasEntry_shape : fs.shape.hasEntry path = fs.hasEntry path := by
  unfold hasEntry
  rw [entry?_shape, Option.isSome_map]

theorem entriesAt_shape : fs.shape.entriesAt path = Entry.shapes (fs.entriesAt path) := by
  unfold entriesAt
  rw [entry?_shape]
  rcases fs.entry? _ with _ | (_ | _) <;> rfl

/-- Where a path leads to a file, and that it does, is told by the shape. -/
theorem openFile_shape :
    (fs.shape.openFile path).map Prod.fst = (fs.openFile path).map Prod.fst := by
  unfold openFile
  rw [resolve_shape]
  split
  · rfl
  · rcases fs.resolve path with e | ⟨above, _ | _⟩ <;> rfl

variable {fs} {path} {gs : FileSystem}

/-- **A file with the same bytes in two file systems of one shape** is read alike in both. -/
theorem openFile_congr (hshape : fs.shape = gs.shape)
    (hbytes : ∀ place bytes, gs.openFile path = .ok (place, bytes) →
      fs.bytesAt place = gs.bytesAt place) :
    fs.openFile path = gs.openFile path := by
  have hplace : (fs.openFile path).map Prod.fst = (gs.openFile path).map Prod.fst := by
    rw [← openFile_shape fs, hshape, openFile_shape gs]
  cases hf : fs.openFile path with
  | error e =>
      cases hg : gs.openFile path with
      | error e' =>
          rw [hf, hg] at hplace
          exact congrArg Except.error (Except.error.inj hplace)
      | ok file =>
          rw [hf, hg] at hplace
          cases hplace
  | ok file =>
      cases hg : gs.openFile path with
      | error e =>
          rw [hf, hg] at hplace
          cases hplace
      | ok file' =>
          rw [hf, hg] at hplace
          obtain ⟨place, bytes⟩ := file
          obtain ⟨place', bytes'⟩ := file'
          obtain rfl : place = place' := Except.ok.inj hplace
          have hsame := hbytes place bytes' hg
          rw [bytesAt_of_openFile hf, bytesAt_of_openFile hg] at hsame
          rw [Option.some.inj hsame]

end FileSystem

/-! ## Searching -/

namespace Glob

mutual

theorem below_shapes (directoriesOnly : Bool) (entries : List (Text × Entry)) :
    below directoriesOnly (Entry.shapes entries) = below directoriesOnly entries := by
  cases entries with
  | nil => rfl
  | cons p r =>
      rw [Entry.shapes, below, below, Entry.isDirectory_shape, belowEntry_shape directoriesOnly p.2,
        below_shapes directoriesOnly r]

theorem belowEntry_shape (directoriesOnly : Bool) (e : Entry) :
    belowEntry directoriesOnly e.shape = belowEntry directoriesOnly e := by
  cases e with
  | file b => rfl
  | directory entries =>
      rw [Entry.shape, belowEntry, belowEntry]
      exact below_shapes directoriesOnly entries

end

variable (fs : FileSystem)

theorem findBelow_shape (directoriesOnly : Bool) (path name : Text) :
    findBelow fs.shape directoriesOnly path name = findBelow fs directoriesOnly path name := by
  have hnames : (Entry.shapes (fs.entriesAt path)
        |>.filter fun e => !directoriesOnly || e.2.isDirectory).map Prod.fst
      = ((fs.entriesAt path).filter fun e => !directoriesOnly || e.2.isDirectory).map Prod.fst := by
    rw [Entry.shapes_eq_map, List.filter_map, List.map_map]
    refine congrArg₂ List.map rfl (List.filter_congr fun e _ => ?_)
    rw [Function.comp_apply, Entry.isDirectory_shape]
  unfold findBelow
  dsimp only
  rw [FileSystem.entriesAt_shape, below_shapes, hnames, FileSystem.isDirectory_shape,
    FileSystem.hasEntry_shape]

theorem follow_shape (names found : List Text) :
    follow fs.shape names found = follow fs names found := by
  induction names generalizing found with
  | nil => rfl
  | cons n r ih =>
      rw [follow, follow, ih]
      simp only [findBelow_shape]

theorem search_shape (pattern : Text) : search fs.shape pattern = search fs pattern := by
  unfold search
  dsimp only
  rw [follow_shape]
  rfl

end Glob

namespace Selection

variable (sel : Selection) (fs : FileSystem) (pattern : String)

theorem resolve_shape : sel.resolve fs.shape pattern = sel.resolve fs pattern := by
  have hadmits : sel.admits fs.shape = sel.admits fs := by
    funext path
    rw [admits, admits, FileSystem.isFile_shape]
  unfold resolve expand
  rw [Glob.search_shape, hadmits]
  rfl

variable {sel} {fs} {pattern} {gs : FileSystem}

/-- **A pattern stands for the same paths** in all file systems of one shape. -/
theorem resolve_congr (h : fs.shape = gs.shape) :
    sel.resolve fs pattern = sel.resolve gs pattern := by
  rw [← resolve_shape sel fs, h, resolve_shape sel gs]

end Selection

/-! ## Processing files -/

namespace Processor

variable {p : Processor} {files : FileSystem} {filename : String} {mark : Mark}
  {result : Except Stop Outcome}

theorem Processed.shape_eq (h : p.Processed files filename mark result) :
    mark.files.shape = files.shape := by
  cases h with
  | written => exact congrArg (fun root => { files with root := root }) (Entry.shape_replace _ _ _)
  | nullCharacter | unreadable | invalid | failed | empty | kept | refused => rfl

/-- A run that does not write leaves all files as they are. -/
theorem Processed.files_eq (h : p.Processed files filename mark result)
    (hwrite : p.run.write = false) : mark.files = files := by
  cases h with
  | written _ _ hnot => simp [hwrite] at hnot
  | nullCharacter | unreadable | invalid | failed | empty | kept | refused => rfl

/-- Processing a file leaves the bytes at all other places as they are. -/
theorem Processed.bytesAt_eq (h : p.Processed files filename mark result) {other : List Text}
    (hother : ∀ bytes, files.openFile (Path.ofString filename).text ≠ .ok (other, bytes)) :
    mark.files.bytesAt other = files.bytesAt other := by
  cases h with
  | @written source out place bytes _ _ _ _ _ hopen =>
      have hne : other ≠ place := by
        rintro rfl
        exact hother bytes hopen
      exact (Entry.bytesAt_replace _ _ _ _).trans (if_neg hne)
  | nullCharacter | unreadable | invalid | failed | empty | kept | refused => rfl

end Processor

end CaplLayout
