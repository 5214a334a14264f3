import CaplLayout.Proofs.Configuration
import CaplLayout.Proofs.Encoding

/-!
# How the names of a section are spelled

The name of an option may be written with dashes or with underscores. So a section that is written
with other spellings of its names sets the same, as long as no two of its names are spellings of one
option. There is one exception: the directory names that are passed over are looked for under the
spelling `ignore_dirs` alone, before the names are unified, and under any other spelling they are an
option like the others. A respelled section sets the same exactly if that name is spelled out in
both or in none (`load_respelled_iff`).

What loading does with the names it does under any injective renaming (`putAll_rename`), and the
respelled names are unified to the same options.
-/

set_option autoImplicit false

namespace CaplLayout

/-! ## Renaming -/

namespace Options

variable {f : String → String} {o further : Options} {name : String}

/-- The names of options. -/
def names (o : Options) : List String := o.map Prod.fst

/-- The options under other names. -/
def rename (f : String → String) (o : Options) : Options := o.map fun e => (f e.1, e.2)

/-- No two of the names are renamed alike. -/
def Apart (f : String → String) (names : List String) : Prop :=
  ∀ a ∈ names, ∀ b ∈ names, f a = f b → a = b

theorem names_rename : (o.rename f).names = o.names.map f := by
  simp [names, rename, Function.comp_def]

theorem rename_rename (g : String → String) :
    (o.rename f).rename g = o.rename fun n => g (f n) := by
  simp [rename, Function.comp_def]

theorem rename_congr {g : String → String} (h : ∀ n ∈ o.names, f n = g n) :
    o.rename f = o.rename g := by
  refine List.map_congr_left fun e he => ?_
  rw [h e.1 (List.mem_map_of_mem he)]

theorem mem_names_put {v : Value} {n : String} :
    n ∈ (o.put name v).names ↔ n = name ∨ n ∈ o.names := by
  induction o with
  | nil => simp [put, Keyed.put, names]
  | cons e r ih =>
      obtain ⟨k, w⟩ := e
      unfold put Keyed.put
      split
      · next hk => simp [names, hk]
      · have hr : n ∈ Options.names (Keyed.put r name v) ↔ n = name ∨ n ∈ names r := ih
        simp only [names, List.map_cons, List.mem_cons] at hr ⊢
        rw [hr]
        tauto

theorem mem_names_putAll {n : String} :
    n ∈ (o.putAll further).names ↔ n ∈ o.names ∨ n ∈ further.names := by
  induction further generalizing o with
  | nil => simp [putAll, names]
  | cons e r ih =>
      have hput : o.putAll (e :: r) = (o.put e.1 e.2).putAll r := rfl
      rw [hput, ih, mem_names_put]
      simp only [names, List.map_cons, List.mem_cons]
      tauto

theorem mem_names_putAll_nil {n : String} : n ∈ (putAll [] o).names ↔ n ∈ o.names := by
  rw [mem_names_putAll]
  simp [names]

theorem put_rename {v : Value} (h : ∀ k ∈ o.names, f k = f name → k = name) :
    (o.rename f).put (f name) v = (o.put name v).rename f := by
  induction o with
  | nil => rfl
  | cons e r ih =>
      obtain ⟨k, w⟩ := e
      have hr : put (rename f r) (f name) v = rename f (put r name v) :=
        ih fun n hn => h n (List.mem_cons_of_mem k hn)
      have hk : f k = f name ↔ k = name := ⟨h k List.mem_cons_self, congrArg f⟩
      show Keyed.put ((f k, w) :: rename f r) (f name) v = rename f (Keyed.put ((k, w) :: r) name v)
      unfold Keyed.put
      by_cases heq : k = name
      · rw [if_pos heq, if_pos (hk.mpr heq)]
        rfl
      · rw [if_neg heq, if_neg (mt hk.mp heq)]
        exact congrArg ((f k, w) :: ·) hr

/-- **Putting values in** comes to the same under other names that are apart. -/
theorem putAll_rename (h : Apart f (o.names ++ further.names)) :
    (o.rename f).putAll (further.rename f) = (o.putAll further).rename f := by
  induction further generalizing o with
  | nil => rfl
  | cons e r ih =>
      have hmem : e.1 ∈ o.names ++ names (e :: r) := by simp [names]
      have hput : (o.rename f).put (f e.1) e.2 = (o.put e.1 e.2).rename f :=
        put_rename fun k hk => h k (List.mem_append_left _ hk) e.1 hmem
      have hsub : ∀ n ∈ (o.put e.1 e.2).names ++ names r, n ∈ o.names ++ names (e :: r) := by
        intro n hn
        rw [List.mem_append, mem_names_put] at hn
        simp only [names, List.map_cons, List.mem_append, List.mem_cons] at hn ⊢
        tauto
      calc (o.rename f).putAll (rename f (e :: r))
          = ((o.rename f).put (f e.1) e.2).putAll (rename f r) := rfl
        _ = ((o.put e.1 e.2).rename f).putAll (rename f r) := by rw [hput]
        _ = ((o.put e.1 e.2).putAll r).rename f :=
          ih fun a ha b hb => h a (hsub a ha) b (hsub b hb)

theorem get?_rename (h : ∀ k ∈ o.names, f k = f name → k = name) :
    (o.rename f).get? (f name) = o.get? name := by
  induction o with
  | nil => rfl
  | cons e r ih =>
      obtain ⟨k, w⟩ := e
      have hr := ih fun n hn => h n (List.mem_cons_of_mem k hn)
      have hk : f k = f name ↔ k = name := ⟨h k List.mem_cons_self, congrArg f⟩
      unfold get? rename at hr ⊢
      rw [List.map_cons, List.lookup_cons, List.lookup_cons, hr]
      by_cases heq : name = k
      · simp [heq]
      · rw [beq_false_of_ne heq, beq_false_of_ne fun h => heq (hk.mp h.symm).symm]

theorem without_rename (h : ∀ k ∈ o.names, f k = f name → k = name) :
    (o.rename f).without (f name) = (o.without name).rename f := by
  unfold without rename
  rw [List.filter_map]
  refine congrArg (List.map _) (List.filter_congr fun e he => ?_)
  have hk : f e.1 = f name ↔ e.1 = name := ⟨h e.1 (List.mem_map_of_mem he), congrArg f⟩
  simp [bne, hk]

theorem get?_eq_none (h : name ∉ o.names) : o.get? name = none := by
  refine List.lookup_eq_none_iff.mpr fun e he => ?_
  have hne : name ≠ e.1 := by
    rintro rfl
    exact h (List.mem_map_of_mem he)
  simp [hne]

theorem without_eq_self (h : name ∉ o.names) : o.without name = o := by
  refine List.filter_eq_self.mpr fun e he => ?_
  have hne : e.1 ≠ name := by
    rintro rfl
    exact h (List.mem_map_of_mem he)
  simp [hne]

theorem mem_names_without {n : String} : n ∈ (o.without name).names ↔ n ∈ o.names ∧ n ≠ name := by
  simp only [names, without, List.mem_map, List.mem_filter, bne_iff_ne]
  constructor
  · rintro ⟨e, ⟨he, hne⟩, rfl⟩
    exact ⟨⟨e, he, rfl⟩, hne⟩
  · rintro ⟨⟨e, he, rfl⟩, hne⟩
    exact ⟨e, ⟨he, hne⟩, rfl⟩

end Options

namespace Config

open Options

variable {path : Text} {entries : Options} {f : String → String}

/-! ## Sections of texts -/

/-- The pairs of a section that names its values by texts. -/
def textSection (entries : Options) : List (Value × Value) :=
  entries.map fun e => (.str e.1, e.2)

/-- The name under which a section gives the directory names. -/
def dirsName : String := "ignore_dirs"

theorem optionName_dirsName : optionName dirsName = dirsName := by decide

/-- The options that named values set. -/
def optionsOf (values : Options) : Options :=
  Options.putAll [] ((values.without dirsName).rename optionName)

theorem textPairs_textSection (entries : Options) : textPairs (textSection entries) = entries := by
  unfold textPairs textSection
  rw [List.filterMap_map]
  exact List.filterMap_some

theorem ofSection_textSection (path : Text) (entries : Options) :
    ofSection path (textSection entries)
      = (dirsOf path (Options.putAll [] entries)).map fun dirs =>
          ⟨optionsOf (Options.putAll [] entries), dirs, some path⟩ := by
  rw [ofSection_eq, textPairs_textSection]
  have hforeign : foreignName? (textSection entries) = none := foreignName?_str entries
  rw [hforeign]
  cases dirsOf path (Options.putAll [] entries) <;> rfl

/-- The directory names are given under their own name, or are an option under another spelling of
it, or neither; never both. -/
theorem mem_names_optionsOf (h : Apart optionName entries.names) :
    dirsName ∈ (optionsOf (Options.putAll [] entries)).names
      ↔ dirsName ∉ entries.names ∧ ∃ n ∈ entries.names, optionName n = dirsName := by
  have hoptions : dirsName ∈ (optionsOf (Options.putAll [] entries)).names
      ↔ ∃ n ∈ entries.names, n ≠ dirsName ∧ optionName n = dirsName := by
    unfold optionsOf
    rw [mem_names_putAll, names_rename, List.mem_map]
    simp only [mem_names_without, mem_names_putAll_nil]
    simp [names, and_assoc]
  rw [hoptions]
  constructor
  · rintro ⟨n, hn, hne, hspelled⟩
    refine ⟨fun hdirs => hne ?_, n, hn, hspelled⟩
    exact h n hn dirsName hdirs (hspelled.trans optionName_dirsName.symm)
  · rintro ⟨hdirs, n, hn, hspelled⟩
    refine ⟨n, hn, ?_, hspelled⟩
    rintro rfl
    exact hdirs hn

/-- Two results of loading are alike. -/
inductive Alike : Except ConfigError Config → Except ConfigError Config → Prop
  /-- They set the same. -/
  | set {c d : Config} : c.options = d.options → c.ignoreDirs = d.ignoreDirs → Alike (.ok c) (.ok d)
  /-- Both are errors that are expected. -/
  | refused {e e' : ConfigError} : e.isReported = true → e'.isReported = true →
      Alike (.error e) (.error e')

theorem Alike.symm {r r' : Except ConfigError Config} (h : Alike r r') : Alike r' r := by
  cases h with
  | set hoptions hdirs => exact .set hoptions.symm hdirs.symm
  | refused he he' => exact .refused he' he

theorem alike_self_of_textSection (path : Text) (entries : Options) :
    Alike (ofSection path (textSection entries)) (ofSection path (textSection entries)) := by
  rw [ofSection_textSection]
  rcases dirsOf_cases path (Options.putAll [] entries) with ⟨-, names, hok⟩ | ⟨-, herror⟩
  · rw [hok]
    exact .set rfl rfl
  · rw [herror]
    exact .refused rfl rfl

/-- Where the directory names are not given under their own name, there are those of the default. -/
theorem dirsOf_of_not_mem (h : dirsName ∉ entries.names) :
    dirsOf path (Options.putAll [] entries) = .ok defaultDependencyDirs := by
  have hvalues : dirsName ∉ (Options.putAll [] entries).names := mt mem_names_putAll_nil.mp h
  have hnone : (Options.putAll [] entries).get? "ignore_dirs" = none := get?_eq_none hvalues
  unfold dirsOf
  rw [hnone]

/-- If one of two sections gives the directory names under their own name and the other one under
another spelling, they are not alike: only with the other one they are an option. -/
theorem not_alike_of_spelled {a b : Options} (ha : Apart optionName a.names)
    (hb : Apart optionName b.names) (hmem : dirsName ∈ a.names) (hnot : dirsName ∉ b.names)
    (hspelled : ∃ n ∈ b.names, optionName n = dirsName) :
    ¬ Alike (ofSection path (textSection a)) (ofSection path (textSection b)) := by
  have hin : dirsName ∈ (optionsOf (Options.putAll [] b)).names :=
    (mem_names_optionsOf hb).mpr ⟨hnot, hspelled⟩
  have hout : dirsName ∉ (optionsOf (Options.putAll [] a)).names :=
    fun h => ((mem_names_optionsOf ha).mp h).1 hmem
  rw [ofSection_textSection path a, ofSection_textSection path b, dirsOf_of_not_mem hnot]
  intro h
  cases hdirs : dirsOf path (Options.putAll [] a) with
  | error e =>
      rw [hdirs] at h
      cases h
  | ok dirs =>
      rw [hdirs] at h
      cases h with
      | set hoptions =>
          apply hout
          rw [show optionsOf (Options.putAll [] a) = _ from hoptions]
          exact hin

/-! ## Respelled sections -/

/-- Names are respelled: as options they are the same. -/
def Respells (f : String → String) (names : List String) : Prop :=
  ∀ n ∈ names, optionName (f n) = optionName n

section

variable (hf : Respells f entries.names) (hapart : Apart optionName entries.names)
include hf hapart

/-- Names that are apart as options stay apart when they are respelled. -/
theorem Respells.apart : Apart f entries.names :=
  fun a ha b hb h => hapart a ha b hb (by rw [← hf a ha, ← hf b hb, h])

theorem Respells.apart_rename : Apart optionName (entries.rename f).names := by
  rw [names_rename]
  intro a ha b hb h
  obtain ⟨n, hn, rfl⟩ := List.mem_map.mp ha
  obtain ⟨m, hm, rfl⟩ := List.mem_map.mp hb
  rw [hf n hn, hf m hm] at h
  rw [hapart n hn m hm h]

/-- Where the spelling of the directory names is kept, they are found and left out as before. -/
theorem Respells.get?_and_without
    (hsame : dirsName ∈ entries.names ↔ dirsName ∈ (entries.rename f).names) :
    ((Options.putAll [] entries).rename f).get? dirsName
        = (Options.putAll [] entries).get? dirsName
      ∧ ((Options.putAll [] entries).rename f).without dirsName
        = ((Options.putAll [] entries).without dirsName).rename f := by
  have hinj := hf.apart hapart
  rw [names_rename, List.mem_map] at hsame
  by_cases hmem : dirsName ∈ entries.names
  · -- the only name that can be respelled to that of the directory names is this name itself
    obtain ⟨n, hn, hfn⟩ := hsame.mp hmem
    have hself : f dirsName = dirsName := by
      have hn' : n = dirsName := by
        apply hapart n hn dirsName hmem
        rw [← hf n hn, hfn]
      rwa [hn'] at hfn
    have honly : ∀ k ∈ (Options.putAll [] entries).names, f k = f dirsName → k = dirsName :=
      fun k hk => hinj k (mem_names_putAll_nil.mp hk) dirsName hmem
    have hget := get?_rename honly
    have hwithout := without_rename honly
    rw [hself] at hget hwithout
    exact ⟨hget, hwithout⟩
  · have hmem' : dirsName ∉ ((Options.putAll [] entries).rename f).names := by
      rw [names_rename, List.mem_map]
      rintro ⟨n, hn, hfn⟩
      exact hmem (hsame.mpr ⟨n, mem_names_putAll_nil.mp hn, hfn⟩)
    have hmem : dirsName ∉ (Options.putAll [] entries).names := mt mem_names_putAll_nil.mp hmem
    rw [get?_eq_none hmem, get?_eq_none hmem', without_eq_self hmem, without_eq_self hmem']
    exact ⟨rfl, rfl⟩

/-- A respelled section that keeps the spelling of the directory names sets the same. -/
theorem Respells.ofSection_rename
    (hsame : dirsName ∈ entries.names ↔ dirsName ∈ (entries.rename f).names) :
    ofSection path (textSection (entries.rename f)) = ofSection path (textSection entries) := by
  obtain ⟨hget, hwithout⟩ := hf.get?_and_without hapart hsame
  have hvalues : Options.putAll [] (entries.rename f) = (Options.putAll [] entries).rename f :=
    putAll_rename (o := []) (hf.apart hapart)
  have hdirs : dirsOf path ((Options.putAll [] entries).rename f)
      = dirsOf path (Options.putAll [] entries) := by
    unfold dirsOf
    rw [show Options.get? (Options.rename f _) "ignore_dirs" = _ from hget]
    rfl
  have hoptions : optionsOf ((Options.putAll [] entries).rename f)
      = optionsOf (Options.putAll [] entries) := by
    unfold optionsOf
    rw [hwithout, rename_rename]
    refine congrArg (Options.putAll []) (rename_congr fun n hn => hf n ?_)
    exact mem_names_putAll_nil.mp (mem_names_without.mp hn).1
  rw [ofSection_textSection, ofSection_textSection, hvalues, hdirs, hoptions]

/-- **Respelled sections are alike** exactly if the directory names are given under their own name
in both or in none. -/
theorem Respells.alike_iff :
    Alike (ofSection path (textSection entries)) (ofSection path (textSection (entries.rename f)))
      ↔ (dirsName ∈ entries.names ↔ dirsName ∈ (entries.rename f).names) := by
  constructor
  · intro h
    have hapart' := hf.apart_rename hapart
    -- a name that is respelled to or from that of the directory names is another spelling of it
    constructor
    · intro hmem
      by_contra hnot
      have hspelled : ∃ n ∈ (entries.rename f).names, optionName n = dirsName := by
        rw [names_rename]
        refine ⟨f dirsName, List.mem_map_of_mem hmem, ?_⟩
        rw [hf dirsName hmem, optionName_dirsName]
      exact not_alike_of_spelled hapart hapart' hmem hnot hspelled h
    · intro hmem
      by_contra hnot
      obtain ⟨n, hn, hfn⟩ := List.mem_map.mp (names_rename ▸ hmem)
      have hspelled : optionName n = dirsName := by
        rw [← hf n hn, hfn, optionName_dirsName]
      exact not_alike_of_spelled hapart' hapart hmem hnot ⟨n, hn, hspelled⟩ h.symm
  · intro hsame
    rw [hf.ofSection_rename hapart hsame]
    exact alike_self_of_textSection path entries

end

/-! ## Respelled files -/

/-- The file at a path holds a document. -/
def HoldsAt (fs : FileSystem) (path : String) (document : Options) : Prop :=
  isThere fs (Path.ofString path).text = .ok true
    ∧ ∃ bytes text, fs.read (Path.ofString path).text = .ok bytes ∧ Utf8.decode bytes = .ok text
      ∧ Toml.read text.unifyPairs = .ok document

theorem HoldsAt.load_eq {fs : FileSystem} {path : String} {document : Options}
    (h : HoldsAt fs path document) :
    load fs (some path)
      = sectionOf (Path.ofString path).lastName document
        >>= ofSection (Path.ofString path).text := by
  obtain ⟨hthere, bytes, text, hread, hdecode, hdocument⟩ := h
  rw [load_of_isThere hthere]
  unfold read
  rw [hread]
  show (Utf8.decode bytes).mapError ConfigError.encoding >>= _ = _
  rw [hdecode]
  show (Toml.read text.unifyPairs).mapError _ >>= _ = _
  rw [hdocument]
  rfl

/-- The only file of a file system holds the document that is read from its text. -/
theorem holdsAt_single {path : String} {source : Text} {document : Options}
    (hdocument : Toml.read source.unifyPairs = .ok document)
    (hthere : ∀ s, isThere (FileSystem.single path.toList s) (Path.ofString path).text = .ok true)
    (hread : ∀ s, (FileSystem.single path.toList s).read (Path.ofString path).text
      = .ok (Utf8.encode s)) :
    HoldsAt (FileSystem.single path.toList source) path document :=
  ⟨hthere source, Utf8.encode source, source, hread source, Utf8.decode_encode source, hdocument⟩

/-- **When respelling the names of a section changes nothing.** Two files hold documents whose
sections, at the top or in a table of their own, have the same values under respelled names, of
which no two are spellings of one option. Loading them sets the same options and the same directory
names, or fails in the same expected way, exactly if the directory names are given under
`ignore_dirs` in both or in none. -/
theorem load_respelled_iff {fs gs : FileSystem} {path : String} {f : String → String}
    {document document' entries : Options}
    (hfs : HoldsAt fs path document) (hgs : HoldsAt gs path document')
    (hsection : sectionOf (Path.ofString path).lastName document = .ok (textSection entries))
    (hrespelled : sectionOf (Path.ofString path).lastName document'
      = .ok (textSection (entries.rename f)))
    (hf : Respells f entries.names) (hapart : Apart optionName entries.names) :
    Alike (load fs (some path)) (load gs (some path))
      ↔ ("ignore_dirs" ∈ entries.names ↔ "ignore_dirs" ∈ (entries.rename f).names) := by
  rw [hfs.load_eq, hgs.load_eq, hsection, hrespelled]
  exact hf.alike_iff hapart

/-- With underscores for all dashes, a project file sets the same. -/
theorem load_respelled_iff_tabs :
    ∃ (fs gs : FileSystem) (document document' entries : Options),
      HoldsAt fs "pyproject.toml" document ∧ HoldsAt gs "pyproject.toml" document'
      ∧ sectionOf (Path.ofString "pyproject.toml").lastName document = .ok (textSection entries)
      ∧ sectionOf (Path.ofString "pyproject.toml").lastName document'
        = .ok (textSection (entries.rename optionName))
      ∧ Respells optionName entries.names ∧ Apart optionName entries.names
      ∧ entries.names = ["use-tabs", "ignore_dirs"]
      ∧ Alike (load fs (some "pyproject.toml")) (load gs (some "pyproject.toml")) := by
  have hdashes : Toml.read (Text.unifyPairs
        "[tool.capl-format]\nuse-tabs = true\nignore_dirs = [\"vendor\"]\n".toList)
      = .ok [("tool", .table [("capl-format",
          .table [("use-tabs", .bool true), ("ignore_dirs", .array [.str "vendor"])])])] := by
    decide +kernel
  have hunderscores : Toml.read (Text.unifyPairs
        "[tool.capl-format]\nuse_tabs = true\nignore_dirs = [\"vendor\"]\n".toList)
      = .ok [("tool", .table [("capl-format",
          .table [("use_tabs", .bool true), ("ignore_dirs", .array [.str "vendor"])])])] := by
    decide +kernel
  have hfs : HoldsAt _ "pyproject.toml" _ := holdsAt_single hdashes (fun _ => rfl) fun _ => rfl
  have hgs : HoldsAt _ "pyproject.toml" _ := holdsAt_single hunderscores (fun _ => rfl) fun _ => rfl
  have hf : Respells optionName ["use-tabs", "ignore_dirs"] := by
    simp only [Respells]
    decide
  have hapart : Apart optionName ["use-tabs", "ignore_dirs"] := by
    simp only [Apart]
    decide
  have hsection : sectionOf (Path.ofString "pyproject.toml").lastName
        [("tool", .table [("capl-format",
          .table [("use-tabs", .bool true), ("ignore_dirs", .array [.str "vendor"])])])]
      = .ok (textSection [("use-tabs", .bool true), ("ignore_dirs", .array [.str "vendor"])]) := by
    rfl
  have hrespelled : sectionOf (Path.ofString "pyproject.toml").lastName
        [("tool", .table [("capl-format",
          .table [("use_tabs", .bool true), ("ignore_dirs", .array [.str "vendor"])])])]
      = .ok (textSection (rename optionName
          [("use-tabs", .bool true), ("ignore_dirs", .array [.str "vendor"])])) := by
    rfl
  refine ⟨_, _, _, _, _, hfs, hgs, hsection, hrespelled, hf, hapart, rfl, ?_⟩
  exact (load_respelled_iff hfs hgs hsection hrespelled hf hapart).mpr (by decide)

/-- The directory names in another spelling are an option, and no directory is passed over for
them. -/
theorem exists_respelled_not_alike :
    ∃ (fs gs : FileSystem) (document document' entries : Options) (f : String → String),
      HoldsAt fs "x.toml" document ∧ HoldsAt gs "x.toml" document'
      ∧ sectionOf (Path.ofString "x.toml").lastName document = .ok (textSection entries)
      ∧ sectionOf (Path.ofString "x.toml").lastName document' = .ok (textSection (entries.rename f))
      ∧ Respells f entries.names ∧ Apart optionName entries.names
      ∧ ¬ Alike (load fs (some "x.toml")) (load gs (some "x.toml")) := by
  have hunderscore : Toml.read (Text.unifyPairs "ignore_dirs = [\"vendor\"]\n".toList)
      = .ok [("ignore_dirs", .array [.str "vendor"])] := by decide +kernel
  have hdash : Toml.read (Text.unifyPairs "ignore-dirs = [\"vendor\"]\n".toList)
      = .ok [("ignore-dirs", .array [.str "vendor"])] := by decide +kernel
  have hfs : HoldsAt _ "x.toml" _ := holdsAt_single hunderscore (fun _ => rfl) fun _ => rfl
  have hgs : HoldsAt _ "x.toml" _ := holdsAt_single hdash (fun _ => rfl) fun _ => rfl
  refine ⟨_, _, _, _, [("ignore_dirs", .array [.str "vendor"])], fun _ => "ignore-dirs",
    hfs, hgs, rfl, rfl, ?_, ?_, ?_⟩
  · simp only [Respells]
    decide
  · simp only [Apart]
    decide
  · rw [hfs.load_eq, hgs.load_eq]
    -- the options of the first file are empty, those of the second are not
    intro h
    cases h with
    | set hoptions => cases hoptions

end Config

end CaplLayout
