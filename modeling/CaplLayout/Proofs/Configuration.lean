import CaplLayout.CommandLine
import CaplLayout.Proofs.Places

/-!
# Configuration files that cannot be used

Loading a configuration file can fail in many ways. The command expects some of them: it reports the
error and ends in the exit code for fatal errors. With the others it breaks off (`Unreported`).
`Config.Escapes` lists what the bytes of a file have to hold for that, and `run_escapes_iff` says
that there is nothing else. The lemmas go through the steps of loading one by one, as a chain of
steps fails where its first failing step does (`unreported_bind`).
-/

set_option autoImplicit false

namespace CaplLayout

/-! ## Errors that are not expected -/

/-- A step of loading fails in a way that the command does not expect. -/
def Unreported {α : Type} (r : Except ConfigError α) : Prop :=
  ∃ e, r = .error e ∧ e.isReported = false

section

variable {α β : Type}

theorem not_unreported_ok (a : α) : ¬ Unreported (.ok a) := by
  rintro ⟨e, he, -⟩
  cases he

theorem unreported_error {e : ConfigError} :
    Unreported (.error e : Except ConfigError α) ↔ e.isReported = false := by
  constructor
  · rintro ⟨_, h, hreported⟩
    cases h
    exact hreported
  · exact fun h => ⟨e, rfl, h⟩

/-- A step and what follows it fail where the first of them does. -/
theorem unreported_bind {r : Except ConfigError α} {next : α → Except ConfigError β} :
    Unreported (r >>= next) ↔ Unreported r ∨ ∃ a, r = .ok a ∧ Unreported (next a) := by
  cases r with
  | error e =>
      refine ⟨fun h => Or.inl (unreported_error.mpr (unreported_error.mp h)), ?_⟩
      rintro (h | ⟨a, ha, -⟩)
      · exact unreported_error.mpr (unreported_error.mp h)
      · cases ha
  | ok a =>
      refine ⟨fun h => Or.inr ⟨a, rfl, h⟩, ?_⟩
      rintro (h | ⟨b, hb, h⟩)
      · exact absurd h (not_unreported_ok a)
      · cases hb
        exact h

section

variable {ε : Type} {r : Except ε α} {f : ε → ConfigError}

theorem mapError_eq_ok_iff {a : α} : r.mapError f = .ok a ↔ r = .ok a := by
  cases r <;> simp [Except.mapError]

/-- Errors of which all are expected. -/
theorem not_unreported_mapError (h : ∀ e, (f e).isReported = true) :
    ¬ Unreported (r.mapError f) := by
  cases r with
  | error e =>
      intro hunreported
      rw [Except.mapError, unreported_error, h] at hunreported
      cases hunreported
  | ok a => exact not_unreported_ok a

/-- Errors of which none is expected. -/
theorem unreported_mapError (h : ∀ e, (f e).isReported = false) :
    Unreported (r.mapError f) ↔ ∃ e, r = .error e := by
  cases r with
  | error e => exact iff_of_true (unreported_error.mpr (h e)) ⟨e, rfl⟩
  | ok a =>
      refine iff_of_false (not_unreported_ok a) ?_
      rintro ⟨e, he⟩
      cases he

end

end

namespace Config

/-! ## What a file may hold -/

/-- The directory names among named values are in order: there are none, or they are texts. -/
def DirsInOrder (values : Options) : Prop :=
  ∀ v, values.get? "ignore_dirs" = some v → ∃ names : List String, v = .array (names.map .str)

/-- A section that loading does not expect. -/
inductive BadSection (v : Value) : Prop
  /-- It does not name values. -/
  | noPairs {fault : SectionFault} : sectionPairs v = .error fault → BadSection v
  /-- A name in it is not a text; the directory names, which are looked at first, are in order. -/
  | foreignName {named : List (Value × Value)} {name : Value} : sectionPairs v = .ok named →
      foreignName? named = some name → DirsInOrder (Options.putAll [] (textPairs named)) →
      BadSection v

/-- A document that loading does not expect. -/
inductive Unexpected (document : Options) : Prop
  /-- The value `tool` is not a table. -/
  | tool {v : Value} : document.get? "tool" = some v → (∀ entries, v ≠ .table entries) →
      Unexpected document
  /-- The section is not as expected. -/
  | badSection {entries : Options} {v : Value} : document.get? "tool" = some (.table entries) →
      entries.get? "capl-format" = some v → BadSection v → Unexpected document

/-- The bytes of a file with which loading it fails in a way that is not expected. -/
inductive Escapes (bytes : List UInt8) : Prop
  /-- The bytes are no text. -/
  | encoding {fault : Utf8.Fault} : Utf8.decode bytes = .error fault → Escapes bytes
  /-- A number is too long to be read. -/
  | digits {text : Text} {n : Nat} : Utf8.decode bytes = .ok text →
      Toml.read text.unifyPairs = .error (.tooManyDigits n) → Escapes bytes
  /-- The document is not as expected. -/
  | document {text : Text} {document : Options} : Utf8.decode bytes = .ok text →
      Toml.read text.unifyPairs = .ok document → Unexpected document → Escapes bytes

/-! ## Sections -/

theorem texts?_map (names : List String) : texts? (names.map .str) = some names := by
  induction names with
  | nil => rfl
  | cons name r ih => rw [List.map_cons, texts?, ih, Option.map_some]

/-- Values that are texts are those of their names. -/
theorem eq_map_of_texts? {items : List Value} {names : List String}
    (h : texts? items = some names) : items = names.map .str := by
  induction items generalizing names with
  | nil =>
      cases h
      rfl
  | cons item r ih =>
      cases item with
      | str name =>
          obtain ⟨more, hmore, rfl⟩ := Option.map_eq_some_iff.mp h
          rw [List.map_cons, ih hmore]
      | null | bool | int | float | moment | array | table => cases h

theorem foreignName?_str (values : Options) :
    foreignName? (values.map fun e => (Value.str e.1, e.2)) = none := by
  unfold foreignName?
  rw [Option.map_eq_none_iff, List.find?_eq_none]
  intro e he
  obtain ⟨_, _, rfl⟩ := List.mem_map.mp he
  simp

/-- The directory names that values give. -/
def dirsOf (path : Text) (values : Options) : Except ConfigError (List String) :=
  match values.get? "ignore_dirs" with
  | none => .ok defaultDependencyDirs
  | some (.array items) =>
    match texts? items with
    | some names => .ok names
    | none => .error (.ignoreDirs path)
  | some _ => .error (.ignoreDirs path)

theorem dirsOf_cases (path : Text) (values : Options) :
    (DirsInOrder values ∧ ∃ names, dirsOf path values = .ok names)
      ∨ (¬ DirsInOrder values ∧ dirsOf path values = .error (.ignoreDirs path)) := by
  unfold DirsInOrder dirsOf
  cases values.get? "ignore_dirs" with
  | none => exact Or.inl ⟨fun v hv => (nomatch hv), _, rfl⟩
  | some v =>
      cases v with
      | array items =>
          dsimp only
          cases htexts : texts? items with
          | some names =>
              left
              refine ⟨fun v hv => ?_, names, rfl⟩
              cases hv
              exact ⟨names, congrArg Value.array (eq_map_of_texts? htexts)⟩
          | none =>
              right
              refine ⟨fun h => ?_, rfl⟩
              obtain ⟨names, hnames⟩ := h _ rfl
              cases hnames
              rw [texts?_map] at htexts
              cases htexts
      | null | bool | int | float | str | moment | table =>
          right
          refine ⟨fun h => ?_, rfl⟩
          obtain ⟨names, hnames⟩ := h _ rfl
          cases hnames

theorem ofSection_eq (path : Text) (named : List (Value × Value)) :
    ofSection path named
      = dirsOf path (Options.putAll [] (textPairs named)) >>= fun ignoreDirs =>
        match foreignName? named with
        | some v => .error (.badSection (.ofName v))
        | none =>
          .ok ⟨Options.putAll []
            (((Options.putAll [] (textPairs named)).without "ignore_dirs").map fun e =>
              (optionName e.1, e.2)), ignoreDirs, some path⟩ := by
  unfold ofSection dirsOf
  dsimp only
  cases (Options.putAll [] (textPairs named)).get? "ignore_dirs" with
  | none => rfl
  | some v =>
      cases v with
      | array items =>
          dsimp only
          cases texts? items <;> rfl
      | null | bool | int | float | str | moment | table => rfl

theorem unreported_ofSection (path : Text) (named : List (Value × Value)) :
    Unreported (ofSection path named)
      ↔ DirsInOrder (Options.putAll [] (textPairs named))
        ∧ ∃ name, foreignName? named = some name := by
  rw [ofSection_eq, unreported_bind]
  rcases dirsOf_cases path (Options.putAll [] (textPairs named)) with
    ⟨hdirs, names, hok⟩ | ⟨hdirs, herror⟩
  · rw [hok, or_iff_right (not_unreported_ok names)]
    cases foreignName? named with
    | none => simp [not_unreported_ok]
    | some name => simp [hdirs, unreported_error, ConfigError.isReported]
  · rw [herror]
    simp [hdirs, unreported_error, ConfigError.isReported]

/-- The values at the top of a document have texts for names. -/
theorem not_unreported_ofSection_top (path fileName : Text) (document : Options) :
    ¬ Unreported (ofSection path
      (if fileName = "pyproject.toml".toList then []
        else (document.without "tool").map fun e => (Value.str e.1, e.2))) := by
  rw [unreported_ofSection]
  rintro ⟨-, name, hname⟩
  split at hname
  · cases hname
  · rw [foreignName?_str] at hname
    cases hname

theorem unreported_section_iff (path : Text) (v : Value) :
    Unreported ((sectionPairs v).mapError .badSection >>= ofSection path) ↔ BadSection v := by
  rw [unreported_bind, unreported_mapError fun _ => rfl]
  simp only [mapError_eq_ok_iff, unreported_ofSection]
  constructor
  · rintro (⟨fault, hfault⟩ | ⟨named, hpairs, hdirs, name, hname⟩)
    · exact .noPairs hfault
    · exact .foreignName hpairs hname hdirs
  · rintro (hfault | ⟨hpairs, hname, hdirs⟩)
    · exact Or.inl ⟨_, hfault⟩
    · exact Or.inr ⟨_, hpairs, hdirs, _, hname⟩

/-- **A document is refused in a way that is not expected** exactly if it is unexpected. -/
theorem unreported_document_iff (path fileName : Text) (document : Options) :
    Unreported (sectionOf fileName document >>= ofSection path) ↔ Unexpected document := by
  have htop := not_unreported_ofSection_top path fileName document
  unfold sectionOf
  dsimp only
  cases htool : document.get? "tool" with
  | none =>
      refine iff_of_false htop ?_
      rintro (⟨h, -⟩ | ⟨h, -⟩)
      all_goals
        rw [htool] at h
        cases h
  | some v =>
      cases v with
      | table entries =>
          dsimp only
          -- the section decides, if there is one
          have hunexpected : Unexpected document
              ↔ ∃ v, Options.get? entries "capl-format" = some v ∧ BadSection v := by
            constructor
            · rintro (⟨h, hne⟩ | ⟨h, hv, hbad⟩)
              all_goals
                rw [htool] at h
                cases h
              · exact absurd rfl (hne entries)
              · exact ⟨_, hv, hbad⟩
            · rintro ⟨v, hv, hbad⟩
              exact .badSection htool hv hbad
          rw [hunexpected]
          cases Options.get? entries "capl-format" with
          | none => exact iff_of_false htop fun ⟨v, hv, _⟩ => nomatch hv
          | some v =>
              dsimp only
              rw [unreported_section_iff]
              exact ⟨fun h => ⟨v, rfl, h⟩, fun ⟨w, hw, h⟩ => Option.some.inj hw ▸ h⟩
      | null | bool | int | float | str | moment | array =>
          refine iff_of_true (unreported_error.mpr rfl) (.tool htool ?_)
          intro entries h
          cases h

/-! ## Files -/

/-- What a text sets that is a configuration. -/
def ofText (path : Path) (text : Text) : Except ConfigError Config :=
  (Toml.read text.unifyPairs).mapError (fun
      | .fault reason rest =>
        .unreadable path.text ((Toml.Refusal.fault reason rest).text text.unifyPairs)
      | .tooManyDigits n => .integer ((Toml.Refusal.tooManyDigits n).text text.unifyPairs))
    >>= fun document => sectionOf path.lastName document >>= ofSection path.text

theorem unreported_ofText_iff (path : Path) (text : Text) :
    Unreported (ofText path text)
      ↔ (∃ n, Toml.read text.unifyPairs = .error (.tooManyDigits n))
        ∨ ∃ document, Toml.read text.unifyPairs = .ok document ∧ Unexpected document := by
  unfold ofText
  rw [unreported_bind]
  simp only [unreported_document_iff]
  cases Toml.read text.unifyPairs with
  | error refusal =>
      cases refusal <;> simp [Except.mapError, unreported_error, ConfigError.isReported]
  | ok document => simp [Except.mapError, not_unreported_ok]

theorem escapes_iff (bytes : List UInt8) :
    Escapes bytes ↔ (∃ fault, Utf8.decode bytes = .error fault)
      ∨ ∃ text, Utf8.decode bytes = .ok text
        ∧ ((∃ n, Toml.read text.unifyPairs = .error (.tooManyDigits n))
          ∨ ∃ document, Toml.read text.unifyPairs = .ok document ∧ Unexpected document) := by
  constructor
  · rintro (h | ⟨h, hdigits⟩ | ⟨h, hread, hunexpected⟩)
    · exact Or.inl ⟨_, h⟩
    · exact Or.inr ⟨_, h, Or.inl ⟨_, hdigits⟩⟩
    · exact Or.inr ⟨_, h, Or.inr ⟨_, hread, hunexpected⟩⟩
  · rintro (⟨fault, h⟩ | ⟨text, h, ⟨n, hdigits⟩ | ⟨document, hread, hunexpected⟩⟩)
    · exact .encoding h
    · exact .digits h hdigits
    · exact .document h hread hunexpected

/-- **A file escapes by its bytes**: that it cannot be read is an expected error. -/
theorem unreported_read_iff (fs : FileSystem) (path : Path) :
    Unreported (read fs path) ↔ ∃ bytes, fs.read path.text = .ok bytes ∧ Escapes bytes := by
  have hread : read fs path
      = (fs.read path.text).mapError (fun e => ConfigError.unreadable path.text e.text)
        >>= fun bytes => (Utf8.decode bytes).mapError ConfigError.encoding >>= ofText path := rfl
  -- an access error is reported, so only the steps behind the reading can escape
  have hreported : ¬ Unreported ((fs.read path.text).mapError
      fun e => ConfigError.unreadable path.text e.text) := not_unreported_mapError fun _ => rfl
  rw [hread, unreported_bind, or_iff_right hreported]
  simp only [mapError_eq_ok_iff, escapes_iff, unreported_bind, unreported_ofText_iff,
    unreported_mapError (f := ConfigError.encoding) fun _ => rfl]

theorem load_of_isThere {fs : FileSystem} {path : String}
    (h : isThere fs (Path.ofString path).text = .ok true) :
    load fs (some path) = read fs (Path.ofString path) := by
  unfold load
  rw [Option.map_some]
  dsimp only
  rw [h]
  rfl

theorem null_not_mem_of_isThere {fs : FileSystem} {path : String}
    (h : isThere fs (Path.ofString path).text = .ok true) : FileSystem.null ∉ path.toList := by
  intro hnull
  have hcontains : (Path.ofString path).text.contains FileSystem.null = true := by
    simpa using Path.null_mem_text_iff.mpr hnull
  rw [isThere, if_pos hcontains] at h
  cases h

end Config

/-! ## The command -/

namespace CommandLine

variable {grammar : Grammar} {terminal : Bool} {a : Arguments} {given : Options} {s : Session}
  {stdin : List UInt8}

/-- Behind the configuration no error of it comes up. -/
theorem runLoaded_ne_config (console : Console) (c : Config) (e : ConfigError) :
    (runLoaded grammar console a given c s stdin).2 ≠ .error (.config e) := by
  unfold runLoaded
  dsimp only
  split <;> simp

/-- With inputs to format, the command loads the configuration first. -/
theorem runRead_eq (hnull : FileSystem.null ∉ a.config.toList)
    (hinput : a.patterns ≠ [] ∨ a.stdin = true) :
    runRead grammar terminal a given s stdin
      = match Config.load s.files (some a.config) with
        | .ok c => runLoaded grammar ⟨terminal, a.verbose⟩ a given c s stdin
        | .error e =>
          if e.isReported then
            (s.print (Console.echoLine ⟨terminal, a.verbose⟩ .err e.message), .ok .fatal)
          else (s, .error (.config e)) := by
  have hcontains : ¬ a.config.toList.contains FileSystem.null = true := by simpa using hnull
  have hsome : ¬ (a.patterns.isEmpty && !a.stdin) = true := by
    rcases hinput with h | h <;> simp [h]
  exact (if_neg hcontains).trans (if_neg hsome)

theorem runRead_config_iff (hnull : FileSystem.null ∉ a.config.toList)
    (hinput : a.patterns ≠ [] ∨ a.stdin = true) :
    (∃ e, (runRead grammar terminal a given s stdin).2 = .error (.config e))
      ↔ Unreported (Config.load s.files (some a.config)) := by
  rw [runRead_eq hnull hinput]
  cases Config.load s.files (some a.config) with
  | ok c =>
      refine iff_of_false ?_ (not_unreported_ok c)
      rintro ⟨e, he⟩
      exact runLoaded_ne_config _ _ _ he
  | error e =>
      rw [unreported_error]
      dsimp only
      split
      · next hreported => simp [hreported]
      · next hreported => simp [hreported]

/-- **When a configuration file makes the command break off.** A file is there, and there is
something to format. Loading the file fails in a way that is not expected exactly if the file can be
read and its bytes escape: they are no text, or a text with a number that is too long, or a document
with a value `tool` that is no table or a section that does not name its values by texts. Exactly
then the command breaks off. Any other error is reported, and is a fatal one. -/
theorem run_escapes_iff (grammar : Grammar) (terminal : Bool) (s : Session) (args : List String)
    (stdin : List UInt8) {a : Arguments} {given : Options} (hargs : readAll {} args = some a)
    (hgiven : a.formatOptions = some given) (hinput : a.patterns ≠ [] ∨ a.stdin = true)
    (hthere : Config.isThere s.files (Path.ofString a.config).text = .ok true) :
    (Unreported (Config.load s.files (some a.config))
        ↔ ∃ bytes, s.files.read (Path.ofString a.config).text = .ok bytes ∧ Config.Escapes bytes)
      ∧ ((∃ e, (run grammar terminal s args stdin).2 = .error (.config e))
        ↔ ∃ bytes, s.files.read (Path.ofString a.config).text = .ok bytes ∧ Config.Escapes bytes)
      ∧ ∀ e, Config.load s.files (some a.config) = .error e → e.isReported = true →
        run grammar terminal s args stdin
          = (s.print (Console.echoLine ⟨terminal, a.verbose⟩ .err e.message), .ok .fatal) := by
  have hnull := Config.null_not_mem_of_isThere hthere
  have hload := Config.load_of_isThere hthere
  have hrun : run grammar terminal s args stdin = runRead grammar terminal a given s stdin := by
    rw [run, hargs]
    dsimp only
    rw [hgiven]
  have hescapes : Unreported (Config.load s.files (some a.config))
      ↔ ∃ bytes, s.files.read (Path.ofString a.config).text = .ok bytes ∧ Config.Escapes bytes := by
    rw [hload, Config.unreported_read_iff]
  refine ⟨hescapes, ?_, fun e he hreported => ?_⟩
  · rw [hrun, runRead_config_iff hnull hinput, hescapes]
  · rw [hrun, runRead_eq hnull hinput, he]
    dsimp only
    rw [if_pos hreported]

/-- A configuration file with a byte that no text holds makes the command break off. -/
theorem run_escapes_iff_encoding :
    ∃ (files : FileSystem) (e : ConfigError),
      files.read ".capl-format.toml".toList = .ok [0xFF]
      ∧ (run (fun _ => default) false { files := files } ["a.can"] []).2 = .error (.config e) := by
  let files : FileSystem :=
    { root := .directory [(".capl-format.toml".toList, .file [0xFF])], cwd := [] }
  have hargs : readAll {} ["a.can"] = some { patterns := ["a.can"] } := by
    simp [readAll, isOption]
  have hthere : Config.isThere files (Path.ofString ".capl-format.toml").text = .ok true := by rfl
  have hread : files.read (Path.ofString ".capl-format.toml").text = .ok [0xFF] := by rfl
  have hdecode : ∃ fault, Utf8.decode [0xFF] = .error fault := ⟨_, rfl⟩
  obtain ⟨fault, hfault⟩ := hdecode
  obtain ⟨e, he⟩ := (run_escapes_iff (fun _ => default) false { files := files } ["a.can"] []
    (a := { patterns := ["a.can"] }) hargs rfl (Or.inl (by simp)) hthere).2.1.mpr
      ⟨_, hread, .encoding hfault⟩
  exact ⟨files, e, hread, he⟩

/-- A file can be read, but loading it neither sets anything nor fails in a way that is expected. -/
theorem exists_load_unreported :
    ∃ (files : FileSystem) (bytes : List UInt8),
      files.read (Path.ofString "x.toml").text = .ok bytes
      ∧ ¬ ((∃ c, Config.load files (some "x.toml") = .ok c)
        ∨ ∃ e, Config.load files (some "x.toml") = .error e ∧ e.isReported = true) := by
  let files : FileSystem := { root := .directory [("x.toml".toList, .file [0xFF])], cwd := [] }
  have hload : ∃ fault, Config.load files (some "x.toml") = .error (.encoding fault) := ⟨_, rfl⟩
  obtain ⟨fault, hload⟩ := hload
  refine ⟨files, [0xFF], rfl, ?_⟩
  rw [hload]
  rintro (⟨c, hc⟩ | ⟨e, he, hreported⟩)
  · cases hc
  · cases he
    cases hreported

end CommandLine

end CaplLayout
