import CaplLayout.Proofs.Messages
import CaplLayout.Proofs.Visits

/-!
# Options that do not check

A file adds nothing but its path to the format options of a run, and a path always checks
(`Settings.ofOptions_forFile`). So if the options do not check for one file, they do not for any,
and for the same reasons. In such a run a file that can be read stops the run before anything is
done with it, and one that cannot be read ends in an error, as in any run: no file is touched, and
the first one that can be read is the last one that is visited (`runAll_of_invalid`).
-/

set_option autoImplicit false

namespace CaplLayout

open Session

/-! ## Options for different files -/

namespace Settings

variable (o : Options) (f : String)

theorem checkOption_forFile {α : Type} {name : String} (absent : α) (check : Value → Checked α)
    (h : name ≠ "filepath") :
    checkOption (o.forFile (some f)) name absent check = checkOption o name absent check := by
  have hget : (o.forFile (some f)).get? name = o.get? name := by
    unfold Options.forFile Options.get? Options.put
    dsimp only
    rw [Keyed.lookup_put, if_neg h]
  unfold checkOption
  rw [hget]

/-- A path always checks. -/
theorem checkOption_filepath :
    checkOption (o.forFile (some f)) "filepath" none (Checked.optional Checked.string)
      = .ok (some f) := by
  have hget : (o.forFile (some f)).get? "filepath" = some (.str f) := by
    unfold Options.forFile Options.get? Options.put
    dsimp only
    rw [Keyed.lookup_put, if_pos rfl]
  unfold checkOption
  rw [hget]
  rfl

theorem unknownNames_forFile : unknownNames (o.forFile (some f)) = unknownNames o := by
  unfold unknownNames Options.forFile Options.put
  dsimp only
  induction o with
  | nil => rfl
  | cons e r ih =>
      obtain ⟨k, v⟩ := e
      unfold Keyed.put
      split
      · next h =>
          subst h
          rfl
      · rw [List.filter_cons, List.filter_cons]
        split
        · rw [List.map_cons, List.map_cons, ih]
        · exact ih

/-- **The file makes no difference to whether options check**: it only adds its path. -/
theorem ofOptions_forFile (g : String) :
    ofOptions (o.forFile (some f))
      = (ofOptions (o.forFile (some g))).map fun s => { s with filepath := some f } := by
  unfold ofOptions
  simp (disch := decide) only [checkOption_filepath, unknownNames_forFile, checkOption_forFile]
  generalize checkOption o "indent_size" _ _ = indentSize
  generalize checkOption o "use_tabs" _ _ = useTabs
  generalize checkOption o "print_width" _ _ = printWidth
  generalize checkOption o "quote_style" _ _ = quoteStyle
  generalize checkOption o "parser" _ _ = dialect
  generalize checkOption o "cursor_offset" _ _ = cursorOffset
  generalize checkOption o "range_start" _ _ = rangeStart
  generalize checkOption o "range_end" _ _ = rangeEnd
  generalize unknownNames o = unknown
  -- As long as the checks succeed, so does the front of both lists of problems; the first one that
  -- fails makes both lists the same, and neither side looks at a setting.
  rcases indentSize with problem | indentSize
  · rfl
  rcases useTabs with problem | useTabs
  · rfl
  rcases printWidth with problem | printWidth
  · rfl
  rcases quoteStyle with problem | quoteStyle
  · rfl
  rcases dialect with problem | dialect
  · rfl
  rcases cursorOffset with problem | cursorOffset
  · rfl
  rcases rangeStart with problem | rangeStart
  · rfl
  rcases rangeEnd with problem | rangeEnd
  · rfl
  rcases unknown with _ | ⟨problem, unknown⟩
  · simp only [problemOf, List.append_nil]
    split <;> rfl
  · rfl

end Settings

/-- Options do not check, and have these problems, whatever file they are for. -/
def Options.Invalid (o : Options) (problems : List Problem) : Prop :=
  ∀ f, Settings.ofOptions (o.forFile (some f)) = .error problems

/-- Options that do not check for one file do not for any. -/
theorem Options.invalid_of_forFile {o : Options} {f : String} {problems : List Problem}
    (h : Settings.ofOptions (o.forFile (some f)) = .error problems) : o.Invalid problems := by
  intro g
  rw [Settings.ofOptions_forFile o g f, h]
  rfl

/-! ## Formatting under options that do not check -/

section

variable {options : Options} {problems : List Problem} (source : Text)
  (h : Settings.ofOptions options = .error problems)
include h

theorem Engine.resolve_of_invalid : Engine.resolve options = .error (.invalidOptions problems) := by
  rw [Engine.resolve, h]
  rfl

theorem Engine.format_of_invalid (e : Engine) :
    e.format options source = .error (.invalidOptions problems) := by
  rw [Engine.format, Engine.resolve_of_invalid h]
  rfl

/-- A formatter reports the problems, whatever its mode. -/
theorem Formatter.format_of_invalid (formatter : Formatter) :
    formatter.format options source = .error (.validation (Problem.report problems)) := by
  have hformat := Engine.format_of_invalid source h formatter.engine
  unfold Formatter.format
  cases formatter.mode with
  | plain =>
      dsimp only
      rw [hformat]
      rfl
  | document =>
      dsimp only
      rw [Formatter.document, Engine.doc, hformat]
      rfl
  | selfCheck =>
      dsimp only
      rw [Formatter.selfCheck, hformat]
      rfl

theorem Formatter.isFormatted_of_invalid (formatter : Formatter) :
    formatter.isFormatted options source = .error (.validation (Problem.report problems)) := by
  rw [Formatter.isFormatted, Engine.isFormatted, Engine.format_of_invalid source h]
  rfl

end

/-- The file `f` has a text. -/
def FileSystem.Readable (files : FileSystem) (f : String) : Prop := ∃ source, files.Holds f source

namespace Processor

variable {p : Processor} {files : FileSystem} {problems : List Problem} {f : String}

/-- The report about options that do not check, as it is printed. -/
def rejection (p : Processor) (problems : List Problem) : Piece :=
  ⟨.err, p.console.shown ((Problem.report problems).toList ++ ['\n'])⟩

theorem isValidation_rejection (p : Processor) (problems : List Problem) :
    (p.rejection problems).isValidation = true := by
  have hreport : (Problem.report problems).toList = Piece.validationHead
      ++ (String.intercalate "; " (problems.map Problem.message)).toList := String.toList_append
  unfold Piece.isValidation rejection
  dsimp only
  rw [hreport, List.append_assoc, Console.shown_append _ _ (by decide), List.isPrefixOf_iff_prefix]
  exact List.prefix_append _ _

section

variable (hinvalid : p.format.Invalid problems)
include hinvalid

/-- A file that can be read stops the run, and leaves nothing but the report. -/
theorem process_of_invalid {source : Text} (hholds : files.Holds f source) :
    p.process (fresh files) f
      = ((fresh files).print [p.rejection problems], .error (.aborted (Problem.report problems))) :=
  process_eq_fail hholds (Formatter.isFormatted_of_invalid source (hinvalid f) p.formatter)
    (Formatter.format_of_invalid source (hinvalid f) p.formatter)

/-- No file is written. -/
theorem untouched_of_invalid (files : FileSystem) (f : String) :
    (p.visitOf files f).left.files = files ∧ (p.visitOf files f).left.written = [] := by
  by_cases hf : files.Readable f
  · obtain ⟨source, hholds⟩ := hf
    unfold visitOf
    rw [process_of_invalid hinvalid hholds]
    exact ⟨rfl, rfl⟩
  · have hnone : ∀ source, ¬ files.Holds f source := fun source h => hf ⟨source, h⟩
    have hmark : ∃ code, (p.visitOf files f).left.mark = ⟨files, code, []⟩ := by
      rcases (processed_visitOf p files f).cases_of_not_holds hnone with ⟨-, h, -⟩ | ⟨h, -⟩
      · exact ⟨_, h⟩
      · exact ⟨_, h⟩
    obtain ⟨code, hmark⟩ := hmark
    exact ⟨congrArg Mark.files hmark, congrArg Mark.written hmark⟩

theorem spares_of_invalid (files : FileSystem) : p.Spares files :=
  fun f => (untouched_of_invalid hinvalid files f).1

end

/-! ## Files that cannot be read -/

/-- A file without a text ends in an error of reading, and the run goes on. -/
theorem result_of_not_readable (hnull : FileSystem.null ∉ f.toList) (hf : ¬ files.Readable f) :
    (p.visitOf files f).result = .ok .readError :=
  (processed_visitOf p files f).result_eq_readError (Path.null_not_mem_text hnull)
    fun source h => hf ⟨source, h⟩

theorem goesBy_of_not_readable (hnull : FileSystem.null ∉ f.toList) (hf : ¬ files.Readable f) :
    p.GoesBy files f := Event.stop?_visited_eq_none.mpr ⟨_, result_of_not_readable hnull hf⟩

/-- Its report is none about options. -/
theorem filter_pieces_of_not_readable (hf : ¬ files.Readable f) :
    (Event.visited (p.visitOf files f)).pieces.filter Piece.isValidation = [] := by
  have hline : ∀ reason, (p.console.echoLine .err
      ("Unable to read file: " ++ f ++ "\n" ++ reason)).filter Piece.isValidation = [] := by
    intro reason
    have hhead : ("Unable to read file: " ++ f ++ "\n" ++ reason).toList
        = 'U' :: ("nable to read file: " ++ f ++ "\n" ++ reason).toList := by
      simp only [String.toList_append]
      rfl
    exact Piece.filter_echoLine_isValidation p.console .err hhead (by decide) (by decide)
  have hfresh : readText (fresh files).files (Path.ofString f).text
      = readText files (Path.ofString f).text := rfl
  show (p.process (fresh files) f).1.output.filter Piece.isValidation = []
  unfold process
  dsimp only
  rw [hfresh]
  cases hread : readText files (Path.ofString f).text with
  | error e =>
      cases e with
      | nullCharacter => rfl
      | _ => exact hline _
  | ok text =>
      cases text with
      | error reason => exact hline reason
      | ok source => exact absurd ⟨source, hread⟩ hf

/-! ## Whole runs -/

theorem stop_of_invalid (hinvalid : p.format.Invalid problems) (hf : files.Readable f) :
    (Event.visited (p.visitOf files f)).stop? = some (.aborted (Problem.report problems)) := by
  obtain ⟨source, hholds⟩ := hf
  rw [Event.stop?_visited_eq_some]
  unfold visitOf
  rw [process_of_invalid hinvalid hholds]

/-- Of the paths that the patterns `before` and then `pattern` stand for, `f` is the first one of a
file that can be read; at its own pattern it comes behind `front`. -/
structure FirstReadable (p : Processor) (files : FileSystem) (before : List String)
    (pattern : String) (front : List String) (f : String) (rest : List String) : Prop where
  pathsOf_eq : p.selection.pathsOf files pattern = front ++ f :: rest
  null_not_mem : ∀ g ∈ p.selection.paths files before ++ front, FileSystem.null ∉ g.toList
  not_readable : ∀ g ∈ p.selection.paths files before ++ front, ¬ files.Readable g
  readable : files.Readable f

section

variable {before front rest : List String} {pattern : String}
  (hfirst : p.FirstReadable files before pattern front f rest)
include hfirst

theorem FirstReadable.goesBy : ∀ g ∈ p.selection.paths files before ++ front, p.GoesBy files g :=
  fun g hg => goesBy_of_not_readable (hfirst.null_not_mem g hg) (hfirst.not_readable g hg)

variable (hinvalid : p.format.Invalid problems)
include hinvalid

/-- **Nothing happens behind the first file that can be read**, neither at its own pattern nor at
the ones behind. -/
theorem events_of_invalid (after : List String) :
    p.events files (before ++ pattern :: after)
      = p.events files before ++ front.map (fun g => .visited (p.visitOf files g))
        ++ [.visited (p.visitOf files f)] := by
  have hspares := spares_of_invalid hinvalid files
  have hstop := stop_of_invalid hinvalid hfirst.readable
  have hstops : ¬ p.GoesBy files f := by simp [GoesBy, hstop]
  have hat : p.eventsAt files pattern
      = front.map (fun g => .visited (p.visitOf files g)) ++ [.visited (p.visitOf files f)] := by
    rcases eventsAt_eq p files pattern with hvisits | ⟨-, hempty⟩
    · rw [hvisits, hfirst.pathsOf_eq,
        hspares.visits_append _ fun g hg => hfirst.goesBy g (List.mem_append_right _ hg),
        hspares.visits_cons_of_stops rest hstops]
    · simp [hfirst.pathsOf_eq] at hempty
  rw [hspares.events_append _ fun g hg => hfirst.goesBy g (List.mem_append_left _ hg),
    hspares.events_cons, hat, if_pos (by simp [hstop]), List.append_nil, List.append_assoc]

/-- The visits at patterns up to the first file that can be read. -/
theorem visitsAmong_of_invalid (after : List String) :
    visitsAmong (p.events files (before ++ pattern :: after))
      = (p.selection.paths files before ++ front ++ [f]).map (p.visitOf files) := by
  have hvisits := (spares_of_invalid hinvalid files).visitsAmong_events fun g hg =>
    hfirst.goesBy g (List.mem_append_left _ hg)
  rw [events_of_invalid hfirst hinvalid, visitsAmong_append, visitsAmong_append, hvisits,
    visitsAmong_map_visitOf, List.map_append, List.map_append]
  rfl

/-- Of reports about options there is one. -/
theorem reports_of_invalid (after : List String) :
    (p.events files (before ++ pattern :: after)).flatMap
        (fun e => e.pieces.filter Piece.isValidation) = [p.rejection problems] := by
  have hspares := spares_of_invalid hinvalid files
  -- the report of the last visit counts, all others are about files that cannot be read
  have hreport : (Event.visited (p.visitOf files f)).pieces.filter Piece.isValidation
      = [p.rejection problems] := by
    obtain ⟨source, hholds⟩ := hfirst.readable
    have hpieces : (Event.visited (p.visitOf files f)).pieces
        = (p.process (fresh files) f).1.output := rfl
    rw [hpieces, process_of_invalid hinvalid hholds]
    exact List.filter_cons_of_pos (isValidation_rejection p problems)
  have hsilent : ∀ e ∈ p.events files before ++ front.map (fun g => .visited (p.visitOf files g)),
      e.pieces.filter Piece.isValidation = [] := by
    intro e he
    rcases List.mem_append.mp he with he | he
    · rcases hspares.mem_events he with ⟨_, rfl⟩ | ⟨g, hg, rfl⟩
      · rfl
      · exact filter_pieces_of_not_readable (hfirst.not_readable g (List.mem_append_left _ hg))
    · obtain ⟨g, hg, rfl⟩ := List.mem_map.mp he
      exact filter_pieces_of_not_readable (hfirst.not_readable g (List.mem_append_right _ hg))
  rw [events_of_invalid hfirst hinvalid, List.flatMap_append, List.flatMap_singleton,
    hreport, List.flatMap_eq_nil_iff.mpr hsilent, List.nil_append]

end

/-- The run over `patterns` in the place of its own ones. -/
def withPatterns (p : Processor) (patterns : List String) : Processor :=
  { p with run := { p.run with patterns := patterns } }

theorem runAll_withPatterns (hconflict : p.run.conflict = none) (hstdin : p.run.stdin = false)
    (patterns : List String) (s : Session) (stdin : List UInt8) :
    (p.withPatterns patterns).runAll s stdin
      = finish (p.selection.visitPatterns p.console p.visit s patterns) := by
  have hconflict' : (p.withPatterns patterns).run.conflict = none := hconflict
  have hstdin' : (p.withPatterns patterns).run.stdin = false := hstdin
  have hvisit : (p.withPatterns patterns).visit = p.visit := rfl
  rw [runAll, hconflict', hstdin', runFiles, hvisit]
  rfl

/-- The run of `p` is given up at the file `f`: this is visited behind the files `names`, which
cannot be read, and is the last one; the options are reported once. -/
structure GivenUpAt (p : Processor) (files : FileSystem) (stdin : List UInt8)
    (problems : List Problem) (names : List String) (f : String) : Prop where
  visits_eq : visitsAmong (p.history files stdin) = (names ++ [f]).map (p.visitOf files)
  readError : ∀ g ∈ names, (p.visitOf files g).result = .ok .readError
  aborted : (p.visitOf files f).result = .error (.aborted (Problem.report problems))
  stopped : (p.runAll (fresh files) stdin).2 = .error (.aborted (Problem.report problems))
  reports : (p.runAll (fresh files) stdin).1.output.filter Piece.isValidation
    = [p.rejection problems]

/-- **Options that do not check touch no file**, wherever the run ends. -/
theorem runAll_untouched_of_invalid (hinvalid : p.format.Invalid problems)
    (hstdin : p.run.stdin = false) (files : FileSystem) (stdin : List UInt8) :
    (p.runAll (fresh files) stdin).1.files = files
      ∧ (p.runAll (fresh files) stdin).1.written = [] := by
  obtain ⟨hmark, hlinked⟩ := runAll_mark p files stdin
  have hkeeps : ∀ e ∈ p.history files stdin, e.Keeps := by
    intro e he
    obtain ⟨-, ⟨hin, -⟩ | ⟨-, ⟨pattern, rfl⟩ | ⟨found, f, rfl⟩⟩⟩ := mem_history he
    · simp [hstdin] at hin
    · exact ⟨rfl, fun _ _ => rfl⟩
    · obtain ⟨hfiles, hwritten⟩ := untouched_of_invalid hinvalid found f
      refine ⟨hwritten, ?_⟩
      rintro _ rfl
      exact hfiles
  obtain ⟨hfiles, hwritten⟩ := foldl_add_of_keeps (m := (fresh files).mark) hlinked hkeeps
  rw [← hmark] at hfiles hwritten
  exact ⟨hfiles, hwritten⟩

section

variable {before front rest : List String} {pattern : String} {stdin : List UInt8}
  (hfirst : p.FirstReadable files before pattern front f rest)
  (hinvalid : p.format.Invalid problems) (hconflict : p.run.conflict = none)
  (hstdin : p.run.stdin = false)
include hfirst hinvalid hconflict hstdin

theorem givenUpAt_of_invalid {after : List String}
    (hpatterns : p.run.patterns = before ++ pattern :: after) :
    p.GivenUpAt files stdin problems (p.selection.paths files before ++ front) f := by
  have hhistory := history_of_files hconflict hstdin files stdin
  rw [hpatterns] at hhistory
  have hstop := stop_of_invalid hinvalid hfirst.readable
  constructor
  case visits_eq => rw [hhistory, visitsAmong_of_invalid hfirst hinvalid]
  case readError =>
    exact fun g hg => result_of_not_readable (hfirst.null_not_mem g hg) (hfirst.not_readable g hg)
  case aborted => exact Event.stop?_visited_eq_some.mp hstop
  case stopped =>
    obtain ⟨⟨t, stop⟩, hfollows, hrun⟩ := follows_runAll files stdin hconflict
    have hmem : Event.visited (p.visitOf files f) ∈ p.history files stdin := by
      rw [hhistory, events_of_invalid hfirst hinvalid]
      exact List.mem_append_right _ (List.mem_singleton_self _)
    have hstopped : stop = some (.aborted (Problem.report problems)) :=
      (hfollows.stop_iff _).mpr ⟨_, hmem, hstop⟩
    rw [hrun, hstopped]
    rfl
  case reports =>
    rw [runAll_picks (Piece.skips_isValidation _) hconflict hstdin, hhistory,
      reports_of_invalid hfirst hinvalid]

/-- The patterns behind the first file that can be read have no bearing on the run. -/
theorem runAll_withPatterns_of_invalid (after : List String) :
    (p.withPatterns (before ++ pattern :: after)).runAll (fresh files) stdin
      = (p.withPatterns (before ++ [pattern])).runAll (fresh files) stdin := by
  have hfollows := follows_visitPatterns (p := p) (fresh files) (before ++ [pattern])
  have hstop : (p.selection.visitPatterns p.console p.visit (fresh files) (before ++ [pattern])).2
      = some (.aborted (Problem.report problems)) := by
    rw [hfollows.stop_iff]
    refine ⟨_, ?_, stop_of_invalid hinvalid hfirst.readable⟩
    show _ ∈ p.events files (before ++ [pattern])
    rw [events_of_invalid hfirst hinvalid]
    exact List.mem_append_right _ (List.mem_singleton_self _)
  have hstops : (p.selection.visitPatterns p.console p.visit (fresh files)
      (before ++ [pattern])).2 ≠ none := by simp [hstop]
  rw [runAll_withPatterns hconflict hstdin, runAll_withPatterns hconflict hstdin, List.append_cons]
  exact congrArg finish (Selection.visitAll_append_of_stops after hstops)

end

/-- **Options that do not check never touch a file.** The file makes no difference to whether the
options of a run check. If they do not, a run over files leaves all files as they are, and does not
write to any. As long as no file can be read, every visit ends in an error of reading. The first
file that can be read gives up the run, with one report about the options: no file is visited behind
it, and what patterns come behind its own makes no difference to the run. -/
theorem runAll_of_invalid (p : Processor) (files : FileSystem) (stdin : List UInt8)
    (hconflict : p.run.conflict = none) (hstdin : p.run.stdin = false)
    (hnull : ∀ pattern ∈ p.run.patterns, Glob.hasMagic pattern.toList = false →
      FileSystem.null ∉ pattern.toList) :
    (∀ f g, (∃ settings, Settings.ofOptions (p.format.forFile (some f)) = .ok settings)
        ↔ ∃ settings, Settings.ofOptions (p.format.forFile (some g)) = .ok settings)
      ∧ ∀ problems g, Settings.ofOptions (p.format.forFile (some g)) = .error problems →
        (p.runAll (fresh files) stdin).1.files = files
        ∧ (p.runAll (fresh files) stdin).1.written = []
        ∧ ((∀ f ∈ p.selection.paths files p.run.patterns, ¬ files.Readable f) →
          visitsAmong (p.history files stdin)
              = (p.selection.paths files p.run.patterns).map (p.visitOf files)
            ∧ ∀ f ∈ p.selection.paths files p.run.patterns,
              (p.visitOf files f).result = .ok .readError)
        ∧ ∀ before pattern after front f rest, p.run.patterns = before ++ pattern :: after →
          p.selection.pathsOf files pattern = front ++ f :: rest →
          (∀ g ∈ p.selection.paths files before ++ front, ¬ files.Readable g) → files.Readable f →
            p.GivenUpAt files stdin problems (p.selection.paths files before ++ front) f
            ∧ ∀ later, (p.withPatterns (before ++ pattern :: later)).runAll (fresh files) stdin
                = p.runAll (fresh files) stdin := by
  have hpaths : ∀ f ∈ p.selection.paths files p.run.patterns, FileSystem.null ∉ f.toList :=
    fun f hf => Selection.null_not_mem_of_mem_paths hf hnull
  refine ⟨fun f g => ?_, fun problems g hproblems => ?_⟩
  · rw [Settings.ofOptions_forFile p.format f g]
    cases Settings.ofOptions (p.format.forFile (some g)) <;> simp [Except.map]
  have hinvalid : p.format.Invalid problems := Options.invalid_of_forFile hproblems
  obtain ⟨hfiles, hwritten⟩ := runAll_untouched_of_invalid hinvalid hstdin files stdin
  refine ⟨hfiles, hwritten, fun hnone => ⟨?_, ?_⟩, ?_⟩
  · rw [history_of_files hconflict hstdin]
    exact (spares_of_invalid hinvalid files).visitsAmong_events fun f hf =>
      goesBy_of_not_readable (hpaths f hf) (hnone f hf)
  · exact fun f hf => result_of_not_readable (hpaths f hf) (hnone f hf)
  · intro before pattern after front f rest hpatterns hpath hunreadable hf
    have hbefore : ∀ g ∈ p.selection.paths files before ++ front,
        g ∈ p.selection.paths files p.run.patterns := by
      intro g hg
      rw [hpatterns, Selection.paths_append, Selection.paths_cons, hpath]
      simp only [List.mem_append] at hg ⊢
      exact hg.imp_right fun hfront => Or.inl (Or.inl hfront)
    have hfirst : p.FirstReadable files before pattern front f rest :=
      ⟨hpath, fun g hg => hpaths g (hbefore g hg), hunreadable, hf⟩
    refine ⟨givenUpAt_of_invalid hfirst hinvalid hconflict hstdin hpatterns, fun later => ?_⟩
    have hself : p.withPatterns (before ++ pattern :: after) = p := by
      rw [← hpatterns]
      rfl
    have hsame : ∀ more, (p.withPatterns (before ++ pattern :: more)).runAll (fresh files) stdin
        = (p.withPatterns (before ++ [pattern])).runAll (fresh files) stdin :=
      runAll_withPatterns_of_invalid hfirst hinvalid hconflict hstdin
    rw [hsame later, ← hsame after, hself]

/-- An indentation that is too wide stops a run at the second of three files, as the first one is
missing. -/
theorem runAll_of_invalid_indentSize :
    ∃ (run : RunOptions) (files : FileSystem) (engine : Engine),
      run.patterns = ["a.can", "b.can", "c.can"] ∧ files.Holds "b.can" "a\n".toList
      ∧ (ofRun run [("indent_size", .int 17)] engine {}).GivenUpAt files []
        [⟨"indent_size", .above 16⟩] ["a.can"] "b.can" := by
  let run : RunOptions := { patterns := ["a.can", "b.can", "c.can"], write := true }
  let files := FileSystem.single "b.can".toList "a\n".toList
  let engine := Engine.standard fun _ => default
  let p := ofRun run [("indent_size", .int 17)] engine {}
  have hproblems : Settings.ofOptions (Options.forFile [("indent_size", .int 17)] (some "b.can"))
      = .error [⟨"indent_size", .above 16⟩] := by rfl
  have hholds : files.Holds "b.can" "a\n".toList := rfl
  have hmissing : ∀ g ∈ p.selection.paths files ["a.can"] ++ [], ¬ files.Readable g := by
    have hpaths : p.selection.paths files ["a.can"] ++ [] = ["a.can"] := rfl
    rw [hpaths, List.forall_mem_singleton]
    rintro ⟨source, hsource⟩
    cases hsource
  refine ⟨run, files, engine, rfl, hholds, ?_⟩
  obtain ⟨-, hruns⟩ := runAll_of_invalid p files [] rfl rfl (by decide)
  exact ((hruns _ _ hproblems).2.2.2 ["a.can"] "b.can" ["c.can"] [] "b.can" [] rfl rfl hmissing
    ⟨_, hholds⟩).1

end Processor

end CaplLayout
