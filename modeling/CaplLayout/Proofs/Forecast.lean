import CaplLayout.Proofs.InStep
import CaplLayout.Proofs.Messages

/-!
# Listing foretells writing

A run that lists the files that are not formatted is compared with one that writes them. The first
decides twice whether a file is formatted, by checking its text and by comparing what it is made
into with it; both come to what the second finds, as both ask the same engine (`judge_writing`). So
what the first one tells of a file the second one does (`foretells_visitOf`), and the names that the
first one prints are those of the files that it reports (`printed_listing`).
-/

set_option autoImplicit false

namespace CaplLayout

open Session

namespace Processor

variable (run : RunOptions) (format : Options) (engine : Engine) (console : Console)

/-- The run that lists the files that are not formatted. -/
def listing : Processor := ofRun { run with listDifferent := true } format engine console

/-- The run that writes the files that are not formatted. -/
def writing : Processor := ofRun { run with write := true } format engine console

variable {run format engine console}
variable {files present : FileSystem} {f : String} {source : Text} {out : Formatted}

/-! ## One file -/

/-- Both runs make the same of a file. -/
theorem judge_writing (hplain : run.Plain) :
    (writing run format engine console).judge f source
      = (listing run format engine console).judge f source := by
  rw [judge_eq (mode_of_plain hplain engine), judge_eq (mode_of_plain hplain engine)]
  rfl

theorem conflict_listing (hplain : run.Plain) :
    (listing run format engine console).run.conflict = none := by
  simp [listing, ofRun, RunOptions.conflict, hplain.write]

theorem conflict_writing (hplain : run.Plain) :
    (writing run format engine console).run.conflict = none := by
  simp [writing, ofRun, RunOptions.conflict, hplain.debugCheck, hplain.debugPrintDoc]

theorem keptAs_listing (hplain : run.Plain) (output : Text) :
    (listing run format engine console).keptAs output source
      = some (if output = source then .unchanged else .reported) := by
  simp [keptAs, listing, ofRun, hplain.write, hplain.debugCheck]

theorem result_listing (hplain : run.Plain) (hholds : files.Holds f source)
    (hjudge : (listing run format engine console).judge f source = .ok out) :
    ((listing run format engine console).visitOf files f).result
      = .ok (if out.text = source then .unchanged else .reported) :=
  ((processed_visitOf (listing run format engine console) files f).eq_of_keptAs hholds hjudge
    (keptAs_listing hplain out.text)).2

/-- A run that lists leaves all files as they are. -/
theorem spares_listing (hplain : run.Plain) (files : FileSystem) :
    (listing run format engine console).Spares files := fun f =>
  (processed_visitOf (listing run format engine console) files f).files_eq hplain.write

theorem output_fail_eq (p q : Processor) (s t : Session) (failure : Failure)
    (hconsole : q.console = p.console) (houtput : t.output = s.output) :
    (q.fail t f failure).1.output = (p.fail s f failure).1.output := by
  unfold fail
  rw [hconsole]
  cases failure <;> simp [Session.report, Session.print, Session.escalate, houtput]

/-- A text that cannot be formatted is reported alike by both runs. -/
theorem output_eq_of_error (hplain : run.Plain) {failure : Failure}
    (hholds : files.Holds f source) (hholds' : present.Holds f source)
    (hjudge : (listing run format engine console).judge f source = .error failure) :
    ((writing run format engine console).visitOf present f).left.output
      = ((listing run format engine console).visitOf files f).left.output := by
  have hmode : (formatterFor run engine).mode = .plain := mode_of_plain hplain engine
  have hformat : (formatterFor run engine).format (format.forFile (some f)) source
      = .error failure := by
    rw [Formatter.format_eq_of_plain hmode]
    exact (judge_eq (p := listing run format engine console) hmode).symm.trans hjudge
  have hcheck : (formatterFor run engine).isFormatted (format.forFile (some f)) source
      = .error failure := by
    rw [Formatter.isFormatted_eq_of_plain hmode, hformat]
    rfl
  have hl := process_eq_fail (p := listing run format engine console) hholds hcheck hformat
  have hw := process_eq_fail (p := writing run format engine console) hholds' hcheck hformat
  unfold visitOf
  rw [hl, hw]
  exact output_fail_eq _ _ _ _ _ rfl rfl

/-- A file without a text is reported alike by both runs. -/
theorem output_eq_of_unreadable
    (hopen : present.openFile (Path.ofString f).text = files.openFile (Path.ofString f).text)
    (hnone : ∀ source, ¬ files.Holds f source) :
    ((writing run format engine console).visitOf present f).left.output
      = ((listing run format engine console).visitOf files f).left.output := by
  have hread : readText (fresh present).files (Path.ofString f).text
      = readText files (Path.ofString f).text := by
    show readText present _ = _
    unfold readText FileSystem.read
    rw [hopen]
  have hfresh : readText (fresh files).files (Path.ofString f).text
      = readText files (Path.ofString f).text := rfl
  unfold visitOf process
  dsimp only
  rw [hread, hfresh]
  cases h : readText files (Path.ofString f).text with
  | error e => cases e <;> rfl
  | ok r =>
      cases r with
      | error reason => rfl
      | ok source => exact absurd h (hnone source)

theorem foretells_visitOf (hplain : run.Plain) (hnull : FileSystem.null ∉ f.toList)
    {names : List String} (hstill : files.StillReads present names) (hf : f ∈ names) :
    Foretells ((listing run format engine console).visitOf files f)
      ((writing run format engine console).visitOf present f) := by
  have hl := processed_visitOf (listing run format engine console) files f
  have hw := processed_visitOf (writing run format engine console) present f
  have hname : ((writing run format engine console).visitOf present f).filename
      = ((listing run format engine console).visitOf files f).filename := rfl
  -- both runs find the same text, or none
  by_cases hholds : ∃ source, files.Holds f source
  · obtain ⟨source, hholds⟩ := hholds
    have hholds' := (hstill.holds_iff hf).mpr hholds
    cases hjudge : (listing run format engine console).judge f source with
    | error failure =>
        have hresult := hl.result_eq_ending hholds hjudge
        have hresult' := hw.result_eq_ending hholds' ((judge_writing hplain).trans hjudge)
        have hreport := output_eq_of_error hplain hholds hholds' hjudge
        refine .of_result_eq hname (hresult.trans hresult'.symm) ?_ ?_ ?_ fun _ => hreport
        all_goals
          rw [hresult']
          cases failure <;> simp [Failure.ending]
    | ok out =>
        have hjudge' := (judge_writing hplain).trans hjudge
        have hresult := result_listing hplain hholds hjudge
        by_cases hsame : out.text = source
        · have hresult' := (hw.eq_of_keptAs hholds' hjudge' (keptAs_of_eq rfl hsame)).2
          rw [if_pos hsame] at hresult
          refine .of_result_eq hname (hresult.trans hresult'.symm) ?_ ?_ ?_ ?_ <;>
            simp [hresult, hresult']
        · rw [if_neg hsame] at hresult
          have hwritten := hw.result_of_write hholds' hjudge' rfl hsame
          exact .of_reported hname hresult (hwritten.symm.imp And.right And.right)
  · have hnone : ∀ source, ¬ files.Holds f source := fun source h => hholds ⟨source, h⟩
    have hnone' : ∀ source, ¬ present.Holds f source :=
      fun source h => hnone source ((hstill.holds_iff hf).mp h)
    have hresult := hl.result_eq_readError (Path.null_not_mem_text hnull) hnone
    have hresult' := hw.result_eq_readError (Path.null_not_mem_text hnull) hnone'
    have hreport : ((writing run format engine console).visitOf present f).left.output
        = ((listing run format engine console).visitOf files f).left.output :=
      output_eq_of_unreadable (hstill.openFile_eq f hf) hnone
    refine .of_result_eq hname (hresult.trans hresult'.symm) ?_ ?_ ?_ fun _ => hreport <;>
      simp [hresult']

theorem inStep_listing_writing (hplain : run.Plain) (files : FileSystem) :
    InStep (listing run format engine console) (writing run format engine console) files :=
  ⟨rfl, spares_listing hplain files,
    fun hstill hf hnull => foretells_visitOf hplain hnull hstill hf⟩

/-! ## What a run prints that lists -/

theorem printed_refuse (p : Processor) (s : Session) (message : String) (o : Outcome) :
    (p.refuse s message o).1.printed .out = s.printed .out := by
  show (s.print (p.console.echoLine .err message)).printed .out = _
  rw [printed_print]
  simp [Console.echoLine, Console.echo, Piece.printed]

theorem printed_fail (p : Processor) (s : Session) (label : String) (failure : Failure) :
    (p.fail s label failure).1.printed .out = s.printed .out := by
  have hline : ∀ line, Piece.printed .out (p.console.echoLine .err line) = [] := by
    intro line
    simp [Console.echoLine, Console.echo, Piece.printed]
  have hlog := fun line => (Piece.printed_log p.console line).1
  have hescalate : ∀ t : Session, (t.escalate .failure).printed .out = t.printed .out :=
    fun _ => rfl
  cases failure with
  | validation m =>
      show (s.print _).printed .out = _
      rw [printed_print, hline, List.append_nil]
  | parse | io | unexpected =>
      show ((((s.print _).print _)).escalate .failure).printed .out = _
      rw [hescalate, printed_print, printed_print, hline, hlog, List.append_nil, List.append_nil]

theorem snd_fail_ne_reported (p : Processor) (s : Session) (label : String) (failure : Failure) :
    (p.fail s label failure).2 ≠ .ok .reported := by
  cases failure <;> simp [fail, Session.report]

/-- A text that has been checked can be formatted, and the check has told what comes of it. -/
theorem exists_format_of_isFormatted {formatter : Formatter} {options : Options} {b : Bool}
    (hmode : formatter.mode = .plain) (h : formatter.isFormatted options source = .ok b) :
    ∃ out, formatter.format options source = .ok out ∧ b = decide (out.text = source) := by
  rw [Formatter.isFormatted_eq_of_plain hmode] at h
  cases hformat : formatter.format options source with
  | error e =>
      rw [hformat] at h
      cases h
  | ok out =>
      rw [hformat] at h
      exact ⟨out, rfl, (Except.ok.inj h).symm⟩

/-- Once its text is formatted, a file that is listed is neither printed nor written. -/
theorem formatFile_listing (hplain : run.Plain) (s : Session) (path : Text)
    (hformat : (listing run format engine console).formatter.format
      (format.forFile (some f)) source = .ok out) :
    ∃ line, (listing run format engine console).formatFile s f path source
      = (s.print (console.log line),
          .ok (if out.text = source then .unchanged else .reported)) := by
  have hwrite : (listing run format engine console).run.write = false := hplain.write
  have hcheck : (listing run format engine console).run.debugCheck = false := hplain.debugCheck
  have hlist : (listing run format engine console).run.listDifferent = true := rfl
  have hformat' : (listing run format engine console).formatter.format
      ((listing run format engine console).format.forFile (some f)) source = .ok out := hformat
  unfold formatFile dispose
  rw [hformat']
  dsimp only
  rw [hwrite, hcheck, hlist, if_neg (by simp), if_neg (by simp), if_pos rfl]
  exact ⟨_, rfl⟩

theorem printed_noteDifferent (hplain : run.Plain) (files : FileSystem) (f : String) :
    ((listing run format engine console).noteDifferent (fresh files) f).printed .out
      = console.shown (f.toList ++ ['\n']) := by
  have hwrite : (listing run format engine console).run.write = false := hplain.write
  unfold noteDifferent
  rw [hwrite]
  show Session.printed ((fresh files).print (console.echoLine .out f)) .out = _
  rw [printed_print]
  simp [Console.echoLine, Console.echo, Piece.printed, Session.printed, fresh]

/-- A step prints the name of a file exactly if it reports the file, and nothing else. -/
def Lists (console : Console) (f : String) (r : Step Outcome) : Prop :=
  (r.2 = .ok .reported → r.1.printed .out = console.shown (f.toList ++ ['\n']))
    ∧ (r.2 ≠ .ok .reported → r.1.printed .out = [])

theorem lists_of_silent {r : Step Outcome} (hprinted : r.1.printed .out = [])
    (hne : r.2 ≠ .ok .reported) : Lists console f r :=
  ⟨fun h => absurd h hne, fun _ => hprinted⟩

theorem lists_processText (hplain : run.Plain) (files : FileSystem) (path : Text) :
    Lists console f
      ((listing run format engine console).processText (fresh files) f path source) := by
  have hmode : (listing run format engine console).formatter.mode = .plain :=
    mode_of_plain hplain engine
  have hlist : (listing run format engine console).run.listDifferent = true := rfl
  have hlog := fun line => (Piece.printed_log console line).1
  unfold processText
  rw [if_pos hlist]
  split
  · exact lists_of_silent (printed_fail _ (fresh files) _ _) (snd_fail_ne_reported _ _ _ _)
  · next hcheck =>
      obtain ⟨out, hformat, hsame⟩ := exists_format_of_isFormatted hmode hcheck
      have hsame' : out.text = source := of_decide_eq_true hsame.symm
      obtain ⟨line, hfile⟩ := formatFile_listing hplain (fresh files) path hformat
      rw [hfile, if_pos hsame']
      refine lists_of_silent ?_ (by simp)
      rw [printed_print, hlog]
      rfl
  · next hcheck =>
      obtain ⟨out, hformat, hother⟩ := exists_format_of_isFormatted hmode hcheck
      have hother' : out.text ≠ source := of_decide_eq_false hother.symm
      obtain ⟨line, hfile⟩ := formatFile_listing hplain
        ((listing run format engine console).noteDifferent (fresh files) f) path hformat
      rw [hfile, if_neg hother']
      refine ⟨fun _ => ?_, fun hne => absurd rfl hne⟩
      rw [printed_print, hlog, List.append_nil, printed_noteDifferent hplain]

/-- **A file that is reported is printed by its name**, and of no other is anything printed. -/
theorem lists_process (hplain : run.Plain) (files : FileSystem) (f : String) :
    Lists console f ((listing run format engine console).process (fresh files) f) := by
  unfold process
  dsimp only
  split
  · exact lists_of_silent rfl (by simp)
  · exact lists_of_silent (printed_refuse _ (fresh files) _ _) (by simp [refuse])
  · exact lists_of_silent (printed_refuse _ (fresh files) _ _) (by simp [refuse])
  · exact lists_processText hplain files _

end Processor

/-! ## Two runs compared -/

/-- Whether the file of a visit is reported. -/
def Visit.isReported (v : Visit) : Bool :=
  match v.result with
  | .ok o => o = .reported
  | .error _ => false

theorem Visit.isReported_iff {v : Visit} : v.isReported = true ↔ v.result = .ok .reported := by
  unfold isReported
  cases v.result <;> simp

/-- The line with the name of a file. -/
def Visit.line (v : Visit) : Text := v.filename.toList ++ ['\n']

/-- A name without sequences that set colours is shown as it is. -/
theorem Console.shown_name (console : Console) {name : Text}
    (h : ∀ t, IsSequence t → ¬ t <:+: name) : console.shown (name ++ ['\n']) = name ++ ['\n'] := by
  refine (shown_eq_self_iff console _).mpr (Or.inr fun t ht hinfix => ?_)
  rcases List.infix_concat_iff.mp hinfix with hsuffix | hinfix
  · -- a sequence ends in a letter, and so not at the end of the line
    obtain ⟨params, c, rfl, -, hc⟩ := ht
    rcases List.suffix_concat_iff.mp hsuffix with hnil | ⟨front, hfront, -⟩
    · cases hnil
    · have hlast := congrArg List.getLast? hfront
      rw [List.getLast?_concat, ← List.cons_append, ← List.cons_append, List.getLast?_concat]
        at hlast
      cases hlast
      exact absurd hc (by decide)
  · exact h t ht hinfix

/-- Visits that print the names of the files they report print these in their order. -/
theorem flatMap_printed_pieces {es : List Event}
    (h : ∀ e ∈ es, (∃ pattern, e = .unsearchable pattern) ∨ ∃ v, e = .visited v
      ∧ v.left.printed .out = if v.isReported then v.line else []) :
    es.flatMap (fun e => Piece.printed .out e.pieces)
      = ((visitsAmong es).filter Visit.isReported).flatMap Visit.line := by
  induction es with
  | nil => rfl
  | cons e es ih =>
      have hes := ih fun e' he' => h e' (List.mem_cons_of_mem _ he')
      rw [List.flatMap_cons, hes]
      rcases h e List.mem_cons_self with ⟨pattern, rfl⟩ | ⟨v, rfl, hv⟩
      · rfl
      · have hpieces : Piece.printed .out (Event.visited v).pieces = v.left.printed .out := rfl
        have hvisits : visitsAmong (.visited v :: es) = v :: visitsAmong es := rfl
        rw [hpieces, hv, hvisits, List.filter_cons]
        split <;> rfl

namespace Processor

variable {run : RunOptions} {format : Options} {engine : Engine} {console : Console}
  {files : FileSystem} {stdin : List UInt8}

theorem printed_listing (hplain : run.Plain) (hfiles : run.stdin = false)
    (hnames : ∀ f ∈ (listing run format engine console).selection.paths files run.patterns,
      ∀ t, Console.IsSequence t → ¬ t <:+: f.toList) :
    ((listing run format engine console).runAll (fresh files) stdin).1.printed .out
      = ((visitsAmong ((listing run format engine console).history files stdin)).filter
          Visit.isReported).flatMap Visit.line := by
  have hconflict : (listing run format engine console).run.conflict = none :=
    conflict_listing hplain
  have hstdin : (listing run format engine console).run.stdin = false := hfiles
  have hpicks := runAll_picks (p := listing run format engine console)
    (Piece.skips_isOut console) hconflict hstdin files stdin
  rw [Session.printed, Piece.printed_out, hpicks, List.flatMap_assoc]
  simp only [← Piece.printed_out]
  refine flatMap_printed_pieces fun e he => ?_
  rw [history_of_files hconflict hstdin] at he
  rcases (spares_listing hplain files).mem_events he with ⟨pattern, rfl⟩ | ⟨f, hf, rfl⟩
  · exact Or.inl ⟨pattern, rfl⟩
  · refine Or.inr ⟨_, rfl, ?_⟩
    have hlists : Lists console f ((listing run format engine console).process (fresh files) f) :=
      lists_process hplain files f
    split
    · next hreported =>
        exact (hlists.1 (Visit.isReported_iff.mp hreported)).trans
          (console.shown_name (hnames f hf))
    · next hreported => exact hlists.2 fun h => hreported (Visit.isReported_iff.mpr h)

/-- **Listing foretells writing.** Of two runs over patterns that stand for different files, one
lists the files that are not formatted and the other writes them. Either both are given up, with the
same report, or both come to all paths that the patterns stand for, in order. Whichever it is, they
visit the same files, and a file is reported by the first exactly if the second writes it or fails
to, left unchanged exactly if it is left unchanged, and ends in an error exactly if it ends in the
same one. The first prints the names of the files that it reports, and nothing else. -/
theorem runAll_listing_writing (run : RunOptions) (format : Options) (engine : Engine)
    (console : Console) (files : FileSystem) (stdin : List UInt8) (hplain : run.Plain)
    (hfiles : run.stdin = false)
    (hnames : ∀ f ∈ (listing run format engine console).selection.paths files run.patterns,
      FileSystem.null ∉ f.toList ∧ ∀ t, Console.IsSequence t → ¬ t <:+: f.toList)
    (hdistinct : ((listing run format engine console).selection.paths files run.patterns).Pairwise
      files.Distinct) :
    let l := listing run format engine console
    let w := writing run format engine console
    ((∃ m, (l.runAll (fresh files) stdin).2 = .error (.aborted m)
          ∧ (w.runAll (fresh files) stdin).2 = .error (.aborted m))
        ∨ ((∃ code, (l.runAll (fresh files) stdin).2 = .ok code)
          ∧ (∃ code, (w.runAll (fresh files) stdin).2 = .ok code)
          ∧ (visitsAmong (l.history files stdin)).map Visit.filename
              = l.selection.paths files run.patterns))
      ∧ List.Forall₂ Foretells (visitsAmong (l.history files stdin))
          (visitsAmong (w.history files stdin))
      ∧ (l.runAll (fresh files) stdin).1.printed .out
          = ((visitsAmong (l.history files stdin)).filter Visit.isReported).flatMap Visit.line := by
  intro l w
  have hnull : ∀ f ∈ l.selection.paths files l.run.patterns, FileSystem.null ∉ f.toList :=
    fun f hf => (hnames f hf).1
  obtain ⟨hends, hforetells⟩ := (inStep_listing_writing hplain files).runAll
    (conflict_listing hplain) (conflict_writing hplain) hfiles hfiles rfl stdin hdistinct hnull
  exact ⟨hends, hforetells, printed_listing hplain hfiles fun f hf => (hnames f hf).2⟩

theorem result_listing_standard (hplain : run.Plain) {f : String} {source : Text}
    (hholds : files.Holds f source) :
    ((listing run [] (.standard fun _ => default) console).visitOf files f).result
      = .ok (if Layout.canonical { filepath := f } source = source then .unchanged
          else .reported) := by
  obtain ⟨cursor, hformat⟩ := Engine.exists_format_default (Engine.resolve_forFile_nil f) rfl rfl rfl
  exact result_listing hplain hholds ((judge_eq_ok_iff (mode_of_plain hplain _)).mpr hformat)

/-- A file system with two files, of which the second one is formatted. -/
def twoFiles : FileSystem :=
  { root := .directory [("a.can".toList, .file (Utf8.encode "a \n".toList)),
      ("b.can".toList, .file (Utf8.encode "b\n".toList))], cwd := [] }

theorem distinct_twoFiles : twoFiles.Distinct "a.can" "b.can" := by
  intro place bytes place' bytes' ha hb
  have ha' : twoFiles.openFile (Path.ofString "a.can").text
      = .ok (["a.can".toList], Utf8.encode "a \n".toList) := rfl
  have hb' : twoFiles.openFile (Path.ofString "b.can").text
      = .ok (["b.can".toList], Utf8.encode "b\n".toList) := rfl
  cases ha'.symm.trans ha
  cases hb'.symm.trans hb
  decide

/-- A file whose text ends in a blank is listed by the one run and written by the other. Both leave
the file behind it, which is formatted, as it is. -/
theorem runAll_listing_writing_blank :
    ∃ (run : RunOptions) (engine : Engine) (v w : Visit), run.patterns = ["a.can", "b.can"]
      ∧ twoFiles.Holds "a.can" "a \n".toList ∧ twoFiles.Holds "b.can" "b\n".toList
      ∧ twoFiles.Distinct "a.can" "b.can"
      ∧ ((listing run [] engine {}).runAll (fresh twoFiles) []).1.printed .out = "a.can\n".toList
      ∧ visitsAmong ((writing run [] engine {}).history twoFiles []) = [v, w]
      ∧ v.filename = "a.can" ∧ (v.result = .ok .written ∨ v.result = .ok .writeError)
      ∧ w.filename = "b.can" ∧ w.result = .ok .unchanged := by
  let run : RunOptions := { patterns := ["a.can", "b.can"] }
  let engine := Engine.standard fun _ => default
  let l := listing run [] engine {}
  have hplain : run.Plain := ⟨rfl, rfl, rfl, rfl⟩
  have hpaths : l.selection.paths twoFiles run.patterns = ["a.can", "b.can"] := rfl
  have hnames : ∀ f ∈ l.selection.paths twoFiles run.patterns,
      FileSystem.null ∉ f.toList ∧ ∀ t, Console.IsSequence t → ¬ t <:+: f.toList := by
    have hplainName : ∀ f ∈ ["a.can", "b.can"],
        FileSystem.null ∉ f.toList ∧ Console.plain f.toList = f.toList := by decide
    intro f hf
    obtain ⟨hnull, hname⟩ := hplainName f hf
    exact ⟨hnull, (Console.plain_eq_self_iff _).mp hname⟩
  have hdistinct : (l.selection.paths twoFiles run.patterns).Pairwise twoFiles.Distinct := by
    rw [hpaths]
    exact List.pairwise_pair.mpr distinct_twoFiles
  obtain ⟨-, hforetells, hprinted⟩ :=
    runAll_listing_writing run [] engine {} twoFiles [] hplain rfl hnames hdistinct
  -- the run that lists comes to both files
  have hfirst : twoFiles.Holds "a.can" "a \n".toList := rfl
  have hsecond : twoFiles.Holds "b.can" "b\n".toList := rfl
  have ha : (l.visitOf twoFiles "a.can").result = .ok .reported := by
    rw [result_listing_standard hplain hfirst, if_neg (by decide)]
  have hb : (l.visitOf twoFiles "b.can").result = .ok .unchanged := by
    rw [result_listing_standard hplain hsecond, if_pos (by decide)]
  have hgoes : ∀ f ∈ l.selection.paths twoFiles l.run.patterns, l.GoesBy twoFiles f :=
    List.forall_mem_cons.mpr ⟨Event.stop?_visited_eq_none.mpr ⟨_, ha⟩,
      List.forall_mem_singleton.mpr (Event.stop?_visited_eq_none.mpr ⟨_, hb⟩)⟩
  have hvisits : visitsAmong (l.history twoFiles [])
      = [l.visitOf twoFiles "a.can", l.visitOf twoFiles "b.can"] := by
    rw [history_of_files (conflict_listing hplain) rfl,
      (spares_listing hplain twoFiles).visitsAmong_events hgoes]
    rfl
  -- and its visits tell those of the run that writes
  rw [hvisits] at hforetells hprinted
  obtain ⟨v, rest, hv, hrest, hhistory⟩ := List.forall₂_cons_left_iff.mp hforetells
  obtain ⟨w, rest, hw, hnil, rfl⟩ := List.forall₂_cons_left_iff.mp hrest
  cases hnil
  refine ⟨run, engine, v, w, rfl, hfirst, hsecond, distinct_twoFiles, ?_, hhistory, hv.filename_eq,
    hv.reported_iff.mp ha, hw.filename_eq, hw.unchanged_iff.mp hb⟩
  have hreported := Visit.isReported_iff.mpr ha
  have hnot : ¬ (l.visitOf twoFiles "b.can").isReported = true := by
    rw [Visit.isReported_iff, hb]
    simp
  rw [hprinted, List.filter_cons_of_pos hreported, List.filter_cons_of_neg hnot, List.filter_nil,
    List.flatMap_singleton]
  show "a.can".toList ++ ['\n'] = "a.can\n".toList
  decide

end Processor

end CaplLayout
