import CaplLayout.Proofs.Printing
import CaplLayout.Proofs.SelfCheck

/-!
# Files and the standard input

The text of a file is formatted as it stands; in a text from the standard input all line terminators
are line feeds already. Formatting unifies pairs of a carriage return and a line feed by itself, so
in a text without lone carriage returns the difference is only where offsets point. Lone carriage
returns stay in a file, since the rules never take one away (`Layout.count_final`) and printing does
not either (`Console.count_shown`); from the standard input there are none. So the two ways do not
agree on such a text (`exit_or_out_ne`).
-/

set_option autoImplicit false

namespace CaplLayout

/-! ## Carriage returns -/

theorem Text.not_mem_unifyTerminators (s : Text) : '\r' ∉ s.unifyTerminators := by
  rw [unifyTerminators, List.mem_map]
  rintro ⟨c, -, hc⟩
  split at hc
  · cases hc
  · next hne => exact hne hc

/-- Without lone carriage returns, line terminators are pairs and line feeds. -/
theorem Text.unifyTerminators_of_not_mem {s : Text} (h : '\r' ∉ s.unifyPairs) :
    s.unifyTerminators = s.unifyPairs := by
  refine (List.map_congr_left fun c hc => ?_).trans (List.map_id _)
  rw [if_neg]
  · rfl
  · rintro rfl
    exact h hc

/-- Once line terminators are unified, there are no pairs left. -/
theorem Text.unifyPairs_unifyTerminators (s : Text) :
    s.unifyTerminators.unifyPairs = s.unifyTerminators := by
  have hcount := count_unifyPairs s.unifyTerminators
  rw [List.count_eq_zero.mpr (not_mem_unifyTerminators s)] at hcount
  exact unifyPairs_of_pairs_eq_zero (by omega)

namespace Console

theorem IsSequence.return_not_mem {t : Text} (h : IsSequence t) : '\r' ∉ t := by
  obtain ⟨params, c, rfl, hparams, hc⟩ := h
  have hparam : '\r' ∉ params := fun hmem => absurd (hparams _ hmem) (by decide)
  have hfinal : '\r' ≠ c := by
    rintro rfl
    exact absurd hc (by decide)
  simp [hparam, hfinal, escape]

/-- Carriage returns are no parts of sequences. -/
theorem count_plainFrom (skip : Nat) (s : Text) (h : '\r' ∉ s.take skip) :
    (plainFrom skip s).count '\r' = s.count '\r' := by
  induction s generalizing skip with
  | nil => simp [plainFrom]
  | cons c r ih =>
      have hskip : ∀ n, '\r' ∉ (c :: r).take (n + 1) →
          (plainFrom n r).count '\r' = (c :: r).count '\r' := by
        intro n hn
        rw [List.take_succ_cons, List.mem_cons, not_or] at hn
        rw [ih n hn.2, List.count_cons_of_ne (Ne.symm hn.1)]
      rw [plainFrom]
      split
      · next hne =>
          exact hskip (skip - 1) (by rwa [Nat.sub_add_cancel (Nat.pos_of_ne_zero hne)])
      · dsimp only
        split
        · rw [List.count_cons, List.count_cons, ih 0 (by simp)]
        · next hne =>
            refine hskip _ ?_
            rw [Nat.sub_add_cancel (Nat.pos_of_ne_zero hne)]
            exact (isSequence_take hne).return_not_mem

theorem count_shown (console : Console) (s : Text) :
    (console.shown s).count '\r' = s.count '\r' := by
  unfold shown
  split
  · rfl
  · exact count_plainFrom 0 s (by simp)

end Console

/-! ## Two ways to format a text -/

/-- Processing a file and a run over the standard input print the same to both streams and come to
the same exit code. -/
structure Agree (file : Step Outcome) (piped : Step ExitCode) : Prop where
  exit : piped.2 = .ok file.1.exit
  out : piped.1.printed .out = file.1.printed .out
  err : piped.1.printed .err = file.1.printed .err

namespace Processor

open Session

variable {p : Processor} {files : FileSystem} {stdin : List UInt8} {source : Text} {out : Formatted}
  (others : FileSystem)

/-- A run over a standard input that can be formatted prints the formatted text and the cursor. -/
theorem runAll_of_stdin (hstdin : p.run.stdin = true) (hconflict : p.run.conflict = none)
    (hdecode : Utf8.decode stdin = .ok source)
    (hformat : p.formatter.format p.format source.unifyTerminators = .ok out) :
    (p.runAll (fresh others) stdin).2 = .ok .success
      ∧ (p.runAll (fresh others) stdin).1.printed .out = p.console.shown out.text
      ∧ (p.runAll (fresh others) stdin).1.printed .err = p.cursorLine out := by
  have hrun : p.runAll (fresh others) stdin
      = (p.printResult (fresh others) out, .ok (p.printResult (fresh others) out).exit) := by
    unfold runAll runStdin processSource
    simp [hconflict, hstdin, hdecode, hformat]
  obtain ⟨hout, herr⟩ := printed_printResult p (fresh others) out
  rw [hrun]
  refine ⟨?_, hout, herr⟩
  rw [exit_printResult]
  rfl

/-- A run over a standard input that cannot be formatted does not end in success. -/
theorem runAll_of_stdin_error {f : Failure} (hstdin : p.run.stdin = true)
    (hconflict : p.run.conflict = none) (hdecode : Utf8.decode stdin = .ok source)
    (hformat : p.formatter.format p.format source.unifyTerminators = .error f) :
    (p.runAll (fresh others) stdin).2 ≠ .ok .success := by
  unfold runAll runStdin processSource fail report
  rw [hconflict]
  cases f <;>
    simp [hstdin, hdecode, hformat, escalate, fresh, print, ExitCode.escalate, ExitCode.toNat]

theorem cursorRequested_forFile (o : Options) (path : Option String) :
    (o.forFile path).cursorRequested = o.cursorRequested := by
  cases path with
  | none => rfl
  | some f =>
      unfold Options.cursorRequested Options.forFile
      rw [Options.get?_put, if_neg (by decide)]

section

variable {g : Grammar} {run : RunOptions} {format : Options} {console : Console}
  {settings : Settings} {tree : Tree} {filename : String}
  {place : List Text} {bytes : List UInt8}

/-- What the built-in rules make of a text. -/
def formatted (settings : Settings) (source : Text) : Formatted :=
  ⟨((Progress.start settings source).final settings).text,
    ((Progress.start settings source).final settings).cursor⟩

theorem formatterFor_format (hplain : run.Plain)
    (hresolve : Engine.resolve (format.forFile (some filename)) = .ok settings)
    (hparse : (Engine.standard g).parse settings source = .ok tree) :
    (formatterFor run (.standard g)).format (format.forFile (some filename)) source
      = .ok (formatted settings source) := by
  rw [Formatter.format_eq_of_plain (mode_of_plain hplain _)]
  exact congrArg (Except.mapError _) (Engine.format_eq hresolve hparse)

theorem formatterFor_format_error {fault : Fault} (hplain : run.Plain)
    (hresolve : Engine.resolve (format.forFile (some filename)) = .ok settings)
    (hparse : (Engine.standard g).parse settings source = .error fault) :
    ∃ f, (formatterFor run (.standard g)).format (format.forFile (some filename)) source
      = .error f := by
  rw [Formatter.format_eq_of_plain (mode_of_plain hplain _)]
  show ∃ f, ((Engine.standard g).format _ source).mapError _ = .error f
  rw [Engine.format, hresolve]
  simp only [Engine.formatWith, hparse, bind, Except.bind]
  exact ⟨_, rfl⟩

/-- The built-in rules keep the carriage returns that are left once pairs are unified. -/
theorem count_formatted (settings : Settings) (source : Text) :
    (formatted settings source).text.count '\r' = source.unifyPairs.count '\r' :=
  Layout.count_final rfl settings (Progress.start settings source)

theorem plain_withStdin (h : run.Plain) : RunOptions.Plain { run with stdin := true } :=
  ⟨h.write, h.listDifferent, h.debugCheck, h.debugPrintDoc⟩

theorem conflict_of_plain (h : run.Plain) : run.conflict = none := by
  simp [RunOptions.conflict, h.write]

/-- **What is printed of a file, and of the same bytes from the standard input**, if the texts that
come of both can be formatted. -/
theorem printed_file_and_stdin {tree' : Tree} (console : Console) (hplain : run.Plain)
    (hholds : files.Holds filename source) (hdecode : Utf8.decode bytes = .ok source)
    (hresolve : Engine.resolve (format.forFile (some filename)) = .ok settings)
    (hparse : (Engine.standard g).parse settings source = .ok tree)
    (hparse' : (Engine.standard g).parse settings source.unifyTerminators = .ok tree') :
    let p := ofRun run format (.standard g) console
    let file := p.process (fresh files) filename
    let piped := (ofRun { run with stdin := true } (format.forFile (some filename)) (.standard g)
      console).runAll (fresh others) bytes
    piped.2 = .ok file.1.exit
      ∧ file.1.printed .out = console.shown (formatted settings source).text
      ∧ piped.1.printed .out = console.shown (formatted settings source.unifyTerminators).text
      ∧ (console.verbose = false →
        file.1.printed .err = p.cursorLine (formatted settings source))
      ∧ piped.1.printed .err = p.cursorLine (formatted settings source.unifyTerminators) := by
  intro p file piped
  have hplain' := plain_withStdin hplain
  obtain ⟨-, hsuccess, hout, herr⟩ :=
    process_of_plain (p := p) hplain hholds (formatterFor_format hplain hresolve hparse)
  obtain ⟨hexit', hout', herr'⟩ := runAll_of_stdin others
    (p := ofRun { run with stdin := true } (format.forFile (some filename)) (.standard g) console)
    rfl (conflict_of_plain hplain') hdecode (formatterFor_format hplain' hresolve hparse')
  refine ⟨hexit'.trans (congrArg Except.ok hsuccess.symm), hout, hout', herr, herr'.trans ?_⟩
  -- the path among the options has nothing to do with the cursor
  unfold cursorLine
  show (if (format.forFile (some filename)).cursorRequested = true then _ else _) = _
  rw [cursorRequested_forFile]
  rfl

/-- **A text with lone carriage returns is formatted in two ways**: in a file they stay, and from
the standard input they come as line feeds. -/
theorem exit_or_out_ne (console : Console) (hplain : run.Plain)
    (hholds : files.Holds filename source) (hdecode : Utf8.decode bytes = .ok source)
    (hresolve : Engine.resolve (format.forFile (some filename)) = .ok settings)
    (hparse : (Engine.standard g).parse settings source = .ok tree)
    (hreturn : '\r' ∈ source.unifyPairs) :
    let file := (ofRun run format (.standard g) console).process (fresh files) filename
    let piped := (ofRun { run with stdin := true } (format.forFile (some filename)) (.standard g)
      console).runAll (fresh others) bytes
    ¬ (piped.2 = .ok file.1.exit ∧ piped.1.printed .out = file.1.printed .out) := by
  rintro file piped ⟨hexit, hout⟩
  cases hparse' : (Engine.standard g).parse settings source.unifyTerminators with
  | error fault =>
      have hplain' := plain_withStdin hplain
      obtain ⟨-, hsuccess, -⟩ := process_of_plain (p := ofRun run format (.standard g) console)
        hplain hholds (formatterFor_format hplain hresolve hparse)
      obtain ⟨f, hformat⟩ := formatterFor_format_error hplain' hresolve hparse'
      have hsuccess' : piped.2 = .ok .success := hexit.trans (congrArg Except.ok hsuccess)
      exact runAll_of_stdin_error others rfl (conflict_of_plain hplain') hdecode hformat hsuccess'
  | ok tree' =>
      obtain ⟨-, hfile, hpiped, -⟩ :=
        printed_file_and_stdin others console hplain hholds hdecode hresolve hparse hparse'
      have hsame : source.unifyTerminators.unifyPairs.count '\r'
          = source.unifyPairs.count '\r' := by
        calc source.unifyTerminators.unifyPairs.count '\r'
            = (formatted settings source.unifyTerminators).text.count '\r' :=
              (count_formatted _ _).symm
          _ = (console.shown (formatted settings source.unifyTerminators).text).count '\r' :=
              (Console.count_shown _ _).symm
          _ = (console.shown (formatted settings source).text).count '\r' :=
              congrArg (List.count '\r') (hpiped.symm.trans (hout.trans hfile))
          _ = (formatted settings source).text.count '\r' := Console.count_shown _ _
          _ = source.unifyPairs.count '\r' := count_formatted _ _
      have hnone : '\r' ∉ source.unifyTerminators.unifyPairs := by
        rw [Text.unifyPairs_unifyTerminators]
        exact Text.not_mem_unifyTerminators source
      rw [List.count_eq_zero.mpr hnone] at hsame
      exact List.count_eq_zero.mp hsame.symm hreturn

/-- Without a range the formatted text is the same in both, whether a cursor is followed or not. -/
theorem text_formatted_unifyTerminators (hreturn : '\r' ∉ source.unifyPairs)
    (hstart : settings.rangeStart = 0) (hend : settings.rangeEnd = none) :
    (formatted settings source).text = (formatted settings source.unifyTerminators).text := by
  have htext : ∀ text : Text, (formatted settings text).text = Layout.canonical settings text :=
    fun text => Progress.text_final_start text hstart hend
  have hunify : source.unifyTerminators.unifyPairs = source.unifyPairs := by
    rw [Text.unifyPairs_unifyTerminators, Text.unifyTerminators_of_not_mem hreturn]
  rw [htext, htext, Layout.canonical, Layout.canonical, hunify]

/-- Without lone carriage returns, a text with pairs starts in the same way as without, if neither a
cursor nor a range is given. -/
theorem start_unifyTerminators (hreturn : '\r' ∉ source.unifyPairs)
    (hcursor : settings.cursorOffset = none) (hstart : settings.rangeStart = 0)
    (hend : settings.rangeEnd = none) :
    Progress.start settings source = Progress.start settings source.unifyTerminators := by
  unfold Progress.start
  rw [Text.unifyPairs_unifyTerminators, Text.unifyTerminators_of_not_mem hreturn, hcursor, hstart,
    hend]
  simp [unifiedOffset, Text.slice]

/-- **A file and the same bytes from the standard input** are not formatted alike if the text has
lone carriage returns. Otherwise they are, apart from log lines, if the offsets mean the same places
in both. So without offsets the lone carriage returns are all that matters, and without a range they
are all that matters for the exit code and the formatted text. -/
theorem process_agree_iff (console : Console) (hplain : run.Plain)
    (hverbose : console.verbose = false)
    (hopen : files.openFile (Path.ofString filename).text = .ok (place, bytes))
    (hdecode : Utf8.decode bytes = .ok source)
    (hresolve : Engine.resolve (format.forFile (some filename)) = .ok settings)
    (hparse : (Engine.standard g).parse settings source = .ok tree) :
    let file := (ofRun run format (.standard g) console).process (fresh files) filename
    let piped := (ofRun { run with stdin := true } (format.forFile (some filename)) (.standard g)
      console).runAll (fresh others) bytes
    file.2 = .ok .formatted
      ∧ ('\r' ∈ source.unifyPairs →
          ¬ (piped.2 = .ok file.1.exit ∧ piped.1.printed .out = file.1.printed .out))
      ∧ ∀ tree', (Engine.standard g).parse settings source.unifyTerminators = .ok tree' →
          (Progress.start settings source = Progress.start settings source.unifyTerminators →
              Agree file piped)
            ∧ (settings.rangeStart = 0 → settings.rangeEnd = none →
              (piped.2 = .ok file.1.exit ∧ piped.1.printed .out = file.1.printed .out
                ↔ '\r' ∉ source.unifyPairs))
            ∧ (settings.cursorOffset = none → settings.rangeStart = 0 → settings.rangeEnd = none →
              (Agree file piped ↔ '\r' ∉ source.unifyPairs)) := by
  intro file piped
  have hholds : files.Holds filename source := FileSystem.holds_of_openFile hopen hdecode
  have hreturn : '\r' ∈ source.unifyPairs →
      ¬ (piped.2 = .ok file.1.exit ∧ piped.1.printed .out = file.1.printed .out) :=
    exit_or_out_ne others console hplain hholds hdecode hresolve hparse
  obtain ⟨hdone, -⟩ := process_of_plain (p := ofRun run format (.standard g) console) hplain hholds
    (formatterFor_format hplain hresolve hparse)
  refine ⟨hdone, hreturn, fun tree' hparse' => ?_⟩
  obtain ⟨hexit, hout, hout', herr, herr'⟩ :=
    printed_file_and_stdin others console hplain hholds hdecode hresolve hparse hparse'
  have hagree : Progress.start settings source
      = Progress.start settings source.unifyTerminators → Agree file piped := by
    intro hstart
    have hsame : formatted settings source.unifyTerminators = formatted settings source := by
      rw [formatted, ← hstart, formatted]
    rw [hsame] at hout' herr'
    exact ⟨hexit, hout'.trans hout.symm, herr'.trans (herr hverbose).symm⟩
  refine ⟨hagree, ?_, ?_⟩
  · intro hstart hend
    refine ⟨fun h hmem => hreturn hmem h, fun hnone => ⟨hexit, ?_⟩⟩
    have htext := text_formatted_unifyTerminators hnone hstart hend
    exact hout'.trans ((congrArg console.shown htext.symm).trans hout.symm)
  · intro hcursor hstart hend
    refine ⟨fun h hmem => hreturn hmem ⟨h.exit, h.out⟩, fun hnone => ?_⟩
    exact hagree (start_unifyTerminators hnone hcursor hstart hend)

end

/-- A text with pairs. -/
theorem process_agree_iff_pairs :
    Agree
      ((ofRun {} [] (.standard fun _ => default) {}).process
        (fresh (.single "a.can".toList "a \r\nb\r\n".toList)) "a.can")
      ((ofRun { stdin := true } (Options.forFile [] "a.can") (.standard fun _ => default) {}).runAll
        (fresh (.single [] [])) (Utf8.encode "a \r\nb\r\n".toList)) := by
  have hopen : (FileSystem.single "a.can".toList "a \r\nb\r\n".toList).openFile
      (Path.ofString "a.can").text
      = .ok (["a.can".toList], Utf8.encode "a \r\nb\r\n".toList) := rfl
  obtain ⟨-, -, hagree⟩ := process_agree_iff (.single [] []) {} plain_default rfl hopen
    (Utf8.decode_encode _) (Engine.resolve_forFile_nil "a.can") (Engine.parse_default _ _)
  have hreturn : '\r' ∉ Text.unifyPairs "a \r\nb\r\n".toList := by decide
  exact ((hagree default (Engine.parse_default _ _)).2.2 rfl rfl rfl).mpr hreturn

/-- **A file and the same bytes from the standard input that are not formatted alike.** -/
theorem exists_not_agree :
    ((ofRun {} [] (.standard fun _ => default) {}).process
        (fresh (.single "a.can".toList "a\rb\n".toList)) "a.can").2 = .ok .formatted
      ∧ ¬ Agree
        ((ofRun {} [] (.standard fun _ => default) {}).process
          (fresh (.single "a.can".toList "a\rb\n".toList)) "a.can")
        ((ofRun { stdin := true } (Options.forFile [] "a.can") (.standard fun _ => default)
          {}).runAll (fresh (.single [] [])) (Utf8.encode "a\rb\n".toList)) := by
  have hholds : (FileSystem.single "a.can".toList "a\rb\n".toList).Holds "a.can" "a\rb\n".toList :=
    rfl
  have hparse := Engine.parse_default { filepath := "a.can" } "a\rb\n".toList
  have hresolve := Engine.resolve_forFile_nil "a.can"
  obtain ⟨hdone, -⟩ := process_of_plain (p := ofRun {} [] (.standard fun _ => default) {})
    plain_default hholds (formatterFor_format plain_default hresolve hparse)
  have hne := exit_or_out_ne (.single [] []) {} plain_default hholds (Utf8.decode_encode _)
    hresolve hparse (by decide)
  exact ⟨hdone, fun h => hne ⟨h.exit, h.out⟩⟩

end Processor

end CaplLayout
