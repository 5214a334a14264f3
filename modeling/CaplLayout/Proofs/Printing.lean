import CaplLayout.Proofs.Writes

/-!
# What is printed of a file

A run that does not write prints the formatted text of a file where one that writes would leave it
in the file. Both are the same text when it reaches the file, but on its way to a stream that is no
terminal it loses the sequences that set colours. `Console.plain_eq_self_iff` says which texts come
through unchanged, and `process_printed_iff` compares the two ways.
-/

set_option autoImplicit false

namespace CaplLayout

/-! ## Sequences that set colours -/

namespace Console

/-- A sequence that sets colours: the escape character, an opening bracket, parameters and a
letter. -/
def IsSequence (s : Text) : Prop :=
  ∃ params c, s = escape :: '[' :: (params ++ [c])
    ∧ (∀ d ∈ params, isParameter d = true) ∧ isFinal c = true

theorem isParameter_eq_false {c : Char} (h : isFinal c = true) : isParameter c = false := by
  simp only [isFinal, isParameter, Bool.or_eq_true, Bool.and_eq_true, decide_eq_true_eq,
    Bool.or_eq_false_iff, beq_eq_false_iff_ne, Bool.and_eq_false_iff, decide_eq_false_iff_not] at *
  have hle : ∀ d e : Char, d ≤ e ↔ d.toNat ≤ e.toNat := fun _ _ => Iff.rfl
  simp only [hle, Char.reduceToNat] at *
  refine ⟨⟨?_, ?_⟩, by omega⟩
  · rintro rfl
    simp only [Char.reduceToNat] at h
    omega
  · rintro rfl
    simp only [Char.reduceToNat] at h
    omega

theorem sequenceLength_sequence {params : Text} {c : Char} (rest : Text)
    (hparams : ∀ d ∈ params, isParameter d = true) (hc : isFinal c = true) :
    sequenceLength (escape :: '[' :: (params ++ c :: rest)) = params.length + 3 := by
  have htake : (params ++ c :: rest).takeWhile isParameter = params := by
    rw [List.takeWhile_append_of_pos hparams,
      List.takeWhile_cons_of_neg (by simp [isParameter_eq_false hc]), List.append_nil]
  unfold sequenceLength
  simp [htake, hc]

/-- The characters that are counted at the start of a text are those of a sequence. -/
theorem exists_of_sequenceLength_ne_zero {s : Text} (h : sequenceLength s ≠ 0) :
    ∃ params c rest, s = escape :: '[' :: (params ++ c :: rest)
      ∧ (∀ d ∈ params, isParameter d = true) ∧ isFinal c = true := by
  unfold sequenceLength at h
  -- only one branch counts: a bracket behind the escape character, and a letter behind parameters
  split at h
  · next c r =>
      split at h
      · next hc =>
          subst hc
          dsimp only at h
          split at h
          · next d rest hdrop =>
              split at h
              · next hd =>
                  have happend := List.take_append_drop (r.takeWhile isParameter).length r
                  rw [hdrop, ← List.prefix_iff_eq_take.mp (List.takeWhile_prefix _)] at happend
                  refine ⟨r.takeWhile isParameter, d, rest, ?_, fun e => List.mem_takeWhile_imp, hd⟩
                  rw [happend]
              · exact absurd rfl h
          · exact absurd rfl h
      · exact absurd rfl h
  · exact absurd rfl h

theorem isSequence_take {s : Text} (h : sequenceLength s ≠ 0) :
    IsSequence (s.take (sequenceLength s)) := by
  obtain ⟨params, c, rest, rfl, hparams, hc⟩ := exists_of_sequenceLength_ne_zero h
  refine ⟨params, c, ?_, hparams, hc⟩
  rw [sequenceLength_sequence rest hparams hc]
  simp [List.take_append, List.take_of_length_le]

/-- **A text begins with a sequence** when the characters of one are counted at its start. -/
theorem sequenceLength_ne_zero_iff (s : Text) :
    sequenceLength s ≠ 0 ↔ ∃ t, IsSequence t ∧ t <+: s := by
  constructor
  · intro h
    exact ⟨_, isSequence_take h, List.take_prefix _ _⟩
  · rintro ⟨t, ⟨params, c, rfl, hparams, hc⟩, rest, rfl⟩
    simp [sequenceLength_sequence rest hparams hc]

theorem length_plainFrom_le (skip : Nat) (s : Text) : (plainFrom skip s).length ≤ s.length := by
  induction s generalizing skip with
  | nil => simp [plainFrom]
  | cons c r ih =>
      rw [plainFrom]
      split
      · exact (ih _).trans (by simp)
      · dsimp only
        split
        · simpa using ih 0
        · exact (ih _).trans (by simp)

/-- **Nothing is removed** from a text exactly when there is no sequence in it. -/
theorem plain_eq_self_iff (s : Text) : plain s = s ↔ ∀ t, IsSequence t → ¬ t <:+: s := by
  induction s with
  | nil =>
      refine iff_of_true rfl ?_
      rintro t ⟨params, c, rfl, -⟩ ht
      simp at ht
  | cons c r ih =>
      have hsplit : (∀ t, IsSequence t → ¬ t <:+: c :: r)
          ↔ sequenceLength (c :: r) = 0 ∧ ∀ t, IsSequence t → ¬ t <:+: r := by
        have hbegins := not_iff_not.mpr (sequenceLength_ne_zero_iff (c :: r))
        rw [not_not] at hbegins
        rw [hbegins]
        simp only [List.infix_cons_iff, not_or, not_exists, not_and]
        exact ⟨fun h => ⟨fun t ht => (h t ht).1, fun t ht => (h t ht).2⟩,
          fun h t ht => ⟨h.1 t ht, h.2 t ht⟩⟩
      rw [hsplit, ← ih, plain, plainFrom, if_neg (by simp)]
      dsimp only
      split
      · next h => simp [h, plain]
      · next h =>
          -- what is left is too short to be the text
          refine iff_of_false ?_ fun hzero => h hzero.1
          intro heq
          have hle := length_plainFrom_le (sequenceLength (c :: r) - 1) r
          rw [heq, List.length_cons] at hle
          omega

theorem shown_eq_self_iff (console : Console) (s : Text) :
    console.shown s = s ↔ console.terminal = true ∨ ∀ t, IsSequence t → ¬ t <:+: s := by
  unfold shown
  split
  · next hterminal => simp [hterminal]
  · next hterminal => rw [plain_eq_self_iff, or_iff_right hterminal]

end Console

/-! ## What a step prints -/

theorem Piece.printed_log (console : Console) (line : String) :
    printed .out (console.log line) = []
      ∧ (console.verbose = false → printed .err (console.log line) = []) := by
  unfold Console.log
  split
  · next hverbose => simp [printed, hverbose]
  · simp [printed]

namespace Session

variable (s : Session) (stream : Stream)

theorem printed_print (pieces : List Piece) :
    (s.print pieces).printed stream = s.printed stream ++ Piece.printed stream pieces :=
  Piece.printed_append _ _ _

end Session

/-- The options of a run that only prints formatted texts. -/
structure RunOptions.Plain (o : RunOptions) : Prop where
  write : o.write = false
  listDifferent : o.listDifferent = false
  debugCheck : o.debugCheck = false
  debugPrintDoc : o.debugPrintDoc = false

namespace Processor

open Session

variable {p : Processor} {s : Session} {files : FileSystem} {filename : String} {source : Text}
  {out : Formatted}

/-- The line that tells the cursor, if it is asked for. -/
def cursorLine (p : Processor) (out : Formatted) : Text :=
  if p.format.cursorRequested then
    p.console.shown ((toString (out.cursor.getD (-1))).toList ++ ['\n'])
  else []

theorem printed_printResult (p : Processor) (s : Session) (out : Formatted) :
    (p.printResult s out).printed .out = s.printed .out ++ p.console.shown out.text
      ∧ (p.printResult s out).printed .err = s.printed .err ++ p.cursorLine out := by
  unfold printResult cursorLine
  dsimp only
  split
  · simp [printed_print, Console.echo, Console.echoLine, Piece.printed]
  · simp [printed_print, Console.echo, Piece.printed]

theorem mode_of_plain {run : RunOptions} (h : run.Plain) (engine : Engine) :
    (formatterFor run engine).mode = .plain := by
  simp [formatterFor, h.debugCheck, h.debugPrintDoc]

theorem exit_printResult (p : Processor) (s : Session) (out : Formatted) :
    (p.printResult s out).exit = s.exit := by
  unfold printResult
  dsimp only
  split <;> rfl

/-- **Processing a file in a run that only prints** prints the formatted text, and the cursor. -/
theorem process_of_plain (hplain : p.run.Plain) (hholds : files.Holds filename source)
    (hformat : p.formatter.format (p.optionsFor filename) source = .ok out) :
    (p.process (fresh files) filename).2 = .ok .formatted
      ∧ (p.process (fresh files) filename).1.exit = .success
      ∧ (p.process (fresh files) filename).1.printed .out = p.console.shown out.text
      ∧ (p.console.verbose = false →
        (p.process (fresh files) filename).1.printed .err = p.cursorLine out) := by
  have hread : readText files (Path.ofString filename).text = .ok (.ok source) := hholds
  obtain ⟨line, hprocess⟩ : ∃ line, p.process (fresh files) filename
      = (p.printResult ((fresh files).print (p.console.log line)) out, .ok .formatted) := by
    rw [optionsFor] at hformat
    unfold process processText formatFile dispose
    simp only [fresh, hread, hplain.listDifferent, hplain.write, hplain.debugCheck, hformat]
    exact ⟨_, rfl⟩
  obtain ⟨hout, herr⟩ := printed_printResult p ((fresh files).print (p.console.log line)) out
  obtain ⟨hlog, hlog'⟩ := Piece.printed_log p.console line
  rw [hprocess]
  refine ⟨rfl, exit_printResult _ _ _, ?_, fun hverbose => ?_⟩
  · rw [hout, printed_print, hlog]
    rfl
  · rw [herr, printed_print, hlog' hverbose]
    rfl

/-! ## Printed and written -/

/-- **What is left of a file that a run writes**: at its place the formatted text. -/
theorem decode_of_writes {place : List Text} {bytes : List UInt8} (hwrite : p.run.write = true)
    (hmode : p.formatter.mode = .plain)
    (hopen : files.openFile (Path.ofString filename).text = .ok (place, bytes))
    (hdecode : Utf8.decode bytes = .ok source)
    (hclosed : (Path.ofString filename).text ∉ files.closed)
    (hformat : p.formatter.engine.format (p.optionsFor filename) source = .ok out) :
    ∃ left, (p.process (fresh files) filename).1.files.bytesAt place = some left
      ∧ Utf8.decode left = .ok out.text := by
  have hholds : files.Holds filename source := FileSystem.holds_of_openFile hopen hdecode
  have hprocessed := processed_visitOf p files filename
  have hjudge := (judge_eq_ok_iff hmode).mpr hformat
  by_cases hsame : out.text = source
  · have hfiles : (p.process (fresh files) filename).1.files = files :=
      congrArg Mark.files (hprocessed.eq_of_keptAs hholds hjudge (keptAs_of_eq hwrite hsame)).1
    rw [hfiles, hsame]
    exact ⟨bytes, FileSystem.bytesAt_of_openFile hopen, hdecode⟩
  · have hresult := hprocessed.result_eq_written hholds hjudge hwrite hsame hclosed
    obtain ⟨-, -, other, source', out', hout, hreplaces⟩ | ⟨hne, -⟩ :=
      replaces_or_keeps (v := p.visitOf files filename) (fun _ => hmode) hprocessed
    · obtain ⟨bytes', hopen', hdecode', -⟩ := hreplaces.opens
      cases hopen'.symm.trans hopen
      cases hdecode'.symm.trans hdecode
      cases hout.symm.trans hformat
      exact ⟨_, hreplaces.bytesAt_eq, Utf8.decode_encode _⟩
    · exact absurd hresult hne

section

variable {run : RunOptions} {format : Options} {engine : Engine} (console : Console)
  {place : List Text} {bytes : List UInt8}

/-- A run that only prints shows the formatted text, and the same run, if it writes, leaves it in
the file. -/
theorem shown_and_left (hplain : run.Plain)
    (hopen : files.openFile (Path.ofString filename).text = .ok (place, bytes))
    (hdecode : Utf8.decode bytes = .ok source)
    (hclosed : (Path.ofString filename).text ∉ files.closed)
    (hformat : engine.format (format.forFile (some filename)) source = .ok out) :
    ((ofRun run format engine console).process (fresh files) filename).2 = .ok .formatted
      ∧ ((ofRun run format engine console).process (fresh files) filename).1.printed .out
          = console.shown out.text
      ∧ ∃ left, ((ofRun { run with write := true } format engine console).process (fresh files)
          filename).1.files.bytesAt place = some left ∧ Utf8.decode left = .ok out.text := by
  have hholds : files.Holds filename source := FileSystem.holds_of_openFile hopen hdecode
  have hmode : (formatterFor run engine).mode = .plain := mode_of_plain hplain engine
  have hresult : (formatterFor run engine).format (format.forFile (some filename)) source
      = .ok out := by
    rw [Formatter.format_eq_of_plain hmode]
    exact congrArg (Except.mapError _) hformat
  obtain ⟨hdone, -, hshown, -⟩ :=
    process_of_plain (p := ofRun run format engine console) hplain hholds hresult
  exact ⟨hdone, hshown,
    decode_of_writes (p := ofRun { run with write := true } format engine console) rfl hmode hopen
      hdecode hclosed hformat⟩

/-- **What is printed of a file is what would be written to it**, exactly if the streams are
terminals or the formatted text has no sequence in it that sets colours. -/
theorem process_printed_iff (hplain : run.Plain)
    (hopen : files.openFile (Path.ofString filename).text = .ok (place, bytes))
    (hdecode : Utf8.decode bytes = .ok source)
    (hclosed : (Path.ofString filename).text ∉ files.closed)
    (hformat : engine.format (format.forFile (some filename)) source = .ok out) :
    let printing := (ofRun run format engine console).process (fresh files) filename
    let writing := (ofRun { run with write := true } format engine console).process (fresh files)
      filename
    printing.2 = .ok .formatted
      ∧ ∃ left, writing.1.files.bytesAt place = some left ∧ Utf8.decode left = .ok out.text
        ∧ (printing.1.printed .out = out.text
          ↔ console.terminal = true ∨ ∀ t, Console.IsSequence t → ¬ t <:+: out.text) := by
  intro printing writing
  obtain ⟨hdone, hshown, left, hleft, hdecoded⟩ :=
    shown_and_left console hplain hopen hdecode hclosed hformat
  refine ⟨hdone, left, hleft, hdecoded, ?_⟩
  rw [hshown]
  exact Console.shown_eq_self_iff console out.text

end

theorem plain_default : RunOptions.Plain {} := ⟨rfl, rfl, rfl, rfl⟩

/-- An escape character that begins no sequence. -/
theorem process_printed_iff_escape :
    ∃ left,
      ((ofRun { write := true } [] (.standard fun _ => default) {}).process
          (fresh (.single "a.can".toList "a\x1b(b \n".toList)) "a.can").1.files.bytesAt
            ["a.can".toList] = some left
        ∧ Utf8.decode left = .ok "a\x1b(b\n".toList
        ∧ ((ofRun {} [] (.standard fun _ => default) {}).process
          (fresh (.single "a.can".toList "a\x1b(b \n".toList)) "a.can").1.printed .out
            = "a\x1b(b\n".toList := by
  have htext : Layout.canonical { filepath := "a.can" } "a\x1b(b \n".toList
      = "a\x1b(b\n".toList := by decide
  obtain ⟨cursor, hformat⟩ :=
    Engine.exists_format_default (Engine.resolve_forFile_nil "a.can") rfl rfl htext
  have hopen : (FileSystem.single "a.can".toList "a\x1b(b \n".toList).openFile
      (Path.ofString "a.can").text
      = .ok (["a.can".toList], Utf8.encode "a\x1b(b \n".toList) := rfl
  obtain ⟨-, left, hleft, hdecoded, hiff⟩ := process_printed_iff {} plain_default hopen
    (Utf8.decode_encode _) List.not_mem_nil hformat
  have hplain : Console.plain "a\x1b(b\n".toList = "a\x1b(b\n".toList := by decide
  exact ⟨left, hleft, hdecoded, hiff.mpr (Or.inr ((Console.plain_eq_self_iff _).mp hplain))⟩

/-- **A sequence that is printed is lost**, but written it stays. -/
theorem exists_process_printed_ne :
    ∃ left written,
      ((ofRun { write := true } [] (.standard fun _ => default) {}).process
          (fresh (.single "a.can".toList "a\x1b[31mb\n".toList)) "a.can").1.files.bytesAt
            ["a.can".toList] = some left
        ∧ Utf8.decode left = .ok written
        ∧ ((ofRun {} [] (.standard fun _ => default) {}).process
          (fresh (.single "a.can".toList "a\x1b[31mb\n".toList)) "a.can").1.printed .out
            ≠ written := by
  have htext : Layout.canonical { filepath := "a.can" } "a\x1b[31mb\n".toList
      = "a\x1b[31mb\n".toList := by decide
  obtain ⟨cursor, hformat⟩ :=
    Engine.exists_format_default (Engine.resolve_forFile_nil "a.can") rfl rfl htext
  have hopen : (FileSystem.single "a.can".toList "a\x1b[31mb\n".toList).openFile
      (Path.ofString "a.can").text
      = .ok (["a.can".toList], Utf8.encode "a\x1b[31mb\n".toList) := rfl
  obtain ⟨-, hshown, left, hleft, hdecoded⟩ := shown_and_left {} plain_default hopen
    (Utf8.decode_encode _) List.not_mem_nil hformat
  refine ⟨left, _, hleft, hdecoded, ?_⟩
  rw [hshown]
  show Console.shown {} "a\x1b[31mb\n".toList ≠ "a\x1b[31mb\n".toList
  decide

end Processor

end CaplLayout
