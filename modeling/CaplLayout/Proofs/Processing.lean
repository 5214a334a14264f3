import CaplLayout.Proofs.Places
import CaplLayout.Run.Process
import Mathlib.Data.Prod.Basic

/-!
# Processing a file

A file is processed in a session, but reads nothing of it except its files: what is printed, the
exit code and the list of written files are only added to (`process_resume`). So it is enough to
know what processing comes to in a session that has just begun. `Processed` lists the cases, one
for each way in which a file can end, and says of each what it leaves behind: the files, the exit
code and the places written to.
-/

set_option autoImplicit false

namespace CaplLayout

/-! ## Sessions behind each other -/

namespace Session

/-- The session that begins among `files`. -/
def fresh (files : FileSystem) : Session := { files := files }

/-- The session `s` carried on as `t` has gone on since it began. -/
def resume (s t : Session) : Session :=
  { files := t.files
    exit := s.exit.escalate t.exit
    output := s.output ++ t.output
    written := t.written ++ s.written }

variable (s t : Session)

theorem resume_fresh : s.resume (fresh s.files) = s := by
  simp [resume, fresh, ExitCode.escalate_success]

theorem resume_files : (s.resume t).files = t.files := rfl

theorem resume_print (pieces : List Piece) :
    (s.resume t).print pieces = s.resume (t.print pieces) := by
  simp [resume, print]

theorem resume_escalate (code : ExitCode) :
    (s.resume t).escalate code = s.resume (t.escalate code) := by
  simp [resume, escalate, ExitCode.escalate_assoc]

theorem resume_report (console : Console) (label : String) (f : Failure) :
    (s.resume t).report console label f = Prod.map s.resume id (t.report console label f) := by
  cases f <;> simp [report, resume_print, resume_escalate]

end Session

namespace Processor

open Session

variable (p : Processor) (s t : Session) (filename : String) (path source : Text)

theorem refuse_resume (message : String) (o : Outcome) :
    p.refuse (s.resume t) message o = Prod.map s.resume id (p.refuse t message o) := by
  simp [refuse, resume_print, resume_escalate]

theorem fail_resume (label : String) (f : Failure) :
    p.fail (s.resume t) label f = Prod.map s.resume id (p.fail t label f) := by
  rw [fail, fail, resume_report]
  rcases t.report p.console label f with ⟨u, _ | stop⟩ <;> rfl

theorem printResult_resume (result : Formatted) :
    p.printResult (s.resume t) result = s.resume (p.printResult t result) := by
  unfold printResult
  split <;> simp [resume_print]

theorem writeBack_resume (output : Text) :
    p.writeBack (s.resume t) filename path source output
      = Prod.map s.resume id (p.writeBack t filename path source output) := by
  unfold writeBack
  dsimp only
  split
  · split <;> simp [resume_print]
  · rw [resume_print]
    generalize t.print _ = u
    rw [resume_files]
    rcases u.files.openFile path with e | ⟨names, _⟩
    · exact refuse_resume ..
    dsimp only
    rcases u.files.write path (Utf8.encode output) with e | files
    · exact refuse_resume ..
    · rfl

theorem dispose_resume (result : Formatted) :
    p.dispose (s.resume t) filename path source result
      = Prod.map s.resume id (p.dispose t filename path source result) := by
  unfold dispose
  split_ifs
  · exact writeBack_resume ..
  · simp [resume_escalate]
  · simp [resume_print]
  · rfl
  · rfl
  · rw [printResult_resume]
    rfl

theorem formatFile_resume :
    p.formatFile (s.resume t) filename path source
      = Prod.map s.resume id (p.formatFile t filename path source) := by
  unfold formatFile
  split
  · exact fail_resume ..
  · dsimp only
    rw [resume_print, dispose_resume]

theorem processText_resume :
    p.processText (s.resume t) filename path source
      = Prod.map s.resume id (p.processText t filename path source) := by
  unfold processText
  split
  · split
    · exact fail_resume ..
    · exact formatFile_resume ..
    · rw [← formatFile_resume]
      congr 1
      unfold noteDifferent
      dsimp only
      split <;> simp [resume_print, resume_escalate]
  · exact formatFile_resume ..

/-- **Processing a file reads nothing of a session but its files**, and what it adds does not depend
on what is there. -/
theorem process_resume :
    p.process (s.resume t) filename = Prod.map s.resume id (p.process t filename) := by
  unfold process
  dsimp only
  rw [resume_files]
  rcases readText t.files _ with (e | _) | (reason | source)
  · exact refuse_resume ..
  · rfl
  · exact refuse_resume ..
  · exact processText_resume ..

/-! ## What processing comes to -/

end Processor

/-- What a step leaves behind, apart from what it prints. -/
structure Mark where
  files : FileSystem
  exit : ExitCode
  written : List (List Text)

namespace Session

/-- What a session holds, apart from what has been printed. -/
def mark (s : Session) : Mark := ⟨s.files, s.exit, s.written⟩

theorem mark_fresh (files : FileSystem) : (fresh files).mark = ⟨files, .success, []⟩ := rfl

theorem mark_print (s : Session) (pieces : List Piece) : (s.print pieces).mark = s.mark := rfl

theorem mark_escalate (s : Session) (code : ExitCode) :
    (s.escalate code).mark = { s.mark with exit := s.exit.escalate code } := rfl

end Session

/-- `source` is the text of the file `filename`. -/
def FileSystem.Holds (files : FileSystem) (filename : String) (source : Text) : Prop :=
  Processor.readText files (Path.ofString filename).text = .ok (.ok source)

namespace Processor

/-- The options for the file `filename`. -/
def optionsFor (p : Processor) (filename : String) : Options := p.format.forFile (some filename)

/-- What the formatter makes of the text of a file. When differences are listed it is asked first
whether the text is formatted. -/
def judge (p : Processor) (filename : String) (source : Text) : Except Failure Formatted := do
  if p.run.listDifferent then
    let _ ← p.formatter.isFormatted (p.optionsFor filename) source
  p.formatter.format (p.optionsFor filename) source

/-- The exit code that the text of a file asks for: that for differences if these are listed and
it is not formatted. -/
def noted (p : Processor) (filename : String) (source : Text) : ExitCode :=
  if p.run.listDifferent then
    match p.formatter.isFormatted (p.optionsFor filename) source with
    | .ok false => .differences
    | _ => .success
  else .success

/-- What becomes of a file with a formatted text that is not to be written, if that is no
failure. -/
def keptAs (p : Processor) (output source : Text) : Option Outcome :=
  if p.run.write then if output = source then some .unchanged else none
  else if p.run.debugCheck then if output = [] then none else some .checked
  else if p.run.listDifferent then some (if output = source then .unchanged else .reported)
  else some .formatted

/-- What processing the file `filename` among `files` can come to: what it leaves behind, and its
result. -/
inductive Processed (p : Processor) (files : FileSystem) (filename : String) :
    Mark → Except Stop Outcome → Prop
  /-- The operating system cannot be asked about the path. -/
  | nullCharacter : FileSystem.null ∈ (Path.ofString filename).text →
      Processed p files filename ⟨files, .success, []⟩ (.error .nullCharacter)
  /-- There is no text to be read. -/
  | unreadable : (∀ source, ¬ files.Holds filename source) →
      Processed p files filename ⟨files, .failure, []⟩ (.ok .readError)
  /-- The options cannot be used, so the run is given up. -/
  | invalid {source : Text} {m : String} : files.Holds filename source →
      p.judge filename source = .error (.validation m) →
      Processed p files filename ⟨files, p.noted filename source, []⟩ (.error (.aborted m))
  /-- The text cannot be formatted. -/
  | failed {source : Text} {f : Failure} : files.Holds filename source →
      p.judge filename source = .error f → f.isValidation = false →
      Processed p files filename ⟨files, .failure, []⟩ (.ok .formatError)
  /-- A check has nothing to show. -/
  | empty {source : Text} {out : Formatted} : files.Holds filename source →
      p.judge filename source = .ok out → p.run.write = false → p.run.debugCheck = true →
      out.text = [] → Processed p files filename ⟨files, .failure, []⟩ (.ok .formatError)
  /-- The file is left as it is. -/
  | kept {source : Text} {out : Formatted} {o : Outcome} : files.Holds filename source →
      p.judge filename source = .ok out → p.keptAs out.text source = some o →
      Processed p files filename ⟨files, p.noted filename source, []⟩ (.ok o)
  /-- The file is closed for writing. -/
  | refused {source : Text} {out : Formatted} : files.Holds filename source →
      p.judge filename source = .ok out → p.run.write = true → out.text ≠ source →
      (Path.ofString filename).text ∈ files.closed →
      Processed p files filename ⟨files, .failure, []⟩ (.ok .writeError)
  /-- The formatted text takes the place of the text of the file. -/
  | written {source : Text} {out : Formatted} {place : List Text} {bytes : List UInt8} :
      files.Holds filename source → p.judge filename source = .ok out → p.run.write = true →
      out.text ≠ source → (Path.ofString filename).text ∉ files.closed →
      files.openFile (Path.ofString filename).text = .ok (place, bytes) →
      Processed p files filename
        ⟨{ files with root := files.root.replace (Utf8.encode out.text) place },
          p.noted filename source, [place]⟩ (.ok .written)

end Processor

theorem FileSystem.holds_iff {files : FileSystem} {filename : String} {source : Text} :
    files.Holds filename source
      ↔ ∃ place bytes, files.openFile (Path.ofString filename).text = .ok (place, bytes)
        ∧ Utf8.decode bytes = .ok source := by
  unfold Holds Processor.readText read
  rcases files.openFile _ with e | ⟨place, bytes⟩
  · simp [Except.map]
  · cases h : Utf8.decode bytes <;> simp [Except.map, Except.mapError, h]

theorem FileSystem.holds_of_openFile {files : FileSystem} {filename : String} {source : Text}
    {place : List Text} {bytes : List UInt8}
    (hopen : files.openFile (Path.ofString filename).text = .ok (place, bytes))
    (hdecode : Utf8.decode bytes = .ok source) : files.Holds filename source :=
  holds_iff.mpr ⟨place, bytes, hopen, hdecode⟩

theorem FileSystem.null_mem_of_readText {files : FileSystem} {path : Text}
    (h : Processor.readText files path = .error .nullCharacter) : null ∈ path := by
  unfold Processor.readText read at h
  cases hopen : files.openFile path with
  | ok file =>
      rw [hopen] at h
      cases h
  | error e =>
      rw [hopen] at h
      cases h
      exact null_mem_of_openFile hopen

theorem FileSystem.Holds.unique {files : FileSystem} {filename : String} {a b : Text}
    (ha : files.Holds filename a) (hb : files.Holds filename b) : a = b := by
  unfold Holds at ha hb
  rw [ha] at hb
  cases hb
  rfl

theorem FileSystem.Holds.null_not_mem {files : FileSystem} {filename : String} {source : Text}
    (h : files.Holds filename source) : null ∉ (Path.ofString filename).text := by
  obtain ⟨place, bytes, hopen, -⟩ := FileSystem.holds_iff.mp h
  intro hnull
  rw [openFile, if_pos (by simpa using hnull)] at hopen
  cases hopen

/-- Options that tell nothing but the file. -/
theorem Engine.resolve_forFile_nil (filename : String) :
    resolve (Options.forFile [] filename) = .ok { filepath := filename } := rfl

/-- A formatter that returns formatted texts returns what its engine makes. -/
theorem Formatter.format_eq_of_plain {f : Formatter} {options : Options} {source : Text}
    (hmode : f.mode = .plain) :
    f.format options source
      = (f.engine.format options source).mapError (Failure.ofFault (pathOf options) true) := by
  rw [format, hmode]

/-- A formatter that returns formatted texts checks a text by formatting it. -/
theorem Formatter.isFormatted_eq_of_plain {f : Formatter} {options : Options} {source : Text}
    (hmode : f.mode = .plain) :
    f.isFormatted options source
      = (f.format options source).map fun out => decide (out.text = source) := by
  rw [format_eq_of_plain hmode, isFormatted, Engine.isFormatted]
  cases f.engine.format options source <;> rfl

/-- How an input ends that cannot be formatted: options that do not check stop the run. -/
def Failure.ending : Failure → Except Stop Outcome
  | .validation m => .error (.aborted m)
  | _ => .ok .formatError

theorem Failure.ending_eq_formatError {f : Failure} (h : f.isValidation = false) :
    f.ending = .ok .formatError := by
  cases f with
  | validation m => cases h
  | parse | io | unexpected => rfl

namespace Processor

open Session

variable {p : Processor} {s : Session} {files : FileSystem} {filename : String} {source : Text}
  {out : Formatted}

theorem keptAs_of_eq {output : Text} (hwrite : p.run.write = true) (hsame : output = source) :
    p.keptAs output source = some .unchanged := by
  rw [keptAs, if_pos hwrite, if_pos hsame]

/-- A formatter that returns formatted texts makes of a file what its engine makes of it, a text or
a failure. Whether differences are listed makes no difference. -/
theorem judge_eq (hmode : p.formatter.mode = .plain) :
    p.judge filename source
      = (p.formatter.engine.format (p.optionsFor filename) source).mapError
          (Failure.ofFault (Formatter.pathOf (p.optionsFor filename)) true) := by
  unfold judge
  rw [Formatter.isFormatted_eq_of_plain hmode, Formatter.format_eq_of_plain hmode]
  cases p.formatter.engine.format (p.optionsFor filename) source with
  | error e => split <;> rfl
  | ok made => split <;> rfl

theorem judge_eq_ok_iff (hmode : p.formatter.mode = .plain) :
    p.judge filename source = .ok out
      ↔ p.formatter.engine.format (p.optionsFor filename) source = .ok out := by
  rw [judge_eq hmode]
  cases p.formatter.engine.format (p.optionsFor filename) source <;> simp [Except.mapError]

/-- **A text that has been formatted** has nothing to show in a check, is left as it is, or is to be
written, which is possible unless the file is closed. -/
theorem Processed.cases_of_judge {mark : Mark} {result : Except Stop Outcome}
    (h : p.Processed files filename mark result) (hholds : files.Holds filename source)
    (hjudge : p.judge filename source = .ok out) :
    (p.run.write = false ∧ p.run.debugCheck = true ∧ out.text = [])
      ∨ (∃ o, p.keptAs out.text source = some o
        ∧ mark = ⟨files, p.noted filename source, []⟩ ∧ result = .ok o)
      ∨ p.run.write = true ∧ out.text ≠ source
        ∧ ((Path.ofString filename).text ∈ files.closed ∧ result = .ok .writeError
          ∨ (Path.ofString filename).text ∉ files.closed ∧ result = .ok .written) := by
  cases h with
  | nullCharacter hnull => exact absurd hnull hholds.null_not_mem
  | unreadable hnone => exact absurd hholds (hnone source)
  | invalid hholds' hjudge' | failed hholds' hjudge' =>
      cases hholds'.unique hholds
      cases hjudge'.symm.trans hjudge
  | empty hholds' hjudge' hwrite hcheck hempty =>
      cases hholds'.unique hholds
      cases hjudge'.symm.trans hjudge
      exact Or.inl ⟨hwrite, hcheck, hempty⟩
  | kept hholds' hjudge' hkept =>
      cases hholds'.unique hholds
      cases hjudge'.symm.trans hjudge
      exact Or.inr (Or.inl ⟨_, hkept, rfl, rfl⟩)
  | refused hholds' hjudge' hwrite hother hclosed =>
      cases hholds'.unique hholds
      cases hjudge'.symm.trans hjudge
      exact Or.inr (Or.inr ⟨hwrite, hother, Or.inl ⟨hclosed, rfl⟩⟩)
  | written hholds' hjudge' hwrite hother hclosed =>
      cases hholds'.unique hholds
      cases hjudge'.symm.trans hjudge
      exact Or.inr (Or.inr ⟨hwrite, hother, Or.inr ⟨hclosed, rfl⟩⟩)

/-- A file that is formatted and not to be written is left as it is. -/
theorem Processed.eq_of_keptAs {mark : Mark} {result : Except Stop Outcome} {o : Outcome}
    (h : p.Processed files filename mark result) (hholds : files.Holds filename source)
    (hjudge : p.judge filename source = .ok out) (hkept : p.keptAs out.text source = some o) :
    mark = ⟨files, p.noted filename source, []⟩ ∧ result = .ok o := by
  rcases h.cases_of_judge hholds hjudge with
    ⟨hwrite, hcheck, hempty⟩ | ⟨o', hkept', hend⟩ | ⟨hwrite, hother, -⟩
  · simp [keptAs, hwrite, hcheck, hempty] at hkept
  · cases hkept'.symm.trans hkept
    exact hend
  · simp [keptAs, hwrite, hother] at hkept

/-- A file with another formatted text is written when the run writes, unless it is closed. -/
theorem Processed.result_of_write {mark : Mark} {result : Except Stop Outcome}
    (h : p.Processed files filename mark result) (hholds : files.Holds filename source)
    (hjudge : p.judge filename source = .ok out) (hwrite : p.run.write = true)
    (hother : out.text ≠ source) :
    (Path.ofString filename).text ∈ files.closed ∧ result = .ok .writeError
      ∨ (Path.ofString filename).text ∉ files.closed ∧ result = .ok .written := by
  rcases h.cases_of_judge hholds hjudge with ⟨hnot, -⟩ | ⟨o, hkept, -⟩ | ⟨-, -, hend⟩
  · simp [hwrite] at hnot
  · simp [keptAs, hwrite, hother] at hkept
  · exact hend

theorem Processed.result_eq_written {mark : Mark} {result : Except Stop Outcome}
    (h : p.Processed files filename mark result) (hholds : files.Holds filename source)
    (hjudge : p.judge filename source = .ok out) (hwrite : p.run.write = true)
    (hother : out.text ≠ source) (hclosed : (Path.ofString filename).text ∉ files.closed) :
    result = .ok .written := by
  rcases h.result_of_write hholds hjudge hwrite hother with ⟨hmem, -⟩ | ⟨-, hend⟩
  · exact absurd hmem hclosed
  · exact hend

/-- A file without a text is left as it is. It ends in an error of reading, unless the operating
system cannot be asked about it. -/
theorem Processed.cases_of_not_holds {mark : Mark} {result : Except Stop Outcome}
    (h : p.Processed files filename mark result) (hnone : ∀ source, ¬ files.Holds filename source) :
    (FileSystem.null ∈ (Path.ofString filename).text
        ∧ mark = ⟨files, .success, []⟩ ∧ result = .error .nullCharacter)
      ∨ (mark = ⟨files, .failure, []⟩ ∧ result = .ok .readError) := by
  cases h with
  | nullCharacter hnull => exact Or.inl ⟨hnull, rfl, rfl⟩
  | unreadable => exact Or.inr ⟨rfl, rfl⟩
  | invalid hholds | failed hholds | empty hholds | kept hholds | refused hholds | written hholds =>
      exact absurd hholds (hnone _)

theorem Processed.result_eq_readError {mark : Mark} {result : Except Stop Outcome}
    (h : p.Processed files filename mark result)
    (hnull : FileSystem.null ∉ (Path.ofString filename).text)
    (hnone : ∀ source, ¬ files.Holds filename source) : result = .ok .readError := by
  rcases h.cases_of_not_holds hnone with ⟨hmem, -⟩ | ⟨-, hresult⟩
  · exact absurd hmem hnull
  · exact hresult

/-- A run is stopped for its path only if the operating system cannot be asked about that. -/
theorem Processed.null_mem {mark : Mark} {result : Except Stop Outcome}
    (h : p.Processed files filename mark result) (hresult : result = .error .nullCharacter) :
    FileSystem.null ∈ (Path.ofString filename).text := by
  cases h with
  | nullCharacter hnull => exact hnull
  | unreadable | invalid | failed | empty | kept | refused | written => cases hresult

/-- A text that cannot be formatted ends as its failure says. -/
theorem Processed.result_eq_ending {mark : Mark} {result : Except Stop Outcome} {f : Failure}
    (h : p.Processed files filename mark result) (hholds : files.Holds filename source)
    (hjudge : p.judge filename source = .error f) : result = f.ending := by
  cases h with
  | nullCharacter hnull => exact absurd hnull hholds.null_not_mem
  | unreadable hnone => exact absurd hholds (hnone source)
  | invalid hholds' hjudge' =>
      cases hholds'.unique hholds
      cases hjudge'.symm.trans hjudge
      rfl
  | failed hholds' hjudge' hvalidation =>
      cases hholds'.unique hholds
      cases hjudge'.symm.trans hjudge
      exact (Failure.ending_eq_formatError hvalidation).symm
  | empty hholds' hjudge' | kept hholds' hjudge' | refused hholds' hjudge' =>
      cases hholds'.unique hholds
      cases hjudge'.symm.trans hjudge
  | written hholds' hjudge' =>
      cases hholds'.unique hholds
      cases hjudge'.symm.trans hjudge

/-! ## Steps -/

/-- A step ends as the file `filename` among `files` can come to. -/
def Ends (p : Processor) (files : FileSystem) (filename : String) (r : Step Outcome) : Prop :=
  p.Processed files filename r.1.mark r.2

theorem noted_escalate_failure (p : Processor) (filename : String) (source : Text) :
    (p.noted filename source).escalate .failure = .failure := by
  unfold noted
  split
  · split <;> rfl
  · rfl

theorem mark_escalate_failure (hmark : s.mark = ⟨files, p.noted filename source, []⟩) :
    (s.escalate .failure).mark = ⟨files, .failure, []⟩ := by
  have hexit : s.exit = p.noted filename source := congrArg Mark.exit hmark
  rw [mark_escalate, hmark, hexit, noted_escalate_failure]

theorem ends_writeBack (hmark : s.mark = ⟨files, p.noted filename source, []⟩)
    (hholds : files.Holds filename source) (hjudge : p.judge filename source = .ok out)
    (hwrite : p.run.write = true) :
    p.Ends files filename
      (p.writeBack s filename (Path.ofString filename).text source out.text) := by
  unfold writeBack Ends
  dsimp only
  split
  · next hsame =>
      have hend := Processed.kept hholds hjudge (keptAs_of_eq hwrite hsame)
      rw [← hmark] at hend
      split <;> exact hend
  · next hother =>
      generalize hu : s.print _ = u
      have hmark' : u.mark = ⟨files, p.noted filename source, []⟩ := by
        rw [← hu, mark_print, hmark]
      have hfiles : u.files = files := congrArg Mark.files hmark'
      have hexit : u.exit = p.noted filename source := congrArg Mark.exit hmark'
      have hwritten : u.written = [] := congrArg Mark.written hmark'
      obtain ⟨place, bytes, hopen, -⟩ := FileSystem.holds_iff.mp hholds
      rw [hfiles, hopen]
      dsimp only
      rcases FileSystem.write_cases (Utf8.encode out.text) hopen with
        ⟨hrefuse, hclosed⟩ | ⟨hok, hclosed⟩
      · have hend := Processed.refused hholds hjudge hwrite hother hclosed
        rw [← mark_escalate_failure hmark'] at hend
        rw [hrefuse]
        exact hend
      · have hend := Processed.written hholds hjudge hwrite hother hclosed hopen
        rw [hok]
        dsimp only [mark]
        rw [hexit, hwritten]
        exact hend

theorem ends_dispose (hmark : s.mark = ⟨files, p.noted filename source, []⟩)
    (hholds : files.Holds filename source) (hjudge : p.judge filename source = .ok out) :
    p.Ends files filename (p.dispose s filename (Path.ofString filename).text source out) := by
  have hkept : ∀ {o}, p.keptAs out.text source = some o →
      p.Processed files filename s.mark (.ok o) := by
    intro o ho
    rw [hmark]
    exact .kept hholds hjudge ho
  unfold dispose Ends
  split
  · next hwrite => exact ends_writeBack hmark hholds hjudge hwrite
  next hwrite =>
    split
    · next hcheck =>
        split
        · next hempty =>
            rw [mark_escalate_failure hmark]
            exact .empty hholds hjudge (by simpa using hwrite) hcheck hempty
        · next hempty =>
            exact hkept (by rw [keptAs, if_neg hwrite, if_pos hcheck, if_neg hempty])
    next hcheck =>
      split
      · next hlist => exact hkept (by rw [keptAs, if_neg hwrite, if_neg hcheck, if_pos hlist])
      · next hlist =>
          have hend := hkept (by rw [keptAs, if_neg hwrite, if_neg hcheck, if_neg hlist])
          unfold printResult
          dsimp only
          split <;> exact hend

theorem ends_fail (hmark : s.mark = ⟨files, p.noted filename source, []⟩)
    (hholds : files.Holds filename source) {f : Failure}
    (hjudge : p.judge filename source = .error f) :
    p.Ends files filename (p.fail s filename f) := by
  cases f with
  | validation m =>
      have hend := Processed.invalid hholds hjudge
      rw [← hmark] at hend
      exact hend
  | parse | io | unexpected =>
      have hend := Processed.failed hholds hjudge rfl
      rw [← mark_escalate_failure hmark] at hend
      exact hend

theorem ends_formatFile (hmark : s.mark = ⟨files, p.noted filename source, []⟩)
    (hholds : files.Holds filename source)
    (hjudge : p.judge filename source = p.formatter.format (p.optionsFor filename) source) :
    p.Ends files filename (p.formatFile s filename (Path.ofString filename).text source) := by
  unfold formatFile
  split
  · next hformat => exact ends_fail hmark hholds (hjudge.trans hformat)
  · next hformat => exact ends_dispose hmark hholds (hjudge.trans hformat)

theorem ends_processText (hholds : files.Holds filename source) :
    p.Ends files filename
      (p.processText (fresh files) filename (Path.ofString filename).text source) := by
  unfold processText
  split
  · next hlist =>
      have hjudge : p.judge filename source
          = p.formatter.isFormatted (p.optionsFor filename) source >>= fun _ =>
              p.formatter.format (p.optionsFor filename) source := by
        rw [judge, if_pos hlist]
      have hnoted : p.noted filename source
          = match p.formatter.isFormatted (p.optionsFor filename) source with
            | .ok false => .differences
            | _ => .success := if_pos hlist
      split
      · next hcheck =>
          rw [show p.formatter.isFormatted (p.optionsFor filename) source = _ from hcheck]
            at hjudge hnoted
          exact ends_fail (by rw [hnoted]; rfl) hholds hjudge
      · next hcheck =>
          rw [show p.formatter.isFormatted (p.optionsFor filename) source = _ from hcheck]
            at hjudge hnoted
          exact ends_formatFile (by rw [hnoted]; rfl) hholds hjudge
      · next hcheck =>
          rw [show p.formatter.isFormatted (p.optionsFor filename) source = _ from hcheck]
            at hjudge hnoted
          refine ends_formatFile ?_ hholds hjudge
          rw [hnoted, noteDifferent]
          dsimp only
          split <;> rfl
  · next hlist =>
      refine ends_formatFile ?_ hholds ?_
      · rw [noted, if_neg hlist, mark_fresh]
      · rw [judge, if_neg hlist]

/-- **What processing a file can come to**, in a session that begins among `files`. -/
theorem ends_process (p : Processor) (files : FileSystem) (filename : String) :
    p.Ends files filename (p.process (fresh files) filename) := by
  unfold process
  dsimp only
  have hnone : ∀ {r}, readText files (Path.ofString filename).text = r →
      (∀ source, r ≠ .ok (.ok source)) →
      p.Processed files filename ⟨files, .failure, []⟩ (.ok .readError) := by
    intro r hr hne
    exact .unreadable fun source h => hne source (hr.symm.trans h)
  split
  · next hread => exact .nullCharacter (FileSystem.null_mem_of_readText hread)
  · next hread => exact hnone hread (by simp)
  · next hread => exact hnone hread (by simp)
  · next hread => exact ends_processText hread

/-- A text that fails alike whether it is checked or formatted ends in that failure. -/
theorem process_eq_fail {failure : Failure} (hholds : files.Holds filename source)
    (hcheck : p.formatter.isFormatted (p.optionsFor filename) source = .error failure)
    (hformat : p.formatter.format (p.optionsFor filename) source = .error failure) :
    p.process (fresh files) filename = p.fail (fresh files) filename failure := by
  have hread : readText (fresh files).files (Path.ofString filename).text
      = .ok (.ok source) := hholds
  unfold optionsFor at hcheck hformat
  unfold process
  dsimp only
  rw [hread]
  dsimp only
  unfold processText formatFile
  rw [hcheck, hformat]
  split <;> rfl

/-- What processing a text from the standard input comes to. -/
theorem processSource_cases (p : Processor) (files : FileSystem) (source : Text) (label : String) :
    (∃ m, p.formatter.format p.format source = .error (.validation m)
        ∧ (p.processSource (fresh files) source label).1.mark = ⟨files, .success, []⟩
        ∧ (p.processSource (fresh files) source label).2 = .error (.aborted m))
      ∨ (∃ f, p.formatter.format p.format source = .error f ∧ f.isValidation = false
        ∧ (p.processSource (fresh files) source label).1.mark = ⟨files, .failure, []⟩
        ∧ (p.processSource (fresh files) source label).2 = .ok .formatError)
      ∨ ∃ out, p.formatter.format p.format source = .ok out
        ∧ (p.processSource (fresh files) source label).1.mark = ⟨files, .success, []⟩
        ∧ (p.processSource (fresh files) source label).2 = .ok .formatted := by
  unfold processSource
  rcases p.formatter.format p.format source with f | out
  · cases f with
    | validation m => exact Or.inl ⟨m, rfl, rfl, rfl⟩
    | parse | io | unexpected => exact Or.inr (Or.inl ⟨_, rfl, rfl, rfl, rfl⟩)
  · refine Or.inr (Or.inr ⟨out, rfl, ?_, rfl⟩)
    unfold printResult
    dsimp only
    split <;> rfl

end Processor

end CaplLayout
