import CaplLayout.Proofs.Encoding
import CaplLayout.Proofs.History
import CaplLayout.Proofs.Stability

/-!
# What a run writes

A visit either puts the formatted text of its file in the place of the file's text, or it leaves
every file as it is (`Visit.replaces_or_keeps`). As each visit finds the files as the one before has
left them, a run changes the file at a place only by a visit of the first kind to that place
(`runAll_writes`).
-/

set_option autoImplicit false

namespace CaplLayout

open Session

/-! ## What events change -/

namespace Event

/-- The event leaves the files as it finds them and writes to none. -/
def Keeps (e : Event) : Prop := e.written = [] ∧ ∀ found, e.Finds found → e.after found = found

/-- The event writes to the file at `place` or changes its bytes. -/
def Touches (e : Event) (place : List Text) : Prop :=
  place ∈ e.written ∨ ∃ found, e.Finds found ∧ (e.after found).bytesAt place ≠ found.bytesAt place

theorem Keeps.not_touches {e : Event} (h : e.Keeps) (place : List Text) : ¬ e.Touches place := by
  obtain ⟨hwritten, hafter⟩ := h
  rintro (hmem | ⟨found, hfinds, hne⟩)
  · rw [hwritten] at hmem
    cases hmem
  · rw [hafter found hfinds] at hne
    exact hne rfl

end Event

/-- Events that keep all files, one after the other. -/
theorem foldl_add_of_keeps {m : Mark} {es : List Event} (hlinked : Linked m.files es)
    (h : ∀ e ∈ es, e.Keeps) :
    (es.foldl Mark.add m).files = m.files ∧ (es.foldl Mark.add m).written = m.written := by
  induction es generalizing m with
  | nil => exact ⟨rfl, rfl⟩
  | cons e es ih =>
      obtain ⟨hfinds, hlinked⟩ := hlinked
      obtain ⟨hwritten, hafter⟩ := h e List.mem_cons_self
      have hfiles : (m.add e).files = m.files := hafter m.files hfinds
      have hall : (m.add e).written = m.written := by
        rw [Mark.add, hwritten]
        rfl
      have := ih (m := m.add e) hlinked fun e' he' => h e' (List.mem_cons_of_mem _ he')
      rwa [hfiles, hall] at this

/-- **A file that events have changed together**, one of them has changed. -/
theorem exists_touches {m : Mark} {es : List Event} {place : List Text}
    (hlinked : Linked m.files es)
    (h : place ∈ (es.foldl Mark.add m).written
      ∨ (es.foldl Mark.add m).files.bytesAt place ≠ m.files.bytesAt place) :
    place ∈ m.written ∨ ∃ e ∈ es, e.Touches place := by
  induction es generalizing m with
  | nil => exact h.imp_right fun hne => absurd rfl hne
  | cons e es ih =>
      obtain ⟨hfinds, hlinked⟩ := hlinked
      by_cases htouches : e.Touches place
      · exact Or.inr ⟨e, List.mem_cons_self, htouches⟩
      -- otherwise the place is behind the event as it was in front of it
      have hbytes : (m.add e).files.bytesAt place = m.files.bytesAt place := by
        by_contra hne
        exact htouches (Or.inr ⟨m.files, hfinds, hne⟩)
      rw [List.foldl_cons, ← hbytes] at h
      obtain hmem | ⟨e', he', htouches'⟩ := ih hlinked h
      · rcases List.mem_append.mp hmem with hmem | hmem
        · exact absurd (Or.inl hmem) htouches
        · exact Or.inl hmem
      · exact Or.inr ⟨e', List.mem_cons_of_mem _ he', htouches'⟩

/-! ## Visits -/

namespace Visit

variable (v : Visit)

/-- The visit opens the file at `place`, whose text is `source`, and leaves other bytes there, those
of the text `output`. Every other file stays as it is. -/
structure Replaces (place : List Text) (source output : Text) : Prop where
  opens : ∃ bytes, v.found.openFile (Path.ofString v.filename).text = .ok (place, bytes)
    ∧ Utf8.decode bytes = .ok source ∧ Utf8.encode output ≠ bytes
  bytesAt_eq : v.left.files.bytesAt place = some (Utf8.encode output)
  frame : ∀ other, other ≠ place → v.left.files.bytesAt other = v.found.bytesAt other
  written_eq : v.left.written = [place]

/-- The visit puts at `place` what `format` makes of the text of the file there. -/
def WritesTo (format : Text → Except Fault Formatted) (place : List Text) : Prop :=
  ∃ source out, format source = .ok out ∧ v.Replaces place source out.text

/-- The visit leaves every file as it is and writes to none. -/
def Keeps : Prop := v.left.files = v.found ∧ v.left.written = []

variable {v}

theorem Keeps.event (h : v.Keeps) : (Event.visited v).Keeps := by
  refine ⟨h.2, ?_⟩
  rintro found rfl
  exact h.1

/-- A visit that writes to one place touches no other. -/
theorem WritesTo.eq_of_touches {format : Text → Except Fault Formatted} {place other : List Text}
    (h : v.WritesTo format place) (htouches : (Event.visited v).Touches other) : other = place := by
  obtain ⟨source, out, -, hreplaces⟩ := h
  by_contra hother
  rcases htouches with hmem | ⟨found, rfl, hne⟩
  · have hmem' : other ∈ v.left.written := hmem
    rw [hreplaces.written_eq] at hmem'
    exact hother (List.mem_singleton.mp hmem')
  · exact hne (hreplaces.frame other hother)

end Visit

namespace Processor

variable {p : Processor} {v : Visit}

theorem keptAs_ne_written (p : Processor) (output source : Text) :
    p.keptAs output source ≠ some .written := by
  unfold keptAs
  split_ifs <;> simp

/-- **A visit replaces the text of its file by the formatted text, or it keeps all files.** It does
the first exactly when it ends with the file written. -/
theorem replaces_or_keeps (hmode : p.run.write = true → p.formatter.mode = .plain)
    (h : p.Processed v.found v.filename v.left.mark v.result) :
    (v.result = .ok .written ∧ p.run.write = true
        ∧ ∃ place, v.WritesTo (p.formatter.engine.format (p.optionsFor v.filename)) place)
      ∨ (v.result ≠ .ok .written ∧ v.Keeps) := by
  generalize hmark : v.left.mark = mark at h
  generalize hresult : v.result = result at h
  have hfiles : v.left.files = mark.files := congrArg Mark.files hmark
  have hwritten : v.left.written = mark.written := congrArg Mark.written hmark
  cases h with
  | nullCharacter | unreadable | invalid | failed | empty | refused =>
      exact Or.inr ⟨by simp, hfiles, hwritten⟩
  | kept hholds hjudge hkept =>
      refine Or.inr ⟨?_, hfiles, hwritten⟩
      rintro ⟨⟩
      exact keptAs_ne_written _ _ _ hkept
  | @written source out place bytes hholds hjudge hwrite hother hclosed hopen =>
      have hformat := (judge_eq_ok_iff (hmode hwrite)).mp hjudge
      obtain ⟨place', bytes', hopen', hdecode⟩ := FileSystem.holds_iff.mp hholds
      cases hopen'.symm.trans hopen
      have hne : Utf8.encode out.text ≠ bytes := by
        intro hsame
        rw [← hsame, Utf8.decode_encode] at hdecode
        exact hother (Except.ok.inj hdecode)
      have hwrites : v.found.write (Path.ofString v.filename).text (Utf8.encode out.text)
          = .ok v.left.files := by
        rcases FileSystem.write_cases (Utf8.encode out.text) hopen with ⟨-, hmem⟩ | ⟨hok, -⟩
        · exact absurd hmem hclosed
        · rw [hok, hfiles]
      obtain ⟨hplace, hframe⟩ := FileSystem.bytesAt_write hopen hwrites
      exact Or.inl ⟨rfl, hwrite, place, source, out, hformat,
        ⟨⟨bytes, hopen, hdecode, hne⟩, hplace, hframe, hwritten⟩⟩

/-- A file that is its own formatted text is not written to, whether it could be or not. -/
theorem unchanged_of_format_eq {source : Text} {out : Formatted} (hwrite : p.run.write = true)
    (hmode : p.formatter.mode = .plain)
    (h : p.Processed v.found v.filename v.left.mark v.result)
    (hholds : v.found.Holds v.filename source)
    (hformat : p.formatter.engine.format (p.optionsFor v.filename) source = .ok out)
    (hsame : out.text = source) : v.result = .ok .unchanged := by
  have hjudge := (judge_eq_ok_iff hmode).mpr hformat
  exact (h.eq_of_keptAs hholds hjudge (keptAs_of_eq hwrite hsame)).2

theorem formatterFor_mode {run : RunOptions} (engine : Engine) (hwrite : run.write = true)
    (h : run.conflict = none) : (formatterFor run engine).mode = .plain := by
  unfold RunOptions.conflict at h
  unfold formatterFor
  cases hcheck : run.debugCheck <;> cases hdoc : run.debugPrintDoc <;>
    simp_all

theorem receive_keeps (p : Processor) (files : FileSystem) (stdin : List UInt8) :
    (p.receive files stdin).Keeps := by
  unfold receive
  rcases Utf8.decode stdin with fault | source
  · exact ⟨rfl, fun found _ => rfl⟩
  · dsimp only
    rcases p.processSource_cases files source.unifyTerminators "stdin" with
      ⟨-, -, hmark, -⟩ | ⟨-, -, -, hmark, -⟩ | ⟨-, -, hmark, -⟩
    all_goals
      refine ⟨congrArg Mark.written hmark, ?_⟩
      rintro found rfl
      exact congrArg Mark.files hmark

/-! ## Whole runs -/

variable {files : FileSystem} {stdin : List UInt8}

/-- The visits of a run that writes are told by plain texts. -/
theorem mode_of_mem_history {run : RunOptions} {format : Options} {engine : Engine}
    {console : Console} (h : .visited v ∈ (ofRun run format engine console).history files stdin)
    (hwrite : run.write = true) : (formatterFor run engine).mode = .plain :=
  formatterFor_mode engine hwrite (visited_mem_history h).2.2

/-- **An event keeps all files**, unless it is a visit that ends with the file written; then the
run writes files. -/
theorem keeps_or_writes {run : RunOptions} {format : Options} {engine : Engine}
    {console : Console} {e : Event}
    (h : e ∈ (ofRun run format engine console).history files stdin) :
    e.Keeps ∨ ∃ v place, e = .visited v ∧ v.result = .ok .written
      ∧ v.WritesTo (engine.format (format.forFile (some v.filename))) place
      ∧ run.write = true ∧ run.stdin = false ∧ run.conflict = none := by
  obtain ⟨hconflict, ⟨-, rfl⟩ | ⟨hstdin, ⟨pattern, rfl⟩ | ⟨found, f, rfl⟩⟩⟩ := mem_history h
  · exact Or.inl (receive_keeps _ _ _)
  · exact Or.inl ⟨rfl, fun found _ => rfl⟩
  · obtain ⟨hresult, hwrite, place, hplace⟩ | ⟨-, hkeeps⟩ :=
      replaces_or_keeps (mode_of_mem_history h) (processed_of_mem_history h)
    · exact Or.inr ⟨_, place, rfl, hresult, hplace, hwrite, hstdin, hconflict⟩
    · exact Or.inl hkeeps.event

/-- **A run changes files only as announced**, whether it comes to its end or is stopped. If it does
not write, reads the standard input or has options that cannot be used together, all files stay as
they are. A place that it writes to, or where other bytes are at the end, is one that a visit in its
history writes to, and each visit finds the files as the one before has left them. A visit that ends
with the file written has put what the formatter makes of the text there, and nothing else; every
other visit, also one that ends in an error or stops the run, keeps all files. A file that is its
own formatted text ends unchanged, even where it could not have been opened for writing. -/
theorem runAll_writes (run : RunOptions) (format : Options) (engine : Engine) (console : Console)
    (files : FileSystem) (stdin : List UInt8) :
    let p := ofRun run format engine console
    let r := (p.runAll (fresh files) stdin).1
    let es := p.history files stdin
    (run.write = false ∨ run.stdin = true ∨ run.conflict ≠ none → r.files = files ∧ r.written = [])
      ∧ (∀ place, place ∈ r.written ∨ r.files.bytesAt place ≠ files.bytesAt place →
          ∃ v, .visited v ∈ es ∧ v.result = .ok .written
            ∧ v.WritesTo (engine.format (format.forFile (some v.filename))) place)
      ∧ (Linked files es ∧ r.files = es.foldl Event.after files)
      ∧ ∀ v, .visited v ∈ es →
          (v.result = .ok .written →
              ∃ place, v.WritesTo (engine.format (format.forFile (some v.filename))) place)
            ∧ (v.result ≠ .ok .written → v.Keeps)
            ∧ ∀ source out, run.write = true → v.found.Holds v.filename source →
                engine.format (format.forFile (some v.filename)) source = .ok out →
                out.text = source → v.result = .ok .unchanged := by
  intro p r es
  obtain ⟨hmark, hlinked⟩ := runAll_mark p files stdin
  have hfiles : r.files = (es.foldl Mark.add (fresh files).mark).files := congrArg Mark.files hmark
  have hwritten : r.written = (es.foldl Mark.add (fresh files).mark).written :=
    congrArg Mark.written hmark
  refine ⟨?_, ?_, ⟨hlinked, hfiles.trans (files_foldl_add _ _)⟩, ?_⟩
  · intro hflags
    rw [hfiles, hwritten]
    refine foldl_add_of_keeps (m := (fresh files).mark) hlinked fun e he => ?_
    obtain hkeeps | ⟨-, -, -, -, -, hwrite, hstdin, hconflict⟩ := keeps_or_writes he
    · exact hkeeps
    · simp [hwrite, hstdin, hconflict] at hflags
  · intro place hplace
    rw [hfiles, hwritten] at hplace
    obtain hmem | ⟨e, he, htouches⟩ :=
      exists_touches (m := (fresh files).mark) hlinked hplace
    · cases hmem
    obtain hkeeps | ⟨v, other, rfl, hresult, hwrites, -⟩ := keeps_or_writes he
    · exact absurd htouches (hkeeps.not_touches place)
    · refine ⟨v, he, hresult, ?_⟩
      rw [hwrites.eq_of_touches htouches]
      exact hwrites
  · intro v hv
    have hvisit := replaces_or_keeps (mode_of_mem_history hv) (processed_of_mem_history hv)
    refine ⟨?_, ?_, ?_⟩
    · intro hresult
      obtain ⟨-, -, hwrites⟩ | ⟨hne, -⟩ := hvisit
      · exact hwrites
      · exact absurd hresult hne
    · intro hne
      obtain ⟨hresult, -⟩ | ⟨-, hkeeps⟩ := hvisit
      · exact absurd hresult hne
      · exact hkeeps
    · intro source out hwrite hholds hformat hsame
      exact unchanged_of_format_eq hwrite (mode_of_mem_history hv hwrite)
        (processed_of_mem_history hv) hholds hformat hsame

/-- A file whose text ends in a blank, in a run that writes. -/
theorem runAll_writes_blank :
    ∃ (run : RunOptions) (files : FileSystem), run.patterns = ["a.can"] ∧ run.write = true
      ∧ files.bytesAt ["a.can".toList] = some (Utf8.encode "a \n".toList)
      ∧ ((ofRun run [] (.standard fun _ => default) {}).runAll (fresh files) []).1.files.bytesAt
          ["a.can".toList] = some (Utf8.encode "a\n".toList) := by
  let run : RunOptions := { patterns := ["a.can"], write := true }
  let files := FileSystem.single "a.can".toList "a \n".toList
  let engine := Engine.standard fun _ => default
  let v := (ofRun run [] engine {}).visitOf files "a.can"
  have htext : Layout.canonical { filepath := "a.can" } "a \n".toList = "a\n".toList := by decide
  obtain ⟨cursor, hformat⟩ :=
    Engine.exists_format_default (Engine.resolve_forFile_nil "a.can") rfl rfl htext
  have hholds : files.Holds "a.can" "a \n".toList := rfl
  have hjudge := (judge_eq_ok_iff (p := ofRun run [] engine {}) rfl).mpr hformat
  have hresult : v.result = .ok .written :=
    (processed_visitOf (ofRun run [] engine {}) files "a.can").result_eq_written hholds hjudge rfl
      (by simp) List.not_mem_nil
  have hhistory : (ofRun run [] engine {}).history files [] = [.visited v] :=
    history_of_path rfl rfl rfl rfl
  have hmem : Event.visited v ∈ (ofRun run [] engine {}).history files [] := by
    rw [hhistory]
    exact List.mem_singleton_self _
  obtain ⟨-, -, ⟨-, hend⟩, hvisits⟩ := runAll_writes run [] engine {} files []
  obtain ⟨place, source, out, hout, hreplaces⟩ := (hvisits v hmem).1 hresult
  obtain ⟨bytes, hopen, hdecode, -⟩ := hreplaces.opens
  have hfile : files.openFile (Path.ofString "a.can").text
      = .ok (["a.can".toList], Utf8.encode "a \n".toList) := rfl
  cases hfile.symm.trans hopen
  cases (Utf8.decode_encode "a \n".toList).symm.trans hdecode
  cases hformat.symm.trans hout
  refine ⟨run, files, rfl, rfl, rfl, ?_⟩
  rw [hend, hhistory]
  exact hreplaces.bytesAt_eq

end Processor

end CaplLayout
