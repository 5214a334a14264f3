import CaplLayout.Proofs.Processing
import CaplLayout.Run.Controller

/-!
# What happens in a run

The history of a run is the list of its events: the patterns that cannot be searched for and the
visits of files, in order, or what has become of the standard input. A visit depends on nothing but
the files that it finds (`process_resume`), so the history is told without the session of the run.

What a run leaves behind is read off its history (`Follows`): every event adds to the exit code and
to the files that have been written, each visit finds the files as the events before have left them,
and the run is stopped when an event stops it (`follows_runAll`).
-/

set_option autoImplicit false

namespace CaplLayout

open Session

/-! ## Events -/

/-- A file that a run has come to. -/
structure Visit where
  filename : String
  /-- The files that the visit finds. -/
  found : FileSystem
  /-- The session that it makes of a new one. -/
  left : Session
  result : Except Stop Outcome

/-- What happens in a run. -/
inductive Event
  /-- A pattern cannot be searched for. -/
  | unsearchable (pattern : String)
  /-- A file is processed. -/
  | visited (v : Visit)
  /-- The standard input is no text. -/
  | unreadable
  /-- A text from the standard input is processed among the files `found`: the session that this
  makes of a new one, and the result. -/
  | received (found : FileSystem) (source : Text) (left : Session) (result : Except Stop Outcome)

namespace Event

/-- The exit code that an event asks for. -/
def exit : Event → ExitCode
  | .unsearchable _ => .failure
  | .visited v => v.left.exit
  | .unreadable => .failure
  | .received _ _ left _ => left.exit

/-- The files behind an event in front of which they are `files`. -/
def after (files : FileSystem) : Event → FileSystem
  | .visited v => v.left.files
  | .received _ _ left _ => left.files
  | _ => files

/-- The places that an event writes to, the last one first. -/
def written : Event → List (List Text)
  | .visited v => v.left.written
  | .received _ _ left _ => left.written
  | _ => []

/-- What stops the run at an event. -/
def stop? : Event → Option Stop
  | .visited v => match v.result with | .error stop => some stop | .ok _ => none
  | .received _ _ _ result => match result with | .error stop => some stop | .ok _ => none
  | _ => none

theorem stop?_visited_eq_some {v : Visit} {stop : Stop} :
    (Event.visited v).stop? = some stop ↔ v.result = .error stop := by
  cases h : v.result <;> simp [stop?, h]

theorem stop?_visited_eq_none {v : Visit} :
    (Event.visited v).stop? = none ↔ ∃ o, v.result = .ok o := by
  cases h : v.result <;> simp [stop?, h]

/-- Events among `files`, and those that come behind them unless the run is stopped. -/
def andThen (files : FileSystem) (es : List Event) (rest : FileSystem → List Event) : List Event :=
  es ++ if es.any fun e => e.stop?.isSome then [] else rest (es.foldl after files)

/-- An event happens among `files`. -/
def Finds (files : FileSystem) : Event → Prop
  | .visited v => v.found = files
  | .received found .. => found = files
  | _ => True

end Event

/-- A mark behind one more event. -/
def Mark.add (m : Mark) (e : Event) : Mark :=
  ⟨e.after m.files, m.exit.escalate e.exit, e.written ++ m.written⟩

/-- Each event finds the files as the one before has left them. -/
def Linked : FileSystem → List Event → Prop
  | _, [] => True
  | files, e :: es => e.Finds files ∧ Linked (e.after files) es

/-- The steps from the session `s` to `r` have the history `es`. -/
structure Follows (s : Session) (es : List Event) (r : Session × Option Stop) : Prop where
  mark_eq : r.1.mark = es.foldl Mark.add s.mark
  stop_iff : ∀ stop, r.2 = some stop ↔ ∃ e ∈ es, e.stop? = some stop
  linked : Linked s.files es

theorem files_foldl_add (m : Mark) (es : List Event) :
    (es.foldl Mark.add m).files = es.foldl Event.after m.files := by
  induction es generalizing m with
  | nil => rfl
  | cons e es ih => exact ih _

theorem linked_append (files : FileSystem) (a b : List Event) :
    Linked files (a ++ b) ↔ Linked files a ∧ Linked (a.foldl Event.after files) b := by
  induction a generalizing files with
  | nil => simp [Linked]
  | cons e a ih => rw [List.cons_append, Linked, Linked, ih, List.foldl_cons, and_assoc]

namespace Follows

variable {s t : Session} {es fs : List Event} {r : Session × Option Stop}

theorem nil (h : r.1.mark = s.mark) (hstop : r.2 = none) : Follows s [] r := by
  refine ⟨h, fun stop => ?_, trivial⟩
  rw [hstop]
  simp

theorem files_eq (h : Follows s es r) : r.1.files = es.foldl Event.after s.files := by
  have hmark := congrArg Mark.files h.mark_eq
  rw [files_foldl_add] at hmark
  exact hmark

theorem any_stop (h : Follows s es r) : (es.any fun e => e.stop?.isSome) = r.2.isSome := by
  rw [Bool.eq_iff_iff, List.any_eq_true]
  simp only [Option.isSome_iff_exists]
  constructor
  · rintro ⟨e, he, stop, hstop⟩
    exact ⟨stop, (h.stop_iff stop).mpr ⟨e, he, hstop⟩⟩
  · rintro ⟨stop, hstop⟩
    obtain ⟨e, he, hstop⟩ := (h.stop_iff stop).mp hstop
    exact ⟨e, he, stop, hstop⟩

/-- Steps that do not stop the run, and further steps behind them. -/
theorem append (h : Follows s es (t, none)) (hrest : Follows t fs r) : Follows s (es ++ fs) r := by
  have hfiles : t.files = es.foldl Event.after s.files := h.files_eq
  refine ⟨?_, fun stop => ?_, (linked_append _ _ _).mpr ⟨h.linked, ?_⟩⟩
  · rw [List.foldl_append, hrest.mark_eq, ← h.mark_eq]
  · rw [hrest.stop_iff]
    constructor
    · rintro ⟨e, he, hstop⟩
      exact ⟨e, List.mem_append_right _ he, hstop⟩
    · rintro ⟨e, he, hstop⟩
      rcases List.mem_append.mp he with he | he
      · cases (h.stop_iff stop).mpr ⟨e, he, hstop⟩
      · exact ⟨e, he, hstop⟩
  · rw [← hfiles]
    exact hrest.linked

/-- **One step after another**, unless the first one stops the run. -/
theorem andThen (rest : FileSystem → List Event) (next : Session → Session × Option Stop)
    (hnext : ∀ t, Follows t (rest t.files) (next t)) :
    Follows s es r →
      Follows s (Event.andThen s.files es rest)
        (match r with | (t, some stop) => (t, some stop) | (t, none) => next t) := by
  intro h
  have hany := h.any_stop
  have hfiles := h.files_eq
  rcases r with ⟨t, _ | stop⟩
  · rw [Event.andThen, hany, ← hfiles]
    exact h.append (hnext t)
  · rw [Event.andThen, hany]
    simpa using h

/-- Printing in front of the first event makes no difference. -/
theorem of_mark_eq (h : Follows t es r) (hmark : t.mark = s.mark) : Follows s es r := by
  have hfiles : t.files = s.files := congrArg Mark.files hmark
  refine ⟨by rw [← hmark]; exact h.mark_eq, h.stop_iff, ?_⟩
  rw [← hfiles]
  exact h.linked

end Follows

/-! ## Patterns -/

namespace Selection

variable (sel : Selection) (fs : FileSystem) (pattern : String)

/-- The paths that a pattern stands for, or why it cannot be searched for. -/
def resolve : Except AccessError (List String) :=
  if !Glob.hasMagic pattern.toList then .ok (if sel.isIgnored fs pattern then [] else [pattern])
  else sel.expand fs pattern

/-- What happens at a pattern: it cannot be searched for, which is reported, or its paths are
visited behind a log line at most. -/
theorem visitPattern_cases (console : Console) (visit : Session → String → Session × Option Stop)
    (s : Session) :
    (∃ e, sel.resolve s.files pattern = .error e
        ∧ sel.visitPattern console visit s pattern
          = ((s.print (console.echoLine .err
              ("Unable to expand glob pattern: " ++ pattern ++ "\n" ++ e.text))).escalate .failure,
            none))
      ∨ ∃ names pieces, sel.resolve s.files pattern = .ok names
        ∧ (pieces = [] ∨ ∃ line, pieces = console.log line)
        ∧ sel.visitPattern console visit s pattern = visitAll visit (s.print pieces) names := by
  unfold visitPattern resolve
  split
  · right
    split
    · exact ⟨[], _, rfl, Or.inr ⟨_, rfl⟩, rfl⟩
    · refine ⟨[pattern], [], rfl, Or.inl rfl, ?_⟩
      have hprint : s.print [] = s := by simp [Session.print]
      rw [hprint, visitAll]
      rcases visit s pattern with ⟨t, _ | stop⟩ <;> rfl
  · cases sel.expand s.files pattern with
    | error e => exact Or.inl ⟨e, rfl, rfl⟩
    | ok names => exact Or.inr ⟨names, _, rfl, Or.inr ⟨_, rfl⟩, rfl⟩

/-- The operating system can be asked about the paths that a pattern stands for, if it can be asked
about a pattern that is a path itself. -/
theorem null_not_mem_of_resolve {sel : Selection} {fs : FileSystem} {pattern filename : String}
    {names : List String} (h : sel.resolve fs pattern = .ok names) (hmem : filename ∈ names)
    (hpattern : Glob.hasMagic pattern.toList = false → FileSystem.null ∉ pattern.toList) :
    FileSystem.null ∉ filename.toList := by
  unfold resolve at h
  split at h
  · next hmagic =>
      cases h
      split at hmem
      · cases hmem
      · rw [List.mem_singleton.mp hmem]
        exact hpattern (by simpa using hmagic)
  · unfold expand at h
    cases hsearch : Glob.search fs pattern.toList with
    | error e =>
        rw [hsearch] at h
        cases h
    | ok found =>
        rw [hsearch] at h
        cases h
        rw [List.mem_mergeSort] at hmem
        obtain ⟨path, hpath, rfl⟩ := List.mem_map.mp hmem
        have hadmits := (List.mem_filter.mp hpath).2
        unfold admits at hadmits
        rw [Bool.and_eq_true] at hadmits
        rw [String.toList_ofList]
        exact FileSystem.null_not_mem_of_isFile hadmits.1

end Selection

namespace Processor

variable (p : Processor)

/-! ## The history of a run -/

/-- The visit of the file `filename` among `files`. -/
def visitOf (files : FileSystem) (filename : String) : Visit :=
  let r := p.process (fresh files) filename
  ⟨filename, files, r.1, r.2⟩

/-- The visits of files, one after the other until one of them stops the run. -/
def visits : FileSystem → List String → List Event
  | _, [] => []
  | files, f :: r => Event.andThen files [.visited (p.visitOf files f)] fun g => visits g r

/-- What happens at a pattern. -/
def eventsAt (files : FileSystem) (pattern : String) : List Event :=
  match p.selection.resolve files pattern with
  | .error _ => [.unsearchable pattern]
  | .ok names => p.visits files names

/-- What happens at patterns, one after the other until the run is stopped. -/
def events : FileSystem → List String → List Event
  | _, [] => []
  | files, pattern :: r => Event.andThen files (p.eventsAt files pattern) fun g => events g r

/-- What happens to the standard input. -/
def receive (files : FileSystem) (stdin : List UInt8) : Event :=
  match Utf8.decode stdin with
  | .error _ => .unreadable
  | .ok source =>
    let r := p.processSource (fresh files) source.unifyTerminators "stdin"
    .received files source.unifyTerminators r.1 r.2

/-- What happens in a run. -/
def history (files : FileSystem) (stdin : List UInt8) : List Event :=
  if p.run.conflict.isSome then []
  else if p.run.stdin then [p.receive files stdin]
  else p.events files p.run.patterns

/-! ## The history is that of the run -/

variable {p}

theorem follows_visit (s : Session) (filename : String) :
    Follows s [.visited (p.visitOf s.files filename)] (p.visit s filename) := by
  have hprocess := process_resume p s (fresh s.files) filename
  rw [resume_fresh] at hprocess
  have hvisit : p.visitOf s.files filename
      = ⟨filename, s.files, (p.process (fresh s.files) filename).1,
          (p.process (fresh s.files) filename).2⟩ := rfl
  rw [visit, hprocess, hvisit]
  rcases p.process (fresh s.files) filename with ⟨left, stop | o⟩
  · refine ⟨rfl, fun other => ?_, rfl, trivial⟩
    simp [Prod.map, Event.stop?]
  · refine ⟨rfl, fun other => ?_, rfl, trivial⟩
    simp [Prod.map, Event.stop?]

theorem follows_visitAll (s : Session) (names : List String) :
    Follows s (p.visits s.files names) (Selection.visitAll p.visit s names) := by
  induction names generalizing s with
  | nil => exact .nil rfl rfl
  | cons f r ih =>
      rw [visits, Selection.visitAll]
      exact .andThen (fun g => p.visits g r) _ ih (follows_visit s f)

theorem follows_visitPattern (s : Session) (pattern : String) :
    Follows s (p.eventsAt s.files pattern)
      (p.selection.visitPattern p.console p.visit s pattern) := by
  rcases p.selection.visitPattern_cases pattern p.console p.visit s with
    ⟨e, hresolve, hvisit⟩ | ⟨names, pieces, hresolve, -, hvisit⟩
  · rw [eventsAt, hresolve, hvisit]
    refine ⟨rfl, fun stop => ?_, trivial, trivial⟩
    simp [Event.stop?]
  · rw [eventsAt, hresolve, hvisit]
    exact (follows_visitAll (s.print pieces) names).of_mark_eq (mark_print s pieces)

theorem follows_visitPatterns (s : Session) (patterns : List String) :
    Follows s (p.events s.files patterns)
      (p.selection.visitPatterns p.console p.visit s patterns) := by
  rw [Selection.visitPatterns]
  induction patterns generalizing s with
  | nil => exact .nil rfl rfl
  | cons pattern r ih =>
      rw [events, Selection.visitAll]
      exact .andThen (fun g => p.events g r) _ ih (follows_visitPattern s pattern)

theorem follows_runStdin (files : FileSystem) (stdin : List UInt8) :
    ∃ r, Follows (fresh files) [p.receive files stdin] r
      ∧ p.runStdin (fresh files) stdin = finish r := by
  unfold runStdin receive
  rcases Utf8.decode stdin with fault | source
  · refine ⟨(_, none), ⟨rfl, fun stop => ?_, trivial, trivial⟩, rfl⟩
    simp [Event.stop?]
  · have hmark : ∀ t : Session,
        ⟨t.files, ExitCode.success.escalate t.exit, t.written ++ []⟩ = t.mark := by
      intro t
      rw [ExitCode.success_escalate, List.append_nil]
      rfl
    dsimp only
    rcases p.processSource (fresh files) source.unifyTerminators "stdin" with ⟨t, stop | o⟩
    · refine ⟨(t, some stop), ⟨(hmark t).symm, fun other => ?_, rfl, trivial⟩, rfl⟩
      simp [Event.stop?]
    · refine ⟨(t, none), ⟨(hmark t).symm, fun other => ?_, rfl, trivial⟩, rfl⟩
      simp [Event.stop?]

/-- **A run is told by its history**, unless its options cannot be used together. -/
theorem follows_runAll (files : FileSystem) (stdin : List UInt8) (h : p.run.conflict = none) :
    ∃ r, Follows (fresh files) (p.history files stdin) r
      ∧ p.runAll (fresh files) stdin = finish r := by
  unfold history runAll
  rw [h]
  dsimp only [Option.isSome_none]
  by_cases hstdin : p.run.stdin = true
  · rw [if_neg Bool.false_ne_true, if_pos hstdin, if_pos hstdin]
    exact follows_runStdin files stdin
  · rw [if_neg Bool.false_ne_true, if_neg hstdin, if_neg hstdin]
    exact ⟨_, follows_visitPatterns (fresh files) p.run.patterns, rfl⟩

theorem fst_finish (r : Session × Option Stop) : (finish r).1 = r.1 := by
  rcases r with ⟨s, _ | stop⟩ <;> rfl

/-- What a run leaves behind, whether it is stopped or not. -/
theorem runAll_mark (p : Processor) (files : FileSystem) (stdin : List UInt8) :
    (p.runAll (fresh files) stdin).1.mark
        = (p.history files stdin).foldl Mark.add (fresh files).mark
      ∧ Linked files (p.history files stdin) := by
  cases hconflict : p.run.conflict with
  | some message =>
      unfold runAll history
      rw [hconflict]
      exact ⟨rfl, trivial⟩
  | none =>
      obtain ⟨r, hfollows, hrun⟩ := follows_runAll files stdin hconflict
      rw [hrun, fst_finish]
      exact ⟨hfollows.mark_eq, hfollows.linked⟩

/-- What happens in a run over files is what happens at its patterns. -/
theorem history_of_files (hconflict : p.run.conflict = none) (hstdin : p.run.stdin = false)
    (files : FileSystem) (stdin : List UInt8) :
    p.history files stdin = p.events files p.run.patterns := by
  rw [history, hconflict, hstdin, if_neg (by simp), if_neg (by simp)]

/-- A run over a single path that stands for itself visits that path. -/
theorem history_of_path {files : FileSystem} {stdin : List UInt8} {path : String}
    (hpatterns : p.run.patterns = [path]) (hconflict : p.run.conflict = none)
    (hstdin : p.run.stdin = false) (hresolve : p.selection.resolve files path = .ok [path]) :
    p.history files stdin = [.visited (p.visitOf files path)] := by
  rw [history_of_files hconflict hstdin, hpatterns, events, eventsAt, hresolve]
  simp [Event.andThen, visits, events]

/-! ## Where events come from -/

theorem mem_andThen {files : FileSystem} {es : List Event} {rest : FileSystem → List Event}
    {e : Event} (h : e ∈ Event.andThen files es rest) :
    e ∈ es ∨ e ∈ rest (es.foldl Event.after files) := by
  rcases List.mem_append.mp h with h | h
  · exact Or.inl h
  · split at h
    · cases h
    · exact Or.inr h

theorem mem_visits {files : FileSystem} {names : List String} {e : Event}
    (h : e ∈ p.visits files names) : ∃ found, ∃ f ∈ names, e = .visited (p.visitOf found f) := by
  induction names generalizing files with
  | nil => cases h
  | cons f r ih =>
      rw [visits] at h
      rcases mem_andThen h with h | h
      · exact ⟨files, f, List.mem_cons_self, List.mem_singleton.mp h⟩
      · obtain ⟨found, g, hg, he⟩ := ih h
        exact ⟨found, g, List.mem_cons_of_mem _ hg, he⟩

/-- **An event at patterns** is a pattern that cannot be searched for or the visit of a file that a
pattern stands for. -/
theorem mem_events {files : FileSystem} {patterns : List String} {e : Event}
    (h : e ∈ p.events files patterns) :
    ∃ pattern ∈ patterns, ∃ present,
      ((∃ error, p.selection.resolve present pattern = .error error) ∧ e = .unsearchable pattern)
        ∨ ∃ names found, p.selection.resolve present pattern = .ok names
            ∧ ∃ f ∈ names, e = .visited (p.visitOf found f) := by
  induction patterns generalizing files with
  | nil => cases h
  | cons pattern r ih =>
      rw [events] at h
      rcases mem_andThen h with h | h
      · refine ⟨pattern, List.mem_cons_self, files, ?_⟩
        rw [eventsAt] at h
        cases hresolve : p.selection.resolve files pattern with
        | error error =>
            rw [hresolve] at h
            exact Or.inl ⟨⟨error, rfl⟩, List.mem_singleton.mp h⟩
        | ok names =>
            rw [hresolve] at h
            obtain ⟨found, f, hf, he⟩ := mem_visits h
            exact Or.inr ⟨names, found, rfl, f, hf, he⟩
      · obtain ⟨other, hother, present, he⟩ := ih h
        exact ⟨other, List.mem_cons_of_mem _ hother, present, he⟩

/-- **An event of a run**: its options can be used together, and what happens is what becomes of
the standard input, if the run reads that, or else a pattern that cannot be searched for or the
visit of a file. -/
theorem mem_history {files : FileSystem} {stdin : List UInt8} {e : Event}
    (h : e ∈ p.history files stdin) :
    p.run.conflict = none
      ∧ (p.run.stdin = true ∧ e = p.receive files stdin
        ∨ p.run.stdin = false
          ∧ ((∃ pattern, e = .unsearchable pattern)
            ∨ ∃ found f, e = .visited (p.visitOf found f))) := by
  unfold history at h
  split at h
  · cases h
  next hconflict =>
    refine ⟨by simpa using hconflict, ?_⟩
    split at h
    · next hstdin => exact Or.inl ⟨hstdin, List.mem_singleton.mp h⟩
    · next hstdin =>
        refine Or.inr ⟨by simpa using hstdin, ?_⟩
        obtain ⟨pattern, _, present, ⟨_, he⟩ | ⟨names, found, _, f, _, he⟩⟩ := mem_events h
        · exact Or.inl ⟨pattern, he⟩
        · exact Or.inr ⟨found, f, he⟩

/-- What is visited has been processed. -/
theorem processed_visitOf (p : Processor) (files : FileSystem) (filename : String) :
    p.Processed files filename (p.visitOf files filename).left.mark
      (p.visitOf files filename).result :=
  ends_process p files filename

/-- A visit in the history of a run is that of its file among the files that it finds; the run reads
files, and its options can be used together. -/
theorem visited_mem_history {files : FileSystem} {stdin : List UInt8} {v : Visit}
    (h : .visited v ∈ p.history files stdin) :
    v = p.visitOf v.found v.filename ∧ p.run.stdin = false ∧ p.run.conflict = none := by
  obtain ⟨hconflict, ⟨-, he⟩ | ⟨hstdin, ⟨pattern, he⟩ | ⟨found, f, he⟩⟩⟩ := mem_history h
  · unfold receive at he
    split at he <;> cases he
  · cases he
  · cases he
    exact ⟨rfl, hstdin, hconflict⟩

theorem processed_of_mem_history {files : FileSystem} {stdin : List UInt8} {v : Visit}
    (h : .visited v ∈ p.history files stdin) :
    p.Processed v.found v.filename v.left.mark v.result := by
  have hprocessed := processed_visitOf p v.found v.filename
  rwa [← (visited_mem_history h).1] at hprocessed

end Processor

end CaplLayout
