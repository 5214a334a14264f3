import CaplLayout.Proofs.Shapes
import CaplLayout.Proofs.Visits
import Mathlib.Data.List.Forall2

/-!
# Two runs in step

Two runs are compared from the same start. The first spares the files; the second writes to some of
them, and never to one that it comes to later, as no file is visited twice. So each visit of the
second run still finds its file as it was at the start (`FileSystem.StillReads`). If then each visit
of the first run foretells that of the second to the same file (`Processor.InStep`), both go on in
step: event by event they match (`InStep.matches_events`), and they end alike (`InStep.runAll`).
-/

set_option autoImplicit false

namespace CaplLayout

open Session

/-! ## Files that still read alike -/

namespace FileSystem

/-- Two names do not lead to the same file. -/
def Distinct (files : FileSystem) (f g : String) : Prop :=
  ∀ place bytes place' bytes',
    files.openFile (Path.ofString f).text = .ok (place, bytes) →
    files.openFile (Path.ofString g).text = .ok (place', bytes') → place ≠ place'

/-- The file system `present` has the directories of `files`, and the files `names` are as they are
there. -/
structure StillReads (files present : FileSystem) (names : List String) : Prop where
  shape_eq : present.shape = files.shape
  openFile_eq : ∀ f ∈ names,
    present.openFile (Path.ofString f).text = files.openFile (Path.ofString f).text

theorem StillReads.refl (files : FileSystem) (names : List String) : files.StillReads files names :=
  ⟨rfl, fun _ _ => rfl⟩

theorem StillReads.mono {files present : FileSystem} {names fewer : List String}
    (h : files.StillReads present names) (hsub : ∀ f ∈ fewer, f ∈ names) :
    files.StillReads present fewer :=
  ⟨h.shape_eq, fun f hf => h.openFile_eq f (hsub f hf)⟩

theorem StillReads.holds_iff {files present : FileSystem} {names : List String} {f : String}
    {source : Text} (h : files.StillReads present names) (hf : f ∈ names) :
    present.Holds f source ↔ files.Holds f source := by
  rw [FileSystem.holds_iff, FileSystem.holds_iff, h.openFile_eq f hf]

/-- **Processing one file** leaves all other files as they were. -/
theorem StillReads.left {p : Processor} {files present : FileSystem} {f : String}
    {names : List String} (h : files.StillReads present (f :: names))
    (hdistinct : ∀ g ∈ names, files.Distinct f g) :
    files.StillReads (p.visitOf present f).left.files names := by
  have hprocessed := p.processed_visitOf present f
  have hshape : (p.visitOf present f).left.files.shape = files.shape :=
    hprocessed.shape_eq.trans h.shape_eq
  refine ⟨hshape, fun g hg => openFile_congr hshape fun place bytes hopen => ?_⟩
  have hpresent := h.openFile_eq g (List.mem_cons_of_mem f hg)
  have hother : ∀ bytes', present.openFile (Path.ofString f).text ≠ .ok (place, bytes') := by
    intro bytes' hf
    rw [h.openFile_eq f List.mem_cons_self] at hf
    exact hdistinct g hg _ _ _ _ hf hopen rfl
  calc (p.visitOf present f).left.files.bytesAt place
      = present.bytesAt place := hprocessed.bytesAt_eq hother
    _ = some bytes := bytesAt_of_openFile (hpresent.trans hopen)
    _ = files.bytesAt place := (bytesAt_of_openFile hopen).symm

end FileSystem

/-! ## Two runs in step -/

/-- What a visit that lists tells of what a visit of the same file does that writes. -/
structure Foretells (l w : Visit) : Prop where
  filename_eq : w.filename = l.filename
  reported_iff : l.result = .ok .reported ↔ w.result = .ok .written ∨ w.result = .ok .writeError
  unchanged_iff : l.result = .ok .unchanged ↔ w.result = .ok .unchanged
  readError_iff : l.result = .ok .readError ↔ w.result = .ok .readError
  formatError_iff : l.result = .ok .formatError ↔ w.result = .ok .formatError
  stopped_iff : ∀ stop, l.result = .error stop ↔ w.result = .error stop
  /-- The report of an error is the same. -/
  report_eq : l.result = .ok .readError ∨ l.result = .ok .formatError →
    w.left.output = l.left.output

theorem Foretells.of_result_eq {l w : Visit} (hname : w.filename = l.filename)
    (h : l.result = w.result) (hreported : w.result ≠ .ok .reported)
    (hwritten : w.result ≠ .ok .written) (hrefused : w.result ≠ .ok .writeError)
    (hreport : l.result = .ok .readError ∨ l.result = .ok .formatError →
      w.left.output = l.left.output) : Foretells l w := by
  refine ⟨hname, ?_, ?_, ?_, ?_, ?_, hreport⟩ <;> simp [h, hreported, hwritten, hrefused]

theorem Foretells.of_reported {l w : Visit} (hname : w.filename = l.filename)
    (hl : l.result = .ok .reported) (hw : w.result = .ok .written ∨ w.result = .ok .writeError) :
    Foretells l w := by
  rcases hw with hw | hw <;> constructor <;> simp [hl, hw, hname]

/-- An event of a run that lists, and the one of a run that writes in its place. -/
def Event.Matches : Event → Event → Prop
  | .unsearchable a, .unsearchable b => a = b
  | .visited l, .visited w => Foretells l w
  | _, _ => False

theorem Event.Matches.stop?_eq {e e' : Event} (h : e.Matches e') : e.stop? = e'.stop? := by
  cases e with
  | unsearchable a =>
      cases e' with
      | unsearchable b => rfl
      | visited | unreadable | received => exact h.elim
  | visited l =>
      cases e' with
      | visited w =>
          have hforetells : Foretells l w := h
          refine Option.ext fun stop => ?_
          rw [stop?_visited_eq_some, stop?_visited_eq_some, hforetells.stopped_iff]
      | unsearchable | unreadable | received => exact h.elim
  | unreadable | received => exact h.elim

section

variable {es es' : List Event} (h : List.Forall₂ Event.Matches es es')
include h

theorem stops_eq_of_matches : es.map Event.stop? = es'.map Event.stop? := by
  induction h with
  | nil => rfl
  | cons hhead _ ih => rw [List.map_cons, List.map_cons, hhead.stop?_eq, ih]

theorem matches_andThen {files files' : FileSystem} {rest rest' : FileSystem → List Event}
    (hrest : List.Forall₂ Event.Matches (rest (es.foldl Event.after files))
      (rest' (es'.foldl Event.after files'))) :
    List.Forall₂ Event.Matches (Event.andThen files es rest) (Event.andThen files' es' rest') := by
  have hany : ∀ l : List Event, (l.any fun e => e.stop?.isSome)
      = (l.map Event.stop?).any Option.isSome := by
    intro l
    rw [List.any_map]
    rfl
  unfold Event.andThen
  rw [hany es, hany es', stops_eq_of_matches h]
  refine List.rel_append h ?_
  split
  · exact .nil
  · exact hrest

/-- Two runs in step are stopped by the same, if by anything. -/
theorem stop_eq_of_matches {s s' : Session} {r r' : Session × Option Stop}
    (hfollows : Follows s es r) (hfollows' : Follows s' es' r') : r.2 = r'.2 := by
  have hmem : ∀ (l : List Event) (stop : Stop), (∃ e ∈ l, e.stop? = some stop)
      ↔ some stop ∈ l.map Event.stop? := fun l stop => List.mem_map.symm
  refine Option.ext fun stop => ?_
  rw [hfollows.stop_iff, hfollows'.stop_iff, hmem es, hmem es', stops_eq_of_matches h]

theorem foretells_of_matches : List.Forall₂ Foretells (visitsAmong es) (visitsAmong es') := by
  induction h with
  | nil => exact .nil
  | @cons e e' es es' hhead _ ih =>
      cases e with
      | unsearchable a =>
          cases e' with
          | unsearchable b => exact ih
          | visited | unreadable | received => exact hhead.elim
      | visited l =>
          cases e' with
          | visited w => exact .cons hhead ih
          | unsearchable | unreadable | received => exact hhead.elim
      | unreadable | received => exact hhead.elim

end

namespace Processor

variable {files present : FileSystem}

/-! ## Whole runs -/

/-- The run `l` spares `files`, and wherever a file is still as it is there, the visit of `l` to it
foretells that of `w`. -/
structure InStep (l w : Processor) (files : FileSystem) : Prop where
  selection_eq : w.selection = l.selection
  spares : l.Spares files
  foretells : ∀ {present : FileSystem} {names : List String} {f : String},
    files.StillReads present names → f ∈ names → FileSystem.null ∉ f.toList →
      Foretells (l.visitOf files f) (w.visitOf present f)

namespace InStep

variable {l w : Processor} (h : InStep l w files) {names later patterns : List String}
include h

theorem matches_visits (hstill : files.StillReads present (names ++ later))
    (hdistinct : (names ++ later).Pairwise files.Distinct)
    (hnull : ∀ f ∈ names, FileSystem.null ∉ f.toList) :
    List.Forall₂ Event.Matches (l.visits files names) (w.visits present names)
      ∧ files.StillReads ((w.visits present names).foldl Event.after present) later := by
  -- `present` moves on with the writes, `files` stays; `StillReads` is kept for the names to come
  induction names generalizing present with
  | nil => exact ⟨.nil, hstill⟩
  | cons f r ih =>
      rw [List.cons_append, List.pairwise_cons] at hdistinct
      have hhead : Event.Matches (.visited (l.visitOf files f)) (.visited (w.visitOf present f)) :=
        h.foretells hstill List.mem_cons_self (hnull f List.mem_cons_self)
      have hleft : files.StillReads (w.visitOf present f).left.files (r ++ later) :=
        hstill.left hdistinct.1
      obtain ⟨hmatches, hlater⟩ :=
        ih hleft hdistinct.2 fun g hg => hnull g (List.mem_cons_of_mem f hg)
      have hspares : [Event.visited (l.visitOf files f)].foldl Event.after files = files :=
        h.spares f
      rw [visits, visits]
      refine ⟨matches_andThen (.cons hhead .nil) ?_, ?_⟩
      · rw [hspares]
        exact hmatches
      · rw [Event.andThen, List.foldl_append]
        split
        · exact hleft.mono fun g hg => List.mem_append_right r hg
        · exact hlater

theorem matches_eventsAt {pattern : String}
    (hstill : files.StillReads present (l.selection.pathsOf files pattern ++ later))
    (hdistinct : (l.selection.pathsOf files pattern ++ later).Pairwise files.Distinct)
    (hnull : ∀ f ∈ l.selection.pathsOf files pattern, FileSystem.null ∉ f.toList) :
    List.Forall₂ Event.Matches (l.eventsAt files pattern) (w.eventsAt present pattern)
      ∧ files.StillReads ((w.eventsAt present pattern).foldl Event.after present) later := by
  -- what has been written so far has no bearing on which files the pattern finds
  have hresolve : w.selection.resolve present pattern = l.selection.resolve files pattern := by
    rw [h.selection_eq]
    exact Selection.resolve_congr hstill.shape_eq
  unfold Selection.pathsOf at hstill hdistinct hnull
  rw [eventsAt, eventsAt, hresolve]
  cases hnames : l.selection.resolve files pattern with
  | error e => exact ⟨.cons rfl .nil, hstill.mono fun f hf => List.mem_append_right _ hf⟩
  | ok names =>
      rw [hnames] at hstill hdistinct hnull
      exact h.matches_visits hstill hdistinct hnull

theorem matches_events (hstill : files.StillReads present (l.selection.paths files patterns))
    (hdistinct : (l.selection.paths files patterns).Pairwise files.Distinct)
    (hnull : ∀ f ∈ l.selection.paths files patterns, FileSystem.null ∉ f.toList) :
    List.Forall₂ Event.Matches (l.events files patterns) (w.events present patterns) := by
  induction patterns generalizing present with
  | nil => exact .nil
  | cons pattern r ih =>
      rw [Selection.paths_cons] at hstill hdistinct hnull
      obtain ⟨hmatches, hlater⟩ := h.matches_eventsAt hstill hdistinct
        fun f hf => hnull f (List.mem_append_left _ hf)
      rw [events, events]
      refine matches_andThen hmatches ?_
      rw [h.spares.foldl_eventsAt]
      exact ih hlater (List.pairwise_append.mp hdistinct).2.1
        fun f hf => hnull f (List.mem_append_right _ hf)

/-- **Two runs in step** are both given up, with the same report, or both come to all paths that the
patterns stand for; and as far as they come, the visits of one foretell those of the other. -/
theorem runAll (hl : l.run.conflict = none) (hw : w.run.conflict = none)
    (hlin : l.run.stdin = false) (hwin : w.run.stdin = false)
    (hpatterns : w.run.patterns = l.run.patterns) (stdin : List UInt8)
    (hdistinct : (l.selection.paths files l.run.patterns).Pairwise files.Distinct)
    (hnull : ∀ f ∈ l.selection.paths files l.run.patterns, FileSystem.null ∉ f.toList) :
    ((∃ m, (l.runAll (fresh files) stdin).2 = .error (.aborted m)
          ∧ (w.runAll (fresh files) stdin).2 = .error (.aborted m))
        ∨ ((∃ code, (l.runAll (fresh files) stdin).2 = .ok code)
          ∧ (∃ code, (w.runAll (fresh files) stdin).2 = .ok code)
          ∧ (visitsAmong (l.history files stdin)).map Visit.filename
              = l.selection.paths files l.run.patterns))
      ∧ List.Forall₂ Foretells (visitsAmong (l.history files stdin))
          (visitsAmong (w.history files stdin)) := by
  have hhistory := history_of_files hl hlin files stdin
  have hmatches : List.Forall₂ Event.Matches (l.history files stdin) (w.history files stdin) := by
    rw [hhistory, history_of_files hw hwin, hpatterns]
    exact h.matches_events (.refl _ _) hdistinct hnull
  refine ⟨?_, foretells_of_matches hmatches⟩
  obtain ⟨⟨t, stop⟩, hfollows, hlrun⟩ := follows_runAll files stdin hl
  obtain ⟨⟨t', stop'⟩, hfollows', hwrun⟩ := follows_runAll files stdin hw
  have hsame : stop = stop' := stop_eq_of_matches hmatches hfollows hfollows'
  subst hsame
  rw [hlrun, hwrun]
  rcases stop with _ | m | _
  · right
    have hnone : ∀ e ∈ l.events files l.run.patterns, e.stop? = none := by
      intro e he
      rw [← hhistory] at he
      refine Option.eq_none_iff_forall_ne_some.mpr fun stop hstop => ?_
      cases (hfollows.stop_iff stop).mpr ⟨e, he, hstop⟩
    refine ⟨⟨_, rfl⟩, ⟨_, rfl⟩, ?_⟩
    rw [hhistory, h.spares.visitsAmong_events (h.spares.goesBy_of_events hnone), List.map_map]
    exact List.map_id _
  · exact Or.inl ⟨m, rfl, rfl⟩
  · -- no path holds the null character, so nothing else can stop a run
    obtain ⟨e, he, hstop⟩ := (hfollows.stop_iff _).mp rfl
    rw [hhistory] at he
    rcases h.spares.mem_events he with ⟨pattern, rfl⟩ | ⟨f, hf, rfl⟩
    · cases hstop
    · have hresult := Event.stop?_visited_eq_some.mp hstop
      exact absurd ((processed_visitOf l files f).null_mem hresult)
        (Path.null_not_mem_text (hnull f hf))

end InStep

end Processor

end CaplLayout
