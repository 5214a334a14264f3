import CaplLayout.Proofs.History

/-!
# Which files a run visits

The patterns of a run stand for paths (`Selection.paths`). A run that spares the files, so that each
visit finds them as they were at first, visits these paths in order up to the first visit that stops
it (`Spares.visits_append`, `Spares.events_append`), and all of them if there is none
(`Spares.visitsAmong_events`).
-/

set_option autoImplicit false

namespace CaplLayout

open Session

/-- The visits among events. -/
def visitsAmong (es : List Event) : List Visit :=
  es.filterMap fun
    | .visited v => some v
    | _ => none

theorem visitsAmong_append (a b : List Event) :
    visitsAmong (a ++ b) = visitsAmong a ++ visitsAmong b := List.filterMap_append

theorem visitsAmong_map_visited (vs : List Visit) : visitsAmong (vs.map .visited) = vs := by
  induction vs with
  | nil => rfl
  | cons v vs ih => exact congrArg (v :: ·) ih

namespace Selection

variable (sel : Selection) (fs : FileSystem)

/-- The paths that a pattern stands for, none if it cannot be searched for. -/
def pathsOf (pattern : String) : List String :=
  match sel.resolve fs pattern with
  | .error _ => []
  | .ok names => names

/-- The paths that patterns stand for, in the order of the patterns. -/
def paths (patterns : List String) : List String := patterns.flatMap (sel.pathsOf fs)

theorem paths_cons (pattern : String) (r : List String) :
    sel.paths fs (pattern :: r) = sel.pathsOf fs pattern ++ sel.paths fs r := List.flatMap_cons

theorem paths_append (a b : List String) :
    sel.paths fs (a ++ b) = sel.paths fs a ++ sel.paths fs b := List.flatMap_append

/-- The operating system can be asked about all paths that patterns stand for, if it can be asked
about those patterns that are paths themselves. -/
theorem null_not_mem_of_mem_paths {sel : Selection} {fs : FileSystem} {patterns : List String}
    {f : String} (hf : f ∈ sel.paths fs patterns)
    (hpatterns : ∀ pattern ∈ patterns, Glob.hasMagic pattern.toList = false →
      FileSystem.null ∉ pattern.toList) : FileSystem.null ∉ f.toList := by
  obtain ⟨pattern, hpattern, hmem⟩ := List.mem_flatMap.mp hf
  unfold pathsOf at hmem
  cases hresolve : sel.resolve fs pattern with
  | error e =>
      rw [hresolve] at hmem
      cases hmem
  | ok names =>
      rw [hresolve] at hmem
      exact null_not_mem_of_resolve hresolve hmem (hpatterns pattern hpattern)

/-- Calls for paths that stop are not followed by further ones. -/
theorem visitAll_append_of_stops {visit : Session → String → Session × Option Stop} {s : Session}
    {names : List String} (more : List String) (h : (visitAll visit s names).2 ≠ none) :
    visitAll visit s (names ++ more) = visitAll visit s names := by
  induction names generalizing s with
  | nil => exact absurd rfl h
  | cons f r ih =>
      rw [visitAll] at h
      rw [List.cons_append, visitAll, visitAll]
      split
      · next hvisit =>
          rfl
      · next hvisit =>
          rw [hvisit] at h
          exact ih h

end Selection

namespace Processor

variable {p : Processor} {files : FileSystem}

theorem visitsAmong_map_visitOf (p : Processor) (files : FileSystem) (names : List String) :
    visitsAmong (names.map fun f => .visited (p.visitOf files f))
      = names.map (p.visitOf files) := by
  rw [← visitsAmong_map_visited (names.map _), List.map_map]
  rfl

/-- Whatever file is visited among `files`, it leaves them all as they are. -/
def Spares (p : Processor) (files : FileSystem) : Prop :=
  ∀ f, (p.visitOf files f).left.files = files

/-- The visit of a file goes by without stopping the run. -/
def GoesBy (p : Processor) (files : FileSystem) (f : String) : Prop :=
  (Event.visited (p.visitOf files f)).stop? = none

theorem eventsAt_eq (p : Processor) (files : FileSystem) (pattern : String) :
    p.eventsAt files pattern = p.visits files (p.selection.pathsOf files pattern)
      ∨ (p.eventsAt files pattern = [.unsearchable pattern]
        ∧ p.selection.pathsOf files pattern = []) := by
  unfold eventsAt Selection.pathsOf
  cases p.selection.resolve files pattern with
  | error e => exact Or.inr ⟨rfl, rfl⟩
  | ok names => exact Or.inl rfl

namespace Spares

variable (h : p.Spares files)
include h

theorem foldl_visits (names : List String) :
    (p.visits files names).foldl Event.after files = files := by
  induction names with
  | nil => rfl
  | cons f r ih =>
      have hafter : [Event.visited (p.visitOf files f)].foldl Event.after files = files := h f
      rw [visits, Event.andThen, hafter, List.foldl_append, hafter]
      split
      · rfl
      · exact ih

theorem foldl_eventsAt (pattern : String) :
    (p.eventsAt files pattern).foldl Event.after files = files := by
  rcases eventsAt_eq p files pattern with hvisits | ⟨hnone, -⟩
  · rw [hvisits, h.foldl_visits]
  · rw [hnone]
    rfl

theorem visits_cons (f : String) (r : List String) :
    p.visits files (f :: r)
      = .visited (p.visitOf files f)
        :: if (Event.visited (p.visitOf files f)).stop?.isSome then [] else p.visits files r := by
  have hafter : [Event.visited (p.visitOf files f)].foldl Event.after files = files := h f
  rw [visits, Event.andThen, hafter, List.any_cons, List.any_nil, Bool.or_false,
    List.singleton_append]

theorem events_cons (pattern : String) (r : List String) :
    p.events files (pattern :: r)
      = p.eventsAt files pattern
        ++ if (p.eventsAt files pattern).any fun e => e.stop?.isSome then []
          else p.events files r := by
  rw [events, Event.andThen, h.foldl_eventsAt]

/-- Visits that go by come in front of the ones behind them. -/
theorem visits_append {front : List String} (rest : List String)
    (hfront : ∀ f ∈ front, p.GoesBy files f) :
    p.visits files (front ++ rest)
      = front.map (fun f => .visited (p.visitOf files f)) ++ p.visits files rest := by
  induction front with
  | nil => rfl
  | cons f r ih =>
      have hf : (Event.visited (p.visitOf files f)).stop? = none := hfront f List.mem_cons_self
      rw [List.cons_append, h.visits_cons, hf, if_neg (by simp),
        ih fun g hg => hfront g (List.mem_cons_of_mem _ hg)]
      rfl

/-- A visit that stops the run is the last one. -/
theorem visits_cons_of_stops {f : String} (r : List String) (hf : ¬ p.GoesBy files f) :
    p.visits files (f :: r) = [.visited (p.visitOf files f)] := by
  rw [h.visits_cons, if_pos (Option.isSome_iff_ne_none.mpr hf)]

/-- The visits of files that all go by. -/
theorem visits_eq_map {names : List String} (hnames : ∀ f ∈ names, p.GoesBy files f) :
    p.visits files names = names.map fun f => .visited (p.visitOf files f) := by
  have happend := h.visits_append [] hnames
  rwa [List.append_nil, visits, List.append_nil] at happend

theorem not_any_eventsAt {pattern : String}
    (hpaths : ∀ f ∈ p.selection.pathsOf files pattern, p.GoesBy files f) :
    ¬ ((p.eventsAt files pattern).any fun e => e.stop?.isSome) = true := by
  -- a pattern that cannot be searched for is an event that stops nothing
  rcases eventsAt_eq p files pattern with hvisits | ⟨hnone, -⟩
  · rw [hvisits, h.visits_eq_map hpaths, List.any_eq_true]
    rintro ⟨e, he, hstop⟩
    obtain ⟨f, hf, rfl⟩ := List.mem_map.mp he
    rw [hpaths f hf] at hstop
    cases hstop
  · simp [hnone, Event.stop?]

/-- Events at patterns whose files all go by come in front of the ones behind them. -/
theorem events_append {before : List String} (rest : List String)
    (hbefore : ∀ f ∈ p.selection.paths files before, p.GoesBy files f) :
    p.events files (before ++ rest) = p.events files before ++ p.events files rest := by
  induction before with
  | nil => rfl
  | cons pattern r ih =>
      simp only [Selection.paths_cons, List.mem_append] at hbefore
      have hnone := h.not_any_eventsAt fun f hf => hbefore f (Or.inl hf)
      rw [List.cons_append, h.events_cons, h.events_cons, if_neg hnone, if_neg hnone,
        ih fun f hf => hbefore f (Or.inr hf), List.append_assoc]

/-- Files whose visits do not stop the run all go by. -/
theorem goesBy_of_visits {names : List String}
    (hnone : ∀ e ∈ p.visits files names, e.stop? = none) : ∀ f ∈ names, p.GoesBy files f := by
  induction names with
  | nil => simp
  | cons f r ih =>
      rw [h.visits_cons] at hnone
      have hf : p.GoesBy files f := hnone _ List.mem_cons_self
      have hr : ∀ e ∈ p.visits files r, e.stop? = none := by
        intro e he
        refine hnone e (List.mem_cons_of_mem _ ?_)
        rwa [show (Event.visited (p.visitOf files f)).stop? = none from hf, if_neg (by simp)]
      exact List.forall_mem_cons.mpr ⟨hf, ih hr⟩

/-- The files of patterns all go by if no event stops the run. -/
theorem goesBy_of_events {patterns : List String}
    (hnone : ∀ e ∈ p.events files patterns, e.stop? = none) :
    ∀ f ∈ p.selection.paths files patterns, p.GoesBy files f := by
  induction patterns with
  | nil => simp [Selection.paths]
  | cons pattern r ih =>
      rw [h.events_cons] at hnone
      have hat : ∀ e ∈ p.eventsAt files pattern, e.stop? = none :=
        fun e he => hnone e (List.mem_append_left _ he)
      have hany : ¬ ((p.eventsAt files pattern).any fun e => e.stop?.isSome) = true := by
        rw [List.any_eq_true]
        rintro ⟨e, he, hstop⟩
        rw [hat e he] at hstop
        cases hstop
      rw [if_neg hany] at hnone
      rw [Selection.paths_cons, List.forall_mem_append]
      refine ⟨?_, ih fun e he => hnone e (List.mem_append_right _ he)⟩
      rcases eventsAt_eq p files pattern with hvisits | ⟨-, hempty⟩
      · rw [hvisits] at hat
        exact h.goesBy_of_visits hat
      · simp [hempty]

theorem mem_visits {names : List String} {e : Event} (he : e ∈ p.visits files names) :
    ∃ f ∈ names, e = .visited (p.visitOf files f) := by
  induction names with
  | nil => cases he
  | cons f r ih =>
      rw [h.visits_cons] at he
      rcases List.mem_cons.mp he with rfl | he
      · exact ⟨f, List.mem_cons_self, rfl⟩
      · split at he
        · cases he
        · obtain ⟨g, hg, heq⟩ := ih he
          exact ⟨g, List.mem_cons_of_mem f hg, heq⟩

/-- **What happens at patterns** is that one of them cannot be searched for, or that a path of them
is visited, among the files as they were at first. -/
theorem mem_events {patterns : List String} {e : Event} (he : e ∈ p.events files patterns) :
    (∃ pattern, e = .unsearchable pattern)
      ∨ ∃ f ∈ p.selection.paths files patterns, e = .visited (p.visitOf files f) := by
  induction patterns with
  | nil => cases he
  | cons pattern r ih =>
      rw [h.events_cons, List.mem_append] at he
      simp only [Selection.paths_cons, List.mem_append]
      rcases he with he | he
      · rcases eventsAt_eq p files pattern with hvisits | ⟨hnone, -⟩
        · rw [hvisits] at he
          obtain ⟨f, hf, heq⟩ := h.mem_visits he
          exact Or.inr ⟨f, Or.inl hf, heq⟩
        · rw [hnone] at he
          exact Or.inl ⟨pattern, List.mem_singleton.mp he⟩
      · split at he
        · cases he
        · rcases ih he with hpattern | ⟨f, hf, heq⟩
          · exact Or.inl hpattern
          · exact Or.inr ⟨f, Or.inr hf, heq⟩

/-- **The visits at patterns whose files all go by** are those of the paths of the patterns. -/
theorem visitsAmong_events {patterns : List String}
    (hpaths : ∀ f ∈ p.selection.paths files patterns, p.GoesBy files f) :
    visitsAmong (p.events files patterns)
      = (p.selection.paths files patterns).map (p.visitOf files) := by
  induction patterns with
  | nil => rfl
  | cons pattern r ih =>
      simp only [Selection.paths_cons, List.mem_append] at hpaths
      have hhere : ∀ f ∈ p.selection.pathsOf files pattern, p.GoesBy files f :=
        fun f hf => hpaths f (Or.inl hf)
      have hat : visitsAmong (p.eventsAt files pattern)
          = (p.selection.pathsOf files pattern).map (p.visitOf files) := by
        rcases eventsAt_eq p files pattern with hvisits | ⟨hnone, hempty⟩
        · rw [hvisits, h.visits_eq_map hhere, visitsAmong_map_visitOf]
        · rw [hnone, hempty]
          rfl
      rw [h.events_cons, if_neg (h.not_any_eventsAt hhere), visitsAmong_append, hat,
        ih fun f hf => hpaths f (Or.inr hf), Selection.paths_cons, List.map_append]

end Spares

end Processor

end CaplLayout
