import CaplLayout.Proofs.Printing

/-!
# What a run prints of one kind

Besides what is printed at its visits, a run prints log lines and reports about patterns. A kind of
pieces that these are not of (`Console.Skips`) comes from the visits alone: a run prints of it what
its visits print, one after the other (`Processor.runAll_picks`). The text that reaches the standard
output is of such a kind, and so are the reports about options that do not check.
-/

set_option autoImplicit false

namespace CaplLayout

open Session

namespace Console

/-- No log line and no report about a pattern is among the pieces that `keep` picks. -/
structure Skips (console : Console) (keep : Piece → Bool) : Prop where
  log : ∀ line, (console.log line).filter keep = []
  unsearchable : ∀ (pattern : String) (e : AccessError),
    (console.echoLine .err
      ("Unable to expand glob pattern: " ++ pattern ++ "\n" ++ e.text)).filter keep = []

/-- A text that does not begin with the escape character is shown with its first character. -/
theorem shown_cons (console : Console) {c : Char} (r : Text) (h : c ≠ escape) :
    console.shown (c :: r) = c :: console.shown r := by
  have hzero : sequenceLength (c :: r) = 0 := by
    cases r with
    | nil => rfl
    | cons d r =>
        unfold sequenceLength
        split
        · next heq =>
            cases heq
            exact if_neg h
        · rfl
  unfold shown
  split
  · rfl
  · rw [plain, plainFrom, if_neg (by simp)]
    dsimp only
    rw [if_pos hzero, plain]

theorem shown_append (console : Console) {s : Text} (r : Text) (h : escape ∉ s) :
    console.shown (s ++ r) = s ++ console.shown r := by
  induction s with
  | nil => rfl
  | cons c s ih =>
      rw [List.mem_cons, not_or] at h
      rw [List.cons_append, shown_cons _ _ (Ne.symm h.1), ih h.2]
      rfl

end Console

/-! ## Kinds of pieces -/

namespace Piece

/-- The piece goes to the standard output. -/
def isOut (piece : Piece) : Bool := piece.stream = .out

/-- How a report about options that do not check begins. -/
def validationHead : Text := "Validation Error: ".toList

/-- The piece is a report about options that do not check. -/
def isValidation (piece : Piece) : Bool := validationHead.isPrefixOf piece.text

theorem printed_out (pieces : List Piece) :
    printed .out pieces = (pieces.filter isOut).flatMap text := by
  unfold printed
  induction pieces with
  | nil => rfl
  | cons piece r ih =>
      rw [List.flatMap_cons, List.filter_cons, ih]
      by_cases h : piece.stream = .out
      · rw [if_pos h, if_pos (by simpa [isOut] using h), List.flatMap_cons]
      · rw [if_neg h, if_neg (by simpa [isOut] using h), List.nil_append]

theorem skips_isOut (console : Console) : console.Skips isOut := by
  refine ⟨fun line => ?_, fun pattern e => ?_⟩
  · unfold Console.log
    split <;> simp [isOut]
  · simp [Console.echoLine, Console.echo, isOut]

/-- A piece that begins with another letter is no report about options. -/
theorem isValidation_eq_false {stream : Stream} {c : Char} (r : Text) (h : c ≠ 'V') :
    isValidation ⟨stream, c :: r⟩ = false := by
  have hhead : validationHead = 'V' :: "alidation Error: ".toList := rfl
  rw [isValidation, hhead, List.isPrefixOf_cons_cons, beq_false_of_ne (Ne.symm h), Bool.false_and]

theorem filter_echoLine_isValidation (console : Console) (stream : Stream) {c : Char}
    {line : String} {r : Text} (hline : line.toList = c :: r) (hc : c ≠ Console.escape)
    (hV : c ≠ 'V') : (console.echoLine stream line).filter isValidation = [] := by
  unfold Console.echoLine Console.echo
  rw [hline, List.cons_append, Console.shown_cons _ _ hc]
  exact List.filter_cons_of_neg (by simp [isValidation_eq_false _ hV])

theorem skips_isValidation (console : Console) : console.Skips isValidation := by
  refine ⟨fun line => ?_, fun pattern e => ?_⟩
  · unfold Console.log
    split
    · refine List.filter_cons_of_neg ?_
      have hfalse : isValidation ⟨.err, 'D' :: ("EBUG: ".toList ++ line.toList ++ ['\n'])⟩
          = false := isValidation_eq_false _ (by decide)
      exact Bool.eq_false_iff.mp hfalse
    · rfl
  · have hline : ("Unable to expand glob pattern: " ++ pattern ++ "\n" ++ e.text).toList
        = 'U' :: ("nable to expand glob pattern: " ++ pattern ++ "\n" ++ e.text).toList := by
      simp only [String.toList_append]
      rfl
    exact filter_echoLine_isValidation console .err hline (by decide) (by decide)

end Piece

/-! ## Runs -/

/-- What is printed at an event, apart from log lines and reports about patterns. -/
def Event.pieces : Event → List Piece
  | .visited v => v.left.output
  | .received _ _ left _ => left.output
  | _ => []

/-- The steps from the session `s` to `r` print of a kind what is printed at the events `es`. -/
def Tells (keep : Piece → Bool) (s : Session) (es : List Event) (r : Session × Option Stop) :
    Prop :=
  r.1.output.filter keep = s.output.filter keep ++ es.flatMap fun e => e.pieces.filter keep

namespace Tells

variable {keep : Piece → Bool} {s : Session} {es : List Event} {r : Session × Option Stop}

theorem nil (s : Session) : Tells keep s [] (s, none) := (List.append_nil _).symm

/-- One step after another, unless the first one stops the run. -/
theorem andThen (rest : FileSystem → List Event) (next : Session → Session × Option Stop)
    (hnext : ∀ t, Tells keep t (rest t.files) (next t)) :
    Follows s es r → Tells keep s es r →
      Tells keep s (Event.andThen s.files es rest)
        (match r with | (t, some stop) => (t, some stop) | (t, none) => next t) := by
  intro hfollows htells
  have hany := hfollows.any_stop
  have hfiles := hfollows.files_eq
  rcases r with ⟨t, _ | stop⟩
  · rw [Event.andThen, hany, ← hfiles]
    have hrest : (next t).1.output.filter keep = _ := hnext t
    have hfirst : t.output.filter keep = _ := htells
    rw [Tells, List.flatMap_append, ← List.append_assoc, ← hfirst]
    exact hrest
  · rw [Event.andThen, hany]
    simpa using htells

end Tells

namespace Processor

variable {p : Processor} {keep : Piece → Bool}

theorem tells_visit (hskips : p.console.Skips keep) (s : Session) (filename : String) :
    Tells keep s [.visited (p.visitOf s.files filename)] (p.visit s filename) := by
  have hprocess := process_resume p s (fresh s.files) filename
  rw [resume_fresh] at hprocess
  have hpieces : (Event.visited (p.visitOf s.files filename)).pieces
      = (p.process (fresh s.files) filename).1.output := rfl
  rw [Tells, visit, hprocess, List.flatMap_singleton, hpieces]
  rcases p.process (fresh s.files) filename with ⟨left, stop | o⟩
  · exact List.filter_append _ _
  · show ((s.output ++ left.output) ++ p.console.log _).filter keep = _
    rw [List.filter_append, hskips.log, List.append_nil, List.filter_append]

theorem tells_visitAll (hskips : p.console.Skips keep) (s : Session) (names : List String) :
    Tells keep s (p.visits s.files names) (Selection.visitAll p.visit s names) := by
  induction names generalizing s with
  | nil => exact .nil s
  | cons f r ih =>
      rw [visits, Selection.visitAll]
      exact .andThen (fun g => p.visits g r) _ ih (follows_visit s f) (tells_visit hskips s f)

theorem tells_visitPattern (hskips : p.console.Skips keep) (s : Session) (pattern : String) :
    Tells keep s (p.eventsAt s.files pattern)
      (p.selection.visitPattern p.console p.visit s pattern) := by
  rcases p.selection.visitPattern_cases pattern p.console p.visit s with
    ⟨e, hresolve, hvisit⟩ | ⟨names, pieces, hresolve, hpieces, hvisit⟩
  · rw [eventsAt, hresolve, hvisit]
    show (s.output ++ _).filter keep = _
    rw [List.filter_append, hskips.unsearchable]
    rfl
  · have hnone : pieces.filter keep = [] := by
      rcases hpieces with rfl | ⟨line, rfl⟩
      · rfl
      · exact hskips.log line
    have hprint : (s.print pieces).output.filter keep = s.output.filter keep := by
      show (s.output ++ pieces).filter keep = _
      rw [List.filter_append, hnone, List.append_nil]
    rw [eventsAt, hresolve, hvisit, Tells, ← hprint]
    exact tells_visitAll hskips (s.print pieces) names

theorem tells_visitPatterns (hskips : p.console.Skips keep) (s : Session)
    (patterns : List String) :
    Tells keep s (p.events s.files patterns)
      (p.selection.visitPatterns p.console p.visit s patterns) := by
  rw [Selection.visitPatterns]
  induction patterns generalizing s with
  | nil => exact .nil s
  | cons pattern r ih =>
      rw [events, Selection.visitAll]
      exact .andThen (fun g => p.events g r) _ ih (follows_visitPattern s pattern)
        (tells_visitPattern hskips s pattern)

/-- **What a run over files prints of a kind** is what its visits print of it. -/
theorem runAll_picks (hskips : p.console.Skips keep) (hconflict : p.run.conflict = none)
    (hstdin : p.run.stdin = false) (files : FileSystem) (stdin : List UInt8) :
    (p.runAll (fresh files) stdin).1.output.filter keep
      = (p.history files stdin).flatMap fun e => e.pieces.filter keep := by
  have htells := tells_visitPatterns hskips (fresh files) p.run.patterns
  unfold runAll history
  rw [hconflict, hstdin]
  exact (congrArg (fun s : Session => s.output.filter keep) (fst_finish _)).trans htells

end Processor

end CaplLayout
