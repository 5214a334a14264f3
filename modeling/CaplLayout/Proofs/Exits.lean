import CaplLayout.Proofs.History
import CaplLayout.Proofs.Stability

/-!
# What an exit code tells

A session raises its exit code in many places, and never lowers it. So the code of a run is at most
`n` exactly when every event of its history asks for at most `n` (`toNat_foldl_add_le`), in whatever
order the events come. What one event asks for, and whether it stops the run, is told by what has
become of its input alone (`Settles`); the two together tell what the code of a run means
(`runAll_exit_iff`).
-/

set_option autoImplicit false

namespace CaplLayout

open Session

/-! ## The worst exit code -/

theorem ExitCode.toNat_escalate_le (a b : ExitCode) (n : Nat) :
    (a.escalate b).toNat ≤ n ↔ a.toNat ≤ n ∧ b.toNat ≤ n := by
  constructor
  · intro h
    exact ⟨(le_escalate_left a b).trans h, (le_escalate_right a b).trans h⟩
  · rintro ⟨ha, hb⟩
    unfold escalate
    split <;> assumption

/-- An exit code that is not fatal is known from what keeps it below the others: that `A` does not
hold keeps it below the one for failures, and that neither does `B`, below that for differences. -/
theorem ExitCode.eq_iff_of_le {code : ExitCode} {A B : Prop} (htwo : code.toNat ≤ 2)
    (hone : code.toNat ≤ 1 ↔ ¬ A) (hzero : code.toNat ≤ 0 ↔ ¬ A ∧ ¬ B) :
    (code = .failure ↔ A) ∧ (code = .differences ↔ ¬ A ∧ B) ∧ (code = .success ↔ ¬ A ∧ ¬ B) := by
  cases code with
  | success =>
      obtain ⟨hA, hB⟩ := hzero.mp (Nat.le_refl 0)
      simp [hA, hB]
  | differences =>
      have hA : ¬ A := hone.mp (Nat.le_refl 1)
      have hB : B := by_contra fun hB => absurd (hzero.mpr ⟨hA, hB⟩) (by decide)
      simp [hA, hB]
  | failure =>
      have hA : A := by_contra fun hA => absurd (hone.mpr hA) (by decide)
      simp [hA]
  | fatal => exact absurd htwo (by decide)

/-- The exit code behind events is at most the worst of all. -/
theorem toNat_foldl_add_le (m : Mark) (es : List Event) (n : Nat) :
    (es.foldl Mark.add m).exit.toNat ≤ n ↔ m.exit.toNat ≤ n ∧ ∀ e ∈ es, e.exit.toNat ≤ n := by
  induction es generalizing m with
  | nil => simp
  | cons e es ih =>
      rw [List.foldl_cons, ih, List.forall_mem_cons, Mark.add, ExitCode.toNat_escalate_le,
        and_assoc]

/-! ## What an event tells -/

/-- Whether an outcome is an error of reading, formatting or writing. -/
def Outcome.isError : Outcome → Bool
  | .readError | .formatError | .writeError => true
  | _ => false

/-- An event is a failure: a pattern cannot be searched for, the standard input cannot be read, or
an input ends in an error. -/
def Event.Fails : Event → Prop
  | .unsearchable _ => True
  | .visited v => ∃ o, v.result = .ok o ∧ o.isError = true
  | .unreadable => True
  | .received _ _ _ result => ∃ o, result = .ok o ∧ o.isError = true

namespace Processor

/-- At an event the options turn out not to check. -/
def Rejects (p : Processor) : Event → Prop
  | .visited v => ∃ source m, v.found.Holds v.filename source
      ∧ p.judge v.filename source = .error (.validation m)
  | .received _ source _ _ => ∃ m, p.formatter.format p.format source = .error (.validation m)
  | _ => False

/-- At an event a file is not equal to its formatted text. -/
def Differs (p : Processor) : Event → Prop
  | .visited v => ∃ source out, v.found.Holds v.filename source
      ∧ p.formatter.engine.format (p.optionsFor v.filename) source = .ok out ∧ out.text ≠ source
  | _ => False

/-- How an event bears on the end of a run. -/
structure Settles (p : Processor) (e : Event) : Prop where
  stop_iff : (∃ m, e.stop? = some (.aborted m)) ↔ p.Rejects e
  stop_ne : e.stop? ≠ some .nullCharacter
  le_two : e.exit.toNat ≤ 2
  le_one_iff : e.exit.toNat ≤ 1 ↔ ¬ e.Fails
  le_zero_iff : e.exit.toNat ≤ 0 ↔ ¬ e.Fails ∧ ¬ (p.run.listDifferent = true ∧ p.Differs e)

variable {p : Processor} {files : FileSystem} {filename : String} {source : Text}

theorem isFormatted_eq_false_iff {f : Formatter} {options : Options} :
    f.isFormatted options source = .ok false
      ↔ ∃ out, f.engine.format options source = .ok out ∧ out.text ≠ source := by
  unfold Formatter.isFormatted Engine.isFormatted
  cases f.engine.format options source with
  | error e => simp [Except.mapError, bind, Except.bind]
  | ok out => simp [Except.mapError, bind, Except.bind]

theorem toNat_noted_le_one (p : Processor) (filename : String) (source : Text) :
    (p.noted filename source).toNat ≤ 1 := by
  unfold noted
  split
  · split <;> decide
  · decide

/-- A file asks for the exit code for differences when these are listed and it is not formatted. -/
theorem toNat_noted_le_zero {v : Visit} (h : v.found.Holds v.filename source) :
    (p.noted v.filename source).toNat ≤ 0
      ↔ ¬ (p.run.listDifferent = true ∧ p.Differs (.visited v)) := by
  have hdiffers : p.Differs (.visited v)
      ↔ p.formatter.isFormatted (p.optionsFor v.filename) source = .ok false := by
    rw [isFormatted_eq_false_iff]
    constructor
    · rintro ⟨other, out, hother, hout⟩
      rw [hother.unique h] at hout
      exact ⟨out, hout⟩
    · rintro ⟨out, hout⟩
      exact ⟨source, out, h, hout⟩
  rw [hdiffers, noted]
  by_cases hlist : p.run.listDifferent = true
  · rw [if_pos hlist]
    split
    · next hfalse => simp [hlist, hfalse, ExitCode.toNat]
    · next hne => simpa [hlist, ExitCode.toNat] using hne
  · rw [if_neg hlist]
    simp [hlist, ExitCode.toNat]

theorem rejects_visited_iff {v : Visit} (h : v.found.Holds v.filename source) :
    p.Rejects (.visited v) ↔ ∃ m, p.judge v.filename source = .error (.validation m) := by
  constructor
  · rintro ⟨other, m, hother, hjudge⟩
    rw [hother.unique h] at hjudge
    exact ⟨m, hjudge⟩
  · rintro ⟨m, hjudge⟩
    exact ⟨source, m, h, hjudge⟩

/-- A visit that ends in an error is a failure and no rejection. -/
theorem settles_of_isError {v : Visit} {o : Outcome} (hresult : v.result = .ok o)
    (ho : o.isError = true) (hexit : v.left.exit = .failure) (hrejects : ¬ p.Rejects (.visited v)) :
    p.Settles (.visited v) := by
  have hfails : (Event.visited v).Fails := ⟨o, hresult, ho⟩
  constructor
  · simpa [Event.stop?, hresult] using hrejects
  · simp [Event.stop?, hresult]
  all_goals simp [Event.exit, hexit, ExitCode.toNat, hfails]

/-- A visit that ends in no error asks for the exit code for differences, or for none. -/
theorem settles_of_noted {v : Visit} (hholds : v.found.Holds v.filename source)
    (hfails : ¬ (Event.visited v).Fails) (hexit : v.left.exit = p.noted v.filename source)
    (hstop : (∃ m, (Event.visited v).stop? = some (.aborted m)) ↔ p.Rejects (.visited v))
    (hne : (Event.visited v).stop? ≠ some .nullCharacter) : p.Settles (.visited v) := by
  have hle := toNat_noted_le_one p v.filename source
  refine ⟨hstop, hne, ?_, ?_, ?_⟩
  · rw [Event.exit, hexit]
    omega
  · rw [Event.exit, hexit]
    exact iff_of_true hle hfails
  · rw [Event.exit, hexit, toNat_noted_le_zero hholds]
    exact (and_iff_right hfails).symm

/-- A visit that ends in no error although the text of the file has been formatted. -/
theorem settles_of_ok {v : Visit} {out : Formatted} {o : Outcome}
    (hholds : v.found.Holds v.filename source) (hjudge : p.judge v.filename source = .ok out)
    (hresult : v.result = .ok o) (ho : o.isError = false)
    (hexit : v.left.exit = p.noted v.filename source) : p.Settles (.visited v) := by
  have hrejects : ¬ p.Rejects (.visited v) := by
    rw [rejects_visited_iff hholds, hjudge]
    simp
  refine settles_of_noted hholds ?_ hexit ?_ ?_
  · simp [Event.Fails, hresult, ho]
  · simp [Event.stop?, hresult, hrejects]
  · simp [Event.stop?, hresult]

theorem isError_of_keptAs {output : Text} {o : Outcome} (h : p.keptAs output source = some o) :
    o.isError = false := by
  unfold keptAs at h
  split_ifs at h <;> cases h <;> rfl

/-- **How a visit bears on the end of a run.** -/
theorem settles_visited {v : Visit} (hnull : FileSystem.null ∉ (Path.ofString v.filename).text)
    (h : p.Processed v.found v.filename v.left.mark v.result) : p.Settles (.visited v) := by
  generalize hmark : v.left.mark = mark at h
  generalize hresult : v.result = result at h
  have hexit : v.left.exit = mark.exit := congrArg Mark.exit hmark
  -- One case for each way a file can be processed. Only options that do not check make `Rejects`
  -- hold, and only there does the visit stop the run.
  cases h with
  | nullCharacter hmem => exact absurd hmem hnull
  | unreadable hholds =>
      refine settles_of_isError hresult rfl hexit ?_
      rintro ⟨source, m, hsource, -⟩
      exact hholds source hsource
  | invalid hholds hjudge =>
      have hrejects := (rejects_visited_iff hholds).mpr ⟨_, hjudge⟩
      refine settles_of_noted hholds ?_ hexit ?_ ?_
      · rintro ⟨o, ho, -⟩
        rw [hresult] at ho
        cases ho
      · simp [Event.stop?, hresult, hrejects]
      · simp [Event.stop?, hresult]
  | failed hholds hjudge hvalidation =>
      refine settles_of_isError hresult rfl hexit ?_
      rw [rejects_visited_iff hholds, hjudge]
      rintro ⟨m, hm⟩
      cases hm
      cases hvalidation
  | empty hholds hjudge hwrite hcheck hempty =>
      refine settles_of_isError hresult rfl hexit ?_
      rw [rejects_visited_iff hholds, hjudge]
      simp
  | kept hholds hjudge hkept =>
      exact settles_of_ok hholds hjudge hresult (isError_of_keptAs hkept) hexit
  | refused hholds hjudge hwrite hother hclosed =>
      refine settles_of_isError hresult rfl hexit ?_
      rw [rejects_visited_iff hholds, hjudge]
      simp
  | written hholds hjudge hwrite hother hclosed hopen =>
      exact settles_of_ok hholds hjudge hresult rfl hexit

theorem settles_receive (p : Processor) (files : FileSystem) (stdin : List UInt8) :
    p.Settles (p.receive files stdin) := by
  unfold receive
  rcases Utf8.decode stdin with fault | source
  · constructor <;> simp [Event.stop?, Event.exit, Event.Fails, ExitCode.toNat, Rejects]
  · dsimp only
    -- The standard input is never compared with its formatted text: it asks for no differences.
    rcases p.processSource_cases files source.unifyTerminators "stdin" with
      ⟨m, hformat, hmark, hresult⟩ | ⟨f, hformat, hvalidation, hmark, hresult⟩
        | ⟨out, hformat, hmark, hresult⟩
    · have hexit := congrArg Mark.exit hmark
      dsimp only [mark] at hexit
      constructor <;>
        simp [Event.stop?, Event.exit, Event.Fails, ExitCode.toNat, Rejects, Differs, hexit,
          hresult, hformat]
    · have hexit := congrArg Mark.exit hmark
      dsimp only [mark] at hexit
      have hne : ∀ m, f ≠ .validation m := by
        rintro m rfl
        cases hvalidation
      constructor <;>
        simp [Event.stop?, Event.exit, Event.Fails, ExitCode.toNat, Rejects, Outcome.isError, hexit,
          hresult, hformat, hne]
    · have hexit := congrArg Mark.exit hmark
      dsimp only [mark] at hexit
      constructor <;>
        simp [Event.stop?, Event.exit, Event.Fails, ExitCode.toNat, Rejects, Differs,
          Outcome.isError, hexit, hresult, hformat]

theorem settles_of_mem_history {stdin : List UInt8} {e : Event}
    (hnull : ∀ pattern ∈ p.run.patterns, Glob.hasMagic pattern.toList = false →
      FileSystem.null ∉ pattern.toList)
    (h : e ∈ p.history files stdin) : p.Settles e := by
  unfold history at h
  split at h
  · cases h
  split at h
  · rw [List.mem_singleton.mp h]
    exact settles_receive p files stdin
  · obtain ⟨pattern, hpattern, present, ⟨-, rfl⟩ | ⟨names, found, hresolve, f, hf, rfl⟩⟩ :=
      mem_events h
    · constructor <;> simp [Event.stop?, Event.exit, Event.Fails, ExitCode.toNat, Rejects]
    · have hname := Selection.null_not_mem_of_resolve hresolve hf (hnull pattern hpattern)
      exact settles_visited (Path.null_not_mem_text hname) (processed_visitOf p found f)

/-! ## The end of a run -/

/-- A run is given up: its options cannot be used together, or those for formatting do not check at
an input that it has come to. -/
def Aborts (p : Processor) (files : FileSystem) (stdin : List UInt8) : Prop :=
  (p.run.write = true ∧ (p.run.debugCheck = true ∨ p.run.debugPrintDoc = true))
    ∨ ∃ e ∈ p.history files stdin, p.Rejects e

theorem conflict_eq_none_iff (o : RunOptions) :
    o.conflict = none ↔ ¬ (o.write = true ∧ (o.debugCheck = true ∨ o.debugPrintDoc = true)) := by
  unfold RunOptions.conflict
  cases o.write <;> cases o.debugCheck <;> cases o.debugPrintDoc <;> decide

/-- **The end of a run**: it is given up, or it has the worst exit code that an event asks for. -/
theorem runAll_ends {stdin : List UInt8}
    (hnull : ∀ pattern ∈ p.run.patterns, Glob.hasMagic pattern.toList = false →
      FileSystem.null ∉ pattern.toList) :
    (p.Aborts files stdin ∧ ∃ m, (p.runAll (fresh files) stdin).2 = .error (.aborted m))
      ∨ (¬ p.Aborts files stdin ∧ ∃ code, (p.runAll (fresh files) stdin).2 = .ok code
        ∧ ∀ n, code.toNat ≤ n ↔ ∀ e ∈ p.history files stdin, e.exit.toNat ≤ n) := by
  have hsettles : ∀ e ∈ p.history files stdin, p.Settles e :=
    fun _ he => settles_of_mem_history hnull he
  cases hconflict : p.run.conflict with
  | some message =>
      left
      have hflags := mt (conflict_eq_none_iff p.run).mpr (by simp [hconflict])
      refine ⟨Or.inl (not_not.mp hflags), message, ?_⟩
      rw [runAll, hconflict]
  | none =>
      have hflags := (conflict_eq_none_iff p.run).mp hconflict
      obtain ⟨⟨t, stop?⟩, hfollows, hrun⟩ := follows_runAll files stdin hconflict
      cases stop? with
      | some stop =>
          left
          obtain ⟨e, he, hstop⟩ := (hfollows.stop_iff stop).mp rfl
          cases stop with
          | nullCharacter => exact absurd hstop (hsettles e he).stop_ne
          | aborted m =>
              refine ⟨Or.inr ⟨e, he, (hsettles e he).stop_iff.mp ⟨m, hstop⟩⟩, m, ?_⟩
              rw [hrun, finish]
      | none =>
          -- Nothing has stopped the run, so every event of the history has been come to.
          right
          have hrejects : ¬ ∃ e ∈ p.history files stdin, p.Rejects e := by
            rintro ⟨e, he, hreject⟩
            obtain ⟨m, hstop⟩ := (hsettles e he).stop_iff.mpr hreject
            cases (hfollows.stop_iff _).mpr ⟨e, he, hstop⟩
          refine ⟨not_or.mpr ⟨hflags, hrejects⟩, t.exit, ?_, fun n => ?_⟩
          · rw [hrun, finish]
          · have hexit : t.exit
                = ((p.history files stdin).foldl Mark.add (fresh files).mark).exit :=
              congrArg Mark.exit hfollows.mark_eq
            rw [hexit, toNat_foldl_add_le]
            exact and_iff_right (Nat.zero_le n)

/-- **What the exit code of a run tells.** A run is given up exactly when it writes and checks or
prints documents, or when the options do not check at some input that it has come to. Otherwise it
is a failure exactly when something in its history is: a pattern that cannot be searched for, a
standard input that cannot be read, an input that ends in an error. If there is none, it tells
differences exactly when these are listed and a file was not equal to its formatted text, and else
success. In which order that has happened makes no difference. -/
theorem runAll_exit_iff (p : Processor) (files : FileSystem) (stdin : List UInt8)
    (hnull : ∀ pattern ∈ p.run.patterns, Glob.hasMagic pattern.toList = false →
      FileSystem.null ∉ pattern.toList) :
    ((∃ m, (p.runAll (fresh files) stdin).2 = .error (.aborted m)) ↔ p.Aborts files stdin)
      ∧ ((p.runAll (fresh files) stdin).2 = .ok .failure
        ↔ ¬ p.Aborts files stdin ∧ ∃ e ∈ p.history files stdin, e.Fails)
      ∧ ((p.runAll (fresh files) stdin).2 = .ok .differences
        ↔ ¬ p.Aborts files stdin ∧ (¬ ∃ e ∈ p.history files stdin, e.Fails)
          ∧ p.run.listDifferent = true ∧ ∃ e ∈ p.history files stdin, p.Differs e)
      ∧ ((p.runAll (fresh files) stdin).2 = .ok .success
        ↔ ¬ p.Aborts files stdin ∧ (¬ ∃ e ∈ p.history files stdin, e.Fails)
          ∧ ¬ (p.run.listDifferent = true ∧ ∃ e ∈ p.history files stdin, p.Differs e)) := by
  have hsettles : ∀ e ∈ p.history files stdin, p.Settles e :=
    fun _ he => settles_of_mem_history hnull he
  rcases runAll_ends hnull with ⟨haborts, m, hend⟩ | ⟨haborts, code, hend, hcode⟩
  · rw [hend]
    simp [haborts]
  · have htwo : code.toNat ≤ 2 := (hcode 2).mpr fun e he => (hsettles e he).le_two
    -- A bound on the code is a bound on every event, and each event says when it keeps to it.
    have hone : code.toNat ≤ 1 ↔ ¬ ∃ e ∈ p.history files stdin, e.Fails := by
      rw [hcode]
      push Not
      exact forall₂_congr fun e he => (hsettles e he).le_one_iff
    have hzero : code.toNat ≤ 0 ↔ (¬ ∃ e ∈ p.history files stdin, e.Fails)
        ∧ ¬ (p.run.listDifferent = true ∧ ∃ e ∈ p.history files stdin, p.Differs e) := by
      rw [hcode]
      constructor
      · intro h
        have hevent := fun e he => (hsettles e he).le_zero_iff.mp (h e he)
        refine ⟨fun ⟨e, he, hfails⟩ => (hevent e he).1 hfails, ?_⟩
        rintro ⟨hlist, e, he, hdiffers⟩
        exact (hevent e he).2 ⟨hlist, hdiffers⟩
      · rintro ⟨hfails, hdiffers⟩ e he
        refine (hsettles e he).le_zero_iff.mpr ⟨fun h => hfails ⟨e, he, h⟩, ?_⟩
        rintro ⟨hlist, h⟩
        exact hdiffers ⟨hlist, e, he, h⟩
    obtain ⟨hfailure, hdifferences, hsuccess⟩ := ExitCode.eq_iff_of_le htwo hone hzero
    rw [hend]
    simp only [Except.ok.injEq, reduceCtorEq, exists_const, haborts, not_false_eq_true,
      true_and]
    exact ⟨hfailure, hdifferences, hsuccess⟩

/-- A file whose text ends in a blank, where differences are listed. -/
theorem runAll_exit_iff_blank :
    ∃ (run : RunOptions) (files : FileSystem), run.patterns = ["a.can"] ∧ run.listDifferent = true
      ∧ files.Holds "a.can" "a \n".toList
      ∧ ((ofRun run [] (.standard fun _ => default) {}).runAll (fresh files) []).2
          = .ok .differences := by
  let run : RunOptions := { patterns := ["a.can"], listDifferent := true }
  let files := FileSystem.single "a.can".toList "a \n".toList
  let engine := Engine.standard fun _ => default
  let v := (ofRun run [] engine {}).visitOf files "a.can"
  have hnull : ∀ pattern ∈ run.patterns, Glob.hasMagic pattern.toList = false →
      FileSystem.null ∉ pattern.toList := by decide
  have hholds : files.Holds "a.can" "a \n".toList := rfl
  have htext : Layout.canonical { filepath := "a.can" } "a \n".toList = "a\n".toList := by decide
  obtain ⟨cursor, hformat⟩ :=
    Engine.exists_format_default (Engine.resolve_forFile_nil "a.can") rfl rfl htext
  have hjudge := (judge_eq_ok_iff (p := ofRun run [] engine {}) rfl).mpr hformat
  have hresult : v.result = .ok .reported :=
    ((processed_visitOf (ofRun run [] engine {}) files "a.can").eq_of_keptAs hholds hjudge rfl).2
  have hhistory : (ofRun run [] engine {}).history files [] = [.visited v] :=
    history_of_path rfl rfl rfl rfl
  refine ⟨run, files, rfl, rfl, hholds, ?_⟩
  refine (runAll_exit_iff (ofRun run [] engine {}) files [] hnull).2.2.1.mpr ⟨?_, ?_, rfl, ?_⟩
  · rintro (⟨hwrite, -⟩ | ⟨e, he, hrejects⟩)
    · cases hwrite
    · rw [hhistory] at he
      rw [List.mem_singleton.mp he, rejects_visited_iff (v := v) hholds] at hrejects
      obtain ⟨m, hm⟩ := hrejects
      cases hjudge.symm.trans hm
  · rintro ⟨e, he, hfails⟩
    rw [hhistory] at he
    rw [List.mem_singleton.mp he] at hfails
    obtain ⟨o, ho, hisError⟩ := hfails
    cases hresult.symm.trans ho
    cases hisError
  · rw [hhistory]
    exact ⟨_, List.mem_singleton_self _, _, _, hholds, hformat, by simp⟩

end Processor

end CaplLayout
