/-!
# Exit codes

The exit code of a run tells the worst that happened in it. While the run goes on it only
ever rises.
-/

set_option autoImplicit false

namespace CaplLayout

/-- What a run reports to its caller. -/
inductive ExitCode
  /-- Nothing to report. -/
  | success
  /-- Some file is not formatted. -/
  | differences
  /-- Some input could not be read, formatted or written. -/
  | failure
  /-- The configuration cannot be used; the run has been given up. -/
  | fatal
deriving DecidableEq, Repr, Inhabited

namespace ExitCode

/-- The number of an exit code. -/
def toNat : ExitCode → Nat
  | .success => 0
  | .differences => 1
  | .failure => 2
  | .fatal => 3

/-- The name of an exit code. -/
def name : ExitCode → String
  | .success => "SUCCESS"
  | .differences => "DIFFERENCES"
  | .failure => "FAILURE"
  | .fatal => "FATAL"

/-- The exit code of a number. -/
def ofInt? (n : Int) : Option ExitCode :=
  if n = 0 then some .success
  else if n = 1 then some .differences
  else if n = 2 then some .failure
  else if n = 3 then some .fatal
  else none

/-- The worse of two exit codes. -/
def escalate (current code : ExitCode) : ExitCode :=
  if current.toNat < code.toNat then code else current

/-- Escalates to the code of a number. A number that is not above the present one changes
nothing, whatever it is; one above all codes is an error. -/
def escalateTo (current : ExitCode) (n : Int) : Except String ExitCode :=
  if n ≤ current.toNat then .ok current
  else
    match ofInt? n with
    | some code => .ok code
    | none => .error (toString n ++ " is not a valid ExitCode")

theorem escalate_assoc (a b c : ExitCode) :
    (a.escalate b).escalate c = a.escalate (b.escalate c) := by
  cases a <;> cases b <;> cases c <;> rfl

theorem success_escalate (a : ExitCode) : ExitCode.success.escalate a = a := by
  cases a <;> rfl

theorem escalate_success (a : ExitCode) : a.escalate .success = a := by
  cases a <;> rfl

theorem le_escalate_left (a b : ExitCode) : a.toNat ≤ (a.escalate b).toNat := by
  cases a <;> cases b <;> decide

theorem le_escalate_right (a b : ExitCode) : b.toNat ≤ (a.escalate b).toNat := by
  cases a <;> cases b <;> decide

end ExitCode

end CaplLayout
