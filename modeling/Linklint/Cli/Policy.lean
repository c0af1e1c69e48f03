import Linklint.Scoring

/-!
# Exit codes

The order of the severities, and the exit code of a batch of results.
-/

namespace Linklint

def SEVERITY_ORDER : List Severity := [.info, .low, .medium, .high, .critical]

def severityRank (severity : Severity) : Nat := SEVERITY_ORDER.idxOf severity

/-- `severityForScore` is monotone. -/
theorem severityRank_mono {p q : Rat} (h : p ≤ q) :
    severityRank (severityForScore p) ≤ severityRank (severityForScore q) := by
  simp only [severityForScore]
  split_ifs <;> first | decide | (exfalso; linarith)

structure ExitPolicyOptions where
  failOn : Severity
  allowInvalid : Bool

/-- Whether one result fails the run. -/
def failsRun (options : ExitPolicyOptions) (result : InspectResult) : Bool :=
  match result.status with
  | .invalid => !options.allowInvalid
  | .ok =>
      match result.severity with
      | none => false
      | some severity => severityRank options.failOn ≤ severityRank severity

/-- The loop returns at the first result that fails the run. -/
def resolveExitCode (results : List InspectResult) (options : ExitPolicyOptions) : Nat :=
  match results with
  | [] => 0
  | result :: rest => if failsRun options result then 1 else resolveExitCode rest options

theorem resolveExitCode_eq (results : List InspectResult) (options : ExitPolicyOptions) :
    resolveExitCode results options = if results.any (failsRun options) then 1 else 0 := by
  induction results with
  | nil => rfl
  | cons result rest ih =>
      rw [resolveExitCode, ih, List.any_cons]
      cases failsRun options result <;> simp

theorem resolveExitCode_le_one (results : List InspectResult) (options : ExitPolicyOptions) :
    resolveExitCode results options ≤ 1 := by
  rw [resolveExitCode_eq]
  split <;> omega

end Linklint
