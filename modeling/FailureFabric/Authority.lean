import FailureFabric.Id
import FailureFabric.Enum
import Mathlib.Tactic.Tauto

namespace FailureFabric

/-!
# Authority envelopes and fencing

Every event carries an `AuthorityEnvelope`, a conjunction of independent dimensions, and is
fenced against the current one.  The fences are first-match lists of rejections; each one is
characterised by the conjunction of what it lets through (`fenceCompletion_accepted_iff`,
`fenceFailure_accepted_iff`, `fenceRecovery_accepted_iff`), and the later modules use only these.

`AuthorityEnvelope.staleFor` collects the three dimensions that both fences compare: attempt id,
coordinator epoch and attempt generation.
-/

/-- `AuthorityEnvelope`. -/
structure AuthorityEnvelope where
  coordinatorEpoch : Generation := {}
  workerBoot : WorkerBootId := {}
  attempt : AttemptId := {}
  attemptGeneration : Generation := {}
  dispatch : DispatchId := {}
  operationGeneration : Generation := {}
  failureGeneration : Generation := {}
  recoveryGeneration : Generation := {}
deriving DecidableEq, Inhabited

namespace AuthorityEnvelope

/-- `is_unset`: every dimension is unset. -/
def isUnset (e : AuthorityEnvelope) : Bool :=
  e.coordinatorEpoch.isUnset && e.workerBoot.isNull &&
    e.attempt.isNull && e.attemptGeneration.isUnset &&
    e.dispatch.isNull && e.operationGeneration.isUnset &&
    e.failureGeneration.isUnset && e.recoveryGeneration.isUnset

/-- The candidate is superseded by the current authority: it names another attempt than the
    current one, or carries an older coordinator epoch or attempt generation. -/
def staleFor (c cur : AuthorityEnvelope) : Bool :=
  (!cur.attempt.isNull && c.attempt != cur.attempt) ||
    c.coordinatorEpoch < cur.coordinatorEpoch || c.attemptGeneration < cur.attemptGeneration

/-- `next_boot`: the envelope of the next incarnation of the worker. -/
def nextBoot (e : AuthorityEnvelope) (freshBoot : WorkerBootId) : AuthorityEnvelope :=
  { e with
    workerBoot := freshBoot
    attemptGeneration := e.attemptGeneration.next
    operationGeneration := e.operationGeneration.next
    failureGeneration := e.failureGeneration.next
    recoveryGeneration := e.recoveryGeneration.next }

end AuthorityEnvelope

/-- `FenceReason`. -/
inductive FenceReason
  | ACCEPTED | EPOCH_STALE | BOOT_STALE | ATTEMPT_STALE | ATTEMPT_MISMATCH
  | DISPATCH_MISMATCH | ATTEMPT_GENERATION_STALE | OPERATION_GENERATION_STALE
  | FAILURE_GENERATION_STALE | RECOVERY_GENERATION_STALE | RECOVERY_OWNER_STALE
  | TERMINAL | UNKNOWN
deriving DecidableEq, Repr

/-- `FenceResult`. -/
structure FenceResult where
  accepted : Bool := false
  status : AuthorityStatus := .UNKNOWN
  reason : FenceReason := .UNKNOWN
  detail : String := ""
deriving DecidableEq, Repr

namespace FenceResult

/-- `accepted(detail)` of the source. -/
def accept (detail : String) : FenceResult := ⟨true, .AUTHORITATIVE, .ACCEPTED, detail⟩

/-- `rejected(r, detail)` of the source. -/
def reject (r : FenceReason) (detail : String) : FenceResult := ⟨false, .STALE, r, detail⟩

@[simp] theorem accept_accepted (d : String) : (accept d).accepted = true := rfl
@[simp] theorem reject_accepted (r : FenceReason) (d : String) :
    (reject r d).accepted = false := rfl

end FenceResult

open FenceResult

/-- `fence_completion`: fence a worker's final report. -/
def fenceCompletion (c cur terminal : AuthorityEnvelope) : FenceResult :=
  if c.isUnset then reject .UNKNOWN "completion carries no authority envelope"
  else if !cur.coordinatorEpoch.isUnset && c.coordinatorEpoch < cur.coordinatorEpoch then
    reject .EPOCH_STALE "completion epoch older than authoritative epoch"
  else if !cur.attempt.isNull && c.attempt != cur.attempt then
    reject .ATTEMPT_MISMATCH "completion references a different attempt id"
  else if !cur.dispatch.isNull && c.dispatch != cur.dispatch then
    reject .DISPATCH_MISMATCH "completion references a different dispatch id"
  else if !cur.workerBoot.isNull && c.workerBoot != cur.workerBoot then
    reject .BOOT_STALE "completion from a dead/stale worker boot"
  else if !cur.attemptGeneration.isUnset && c.attemptGeneration < cur.attemptGeneration then
    reject .ATTEMPT_GENERATION_STALE "completion attempt generation regressed"
  else if !cur.operationGeneration.isUnset &&
      c.operationGeneration < cur.operationGeneration then
    reject .OPERATION_GENERATION_STALE "completion operation generation regressed"
  else if !terminal.isUnset && (c.attemptGeneration ≤ terminal.attemptGeneration &&
      c.operationGeneration ≤ terminal.operationGeneration) then
    reject .ATTEMPT_GENERATION_STALE "terminal outcome already recorded at this/newer generation"
  else accept "completion authority is current"

/-- `fence_failure`: fence a failure event. -/
def fenceFailure (c cur : AuthorityEnvelope) : FenceResult :=
  if c.isUnset then reject .UNKNOWN "failure carries no authority envelope"
  else if !cur.coordinatorEpoch.isUnset && c.coordinatorEpoch < cur.coordinatorEpoch then
    reject .EPOCH_STALE "failure epoch older than authoritative epoch"
  else if !cur.attempt.isNull && c.attempt != cur.attempt then
    reject .ATTEMPT_MISMATCH "failure references a different attempt id"
  else if !cur.attemptGeneration.isUnset && c.attemptGeneration < cur.attemptGeneration then
    reject .ATTEMPT_GENERATION_STALE "failure attempt generation regressed"
  else if (!cur.workerBoot.isNull && !c.workerBoot.isNull && c.workerBoot != cur.workerBoot) &&
      c.attemptGeneration ≤ cur.attemptGeneration then
    reject .BOOT_STALE "failure from a stale worker boot"
  else accept "failure authority is current"

/-- `fence_recovery`: fence a recovery command. -/
def fenceRecovery (c cur : AuthorityEnvelope) (currentRecoveryGeneration : Generation) :
    FenceResult :=
  if c.isUnset then reject .UNKNOWN "recovery command carries no authority envelope"
  else if !cur.coordinatorEpoch.isUnset && c.coordinatorEpoch < cur.coordinatorEpoch then
    reject .EPOCH_STALE "recovery epoch older than authoritative epoch"
  else if c.recoveryGeneration ≤ currentRecoveryGeneration then
    reject .RECOVERY_GENERATION_STALE "recovery generation did not increase"
  else if !cur.attempt.isNull && c.attempt != cur.attempt then
    reject .ATTEMPT_MISMATCH "recovery references a different attempt id"
  else accept "recovery authority is current"

/-! ### What the fences let through -/

/-- The unset exemption of a generation check is redundant: nothing is below an unset one. -/
theorem generation_check_iff (a b : Generation) :
    (!b.isUnset && decide (a < b)) = true ↔ a < b := by
  rw [Bool.and_eq_true, decide_eq_true_eq, Bool.not_eq_true']
  exact ⟨fun h => h.2, fun h => ⟨Generation.isUnset_eq_false_of_lt h, h⟩⟩

/-- `fence_completion` accepts exactly the envelopes that agree with the current one on every
    set identity, regress in no generation, and are newer than a recorded terminal one. -/
theorem fenceCompletion_accepted_iff (c cur terminal : AuthorityEnvelope) :
    (fenceCompletion c cur terminal).accepted = true ↔
      c.isUnset = false ∧ ¬ c.coordinatorEpoch < cur.coordinatorEpoch ∧
      (cur.attempt.isNull = false → c.attempt = cur.attempt) ∧
      (cur.dispatch.isNull = false → c.dispatch = cur.dispatch) ∧
      (cur.workerBoot.isNull = false → c.workerBoot = cur.workerBoot) ∧
      ¬ c.attemptGeneration < cur.attemptGeneration ∧
      ¬ c.operationGeneration < cur.operationGeneration ∧
      (terminal.isUnset = false → c.attemptGeneration ≤ terminal.attemptGeneration →
        ¬ c.operationGeneration ≤ terminal.operationGeneration) := by
  unfold fenceCompletion
  simp only [generation_check_iff]
  split_ifs <;> simp_all

/-- `fence_failure` accepts exactly the envelopes that agree with the current attempt, regress
    in neither epoch nor attempt generation, and come from the current boot, from no boot or
    from a newer attempt generation. -/
theorem fenceFailure_accepted_iff (c cur : AuthorityEnvelope) :
    (fenceFailure c cur).accepted = true ↔
      c.isUnset = false ∧ ¬ c.coordinatorEpoch < cur.coordinatorEpoch ∧
      (cur.attempt.isNull = false → c.attempt = cur.attempt) ∧
      ¬ c.attemptGeneration < cur.attemptGeneration ∧
      (cur.workerBoot.isNull = false → c.workerBoot.isNull = false →
        c.workerBoot ≠ cur.workerBoot → ¬ c.attemptGeneration ≤ cur.attemptGeneration) := by
  unfold fenceFailure
  simp only [generation_check_iff]
  split_ifs <;> simp_all

/-- `fence_recovery` accepts exactly the envelopes of the current attempt and epoch whose recovery
    generation is greater. -/
theorem fenceRecovery_accepted_iff (c cur : AuthorityEnvelope) (gen : Generation) :
    (fenceRecovery c cur gen).accepted = true ↔
      c.isUnset = false ∧ ¬ c.coordinatorEpoch < cur.coordinatorEpoch ∧
      ¬ c.recoveryGeneration ≤ gen ∧
      (cur.attempt.isNull = false → c.attempt = cur.attempt) := by
  unfold fenceRecovery
  simp only [generation_check_iff]
  split_ifs <;> simp_all

/-- An envelope passes its own failure fence. -/
theorem fenceFailure_self {e : AuthorityEnvelope} (h : e.isUnset = false) :
    (fenceFailure e e).accepted = true := by
  have hirrefl : ∀ g : Generation, ¬ g < g := fun g => by
    rw [Generation.lt_iff]
    exact Nat.lt_irrefl _
  rw [fenceFailure_accepted_iff]
  exact ⟨h, hirrefl _, fun _ => rfl, hirrefl _, fun _ _ hne => absurd rfl hne⟩

end FailureFabric
