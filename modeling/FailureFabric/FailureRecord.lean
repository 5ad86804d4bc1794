import FailureFabric.Authority

namespace FailureFabric

/-!
# Failure records

The canonical description of one failure.  A record is only ever appended to the failure log and
is not changed afterwards.
-/

/-- `FailureRecord`. -/
structure FailureRecord where
  failureId : FailureId := {}
  operation : OperationId := {}
  request : RequestId := {}
  workload : WorkloadId := {}
  attempt : AttemptId := {}
  dispatch : DispatchId := {}
  worker : WorkerId := {}
  node : NodeId := {}
  device : DeviceId := {}
  failureClass : FailureClass := .UNKNOWN
  origin : FailureOrigin := .UNKNOWN
  failureCode : UInt32 := 0
  /-- For a human reader. -/
  summary : Text := []
  /-- For a program. -/
  reason : Text := []
  phase : FailurePhase := .UNKNOWN
  timestampMs : UInt64 := 0
  completion : Ambiguity := .UNKNOWN_OUTCOME
  sideEffectState : SideEffectState := .UNKNOWN
  unknownSideEffects : UInt32 := 0
  authority : AuthorityEnvelope := {}
  retryability : Retryability := .UNKNOWN
  rollback : RollbackRequirement := .NONE
  compensation : CompensationRequirement := .NONE
  terminality : Terminality := .UNKNOWN
  recoveryOwner : RecoveryOwner := .NONE
  provenance : Provenance := .UNKNOWN
  causalParent : FailureId := {}
  dependencies : List FailureId := []
deriving DecidableEq

/-- The completion leaves open whether the operation took effect: the local `ambiguous` of the
    retry classifier and of the recovery planner. -/
def FailureRecord.ambiguous (fail : FailureRecord) : Bool :=
  fail.completion = .AMBIGUOUS || fail.completion = .UNKNOWN_OUTCOME

/-- The two outcomes that count as ambiguous. -/
theorem FailureRecord.ambiguous_iff (fail : FailureRecord) :
    fail.ambiguous = true ↔ fail.completion = .AMBIGUOUS ∨ fail.completion = .UNKNOWN_OUTCOME := by
  unfold ambiguous
  cases fail.completion <;> decide

/-- The two that do not. -/
theorem FailureRecord.ambiguous_eq_false_iff (fail : FailureRecord) :
    fail.ambiguous = false ↔ fail.completion = .KNOWN ∨ fail.completion = .PARTIAL := by
  unfold ambiguous
  cases fail.completion <;> decide

/-! ### The builder -/

/-- `Dims`: the orthogonal dimensions that a failure class suggests. -/
structure Dims where
  retry : Retryability
  rollback : RollbackRequirement
  comp : CompensationRequirement
  term : Terminality
deriving DecidableEq

/-- `dims_for`. -/
def dimsFor : FailureClass → Dims
  | .TRANSIENT => ⟨.RETRYABLE, .NONE, .NONE, .TRANSIENT⟩
  | .PERMANENT => ⟨.NON_RETRYABLE, .OPTIONAL, .OPTIONAL, .TERMINAL⟩
  | .RETRYABLE => ⟨.RETRYABLE, .NONE, .NONE, .TRANSIENT⟩
  | .NON_RETRYABLE => ⟨.NON_RETRYABLE, .OPTIONAL, .OPTIONAL, .TERMINAL⟩
  | .AMBIGUOUS => ⟨.CONDITIONALLY_RETRYABLE, .OPTIONAL, .OPTIONAL, .PENDING⟩
  | .PARTIAL_SUCCESS => ⟨.CONDITIONALLY_RETRYABLE, .REQUIRED, .REQUIRED, .PENDING⟩
  | .STALE_AUTHORITY => ⟨.NON_RETRYABLE, .NONE, .NONE, .TERMINAL⟩
  | .LOST_WORKER => ⟨.CONDITIONALLY_RETRYABLE, .OPTIONAL, .OPTIONAL, .PENDING⟩
  | .LOST_DEVICE => ⟨.CONDITIONALLY_RETRYABLE, .OPTIONAL, .OPTIONAL, .PENDING⟩
  | .TRANSPORT_FAILURE => ⟨.CONDITIONALLY_RETRYABLE, .NONE, .NONE, .TRANSIENT⟩
  | .TIMEOUT_OBSERVED => ⟨.CONDITIONALLY_RETRYABLE, .NONE, .NONE, .TRANSIENT⟩
  | .PROTOCOL_FAILURE => ⟨.NON_RETRYABLE, .NONE, .NONE, .TRANSIENT⟩
  | .RESOURCE_EXHAUSTION => ⟨.RETRYABLE, .NONE, .NONE, .TRANSIENT⟩
  | .CORRUPTION => ⟨.NON_RETRYABLE, .REQUIRED, .REQUIRED, .TERMINAL⟩
  | .VALIDATION_FAILURE => ⟨.NON_RETRYABLE, .NONE, .NONE, .TERMINAL⟩
  | .INCOMPATIBILITY => ⟨.NON_RETRYABLE, .OPTIONAL, .OPTIONAL, .TERMINAL⟩
  | .CANCELLED => ⟨.NON_RETRYABLE, .OPTIONAL, .OPTIONAL, .TERMINAL⟩
  | .PREEMPTED => ⟨.RETRYABLE, .NONE, .NONE, .TRANSIENT⟩
  | .DEPENDENCY_FAILURE => ⟨.CONDITIONALLY_RETRYABLE, .NONE, .NONE, .TRANSIENT⟩
  | .STORAGE_FAILURE => ⟨.CONDITIONALLY_RETRYABLE, .NONE, .NONE, .TRANSIENT⟩
  | .EXECUTION_FAILURE => ⟨.RETRYABLE, .NONE, .NONE, .TRANSIENT⟩
  | .RECOVERY_FAILURE => ⟨.NON_RETRYABLE, .OPTIONAL, .OPTIONAL, .PENDING⟩
  | .UNKNOWN => ⟨.UNKNOWN, .NONE, .NONE, .UNKNOWN⟩

/-- `FailureRecordBuilder`: the record so far, and which dimensions the caller has set. -/
structure FailureRecordBuilder where
  r : FailureRecord := {}
  retrySet : Bool := false
  rollbackSet : Bool := false
  compSet : Bool := false
  termSet : Bool := false

/-- `FailureRecordBuilder::build`, with the sixteen bytes drawn for a missing failure id. -/
def FailureRecordBuilder.build (b : FailureRecordBuilder) (drawn : Uuid128) : FailureRecord :=
  let d := dimsFor b.r.failureClass
  { b.r with
    retryability := if !b.retrySet && b.r.retryability = .UNKNOWN then d.retry
      else b.r.retryability
    rollback := if !b.rollbackSet && b.r.rollback = .NONE then d.rollback else b.r.rollback
    compensation := if !b.compSet && b.r.compensation = .NONE then d.comp else b.r.compensation
    terminality := if !b.termSet && b.r.terminality = .UNKNOWN then d.term
      else b.r.terminality
    failureId := if b.r.failureId.isNull then Id.generate drawn else b.r.failureId }

end FailureFabric
