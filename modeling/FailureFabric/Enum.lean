import Mathlib.Data.List.Basic

namespace FailureFabric

/-!
# The classification dimensions

Each enumeration class of the source is an inductive type with the source's enumerators in the
source's order.  They all have the underlying type `uint32_t`, and `WireEnum` is the pair of
casts to and from it, for codes below the number of enumerators.

Two enumerations are read from a snapshot without a range check, so their values may be codes
that no enumerator names: `OperationState` and `IdempotencyState` have one more constructor for
these, and their casts are total inverses of each other.
-/

/-- An enumeration class, with its casts to and from the underlying type. -/
class WireEnum (α : Type) where
  /-- The number of enumerators. -/
  count : Nat
  /-- `static_cast<uint32_t>`. -/
  code : α → UInt32
  /-- The cast back, used below `count` only. -/
  ofCode : UInt32 → α
  /-- The cast back undoes the cast. -/
  ofCode_code : ∀ a, ofCode (code a) = a
  /-- Every enumerator has a code below the bound that the readers check. -/
  code_lt : ∀ a, (code a).toNat < count
  /-- Every code below the bound is the code of an enumerator. -/
  code_ofCode : ∀ c : UInt32, c.toNat < count → code (ofCode c) = c

/-- `FailureClass`: what kind of failure was observed. -/
inductive FailureClass
  | TRANSIENT | PERMANENT | RETRYABLE | NON_RETRYABLE | AMBIGUOUS | PARTIAL_SUCCESS
  | STALE_AUTHORITY | LOST_WORKER | LOST_DEVICE | TRANSPORT_FAILURE | TIMEOUT_OBSERVED
  | PROTOCOL_FAILURE | RESOURCE_EXHAUSTION | CORRUPTION | VALIDATION_FAILURE
  | INCOMPATIBILITY | CANCELLED | PREEMPTED | DEPENDENCY_FAILURE | STORAGE_FAILURE
  | EXECUTION_FAILURE | RECOVERY_FAILURE | UNKNOWN
deriving DecidableEq, Repr

/-- `FailureOrigin`: the component the failure comes from. -/
inductive FailureOrigin
  | COORDINATOR | WORKER | STORAGE | TRANSPORT | DEVICE | PROTOCOL | RESOURCE
  | VALIDATION | SCHEDULER | EXTERNAL | UNKNOWN
deriving DecidableEq, Repr

/-- `Retryability`: whether the failed work may be attempted again. -/
inductive Retryability
  | RETRYABLE | NON_RETRYABLE | CONDITIONALLY_RETRYABLE | UNKNOWN
deriving DecidableEq, Repr

/-- `Ambiguity`: whether it is known that the work completed. -/
inductive Ambiguity
  | KNOWN | PARTIAL | AMBIGUOUS | UNKNOWN_OUTCOME
deriving DecidableEq, Repr

/-- `SideEffectState`: whether the work left side effects behind. -/
inductive SideEffectState
  | NONE_POSSIBLE | KNOWN_NOT_OCCURRED | MAY_OCCURRED | KNOWN_OCCURRED | UNKNOWN
deriving DecidableEq, Repr

/-- `AuthorityStatus`: the standing of the envelope an event carries. -/
inductive AuthorityStatus
  | AUTHORITATIVE | STALE | FENCED | SUPERSEDED | UNKNOWN
deriving DecidableEq, Repr

/-- `RollbackRequirement`: whether the work has to be rolled back first. -/
inductive RollbackRequirement
  | NONE | OPTIONAL | REQUIRED | UNAVAILABLE
deriving DecidableEq, Repr

/-- `CompensationRequirement`: whether its effects have to be compensated. -/
inductive CompensationRequirement
  | NONE | OPTIONAL | REQUIRED
deriving DecidableEq, Repr

/-- `RecoveryOwner`: who is in charge of the recovery. -/
inductive RecoveryOwner
  | COORDINATOR | ORIGINAL_WORKER | REPLACEMENT_WORKER | REPLICA_MANAGER
  | STORAGE_SUBSYSTEM | TRANSFER_SUBSYSTEM | OPERATOR | EXTERNAL_SYSTEM | NONE
deriving DecidableEq, Repr

/-- `Terminality`: whether the failure ends the operation. -/
inductive Terminality
  | TERMINAL | TRANSIENT | PENDING | UNKNOWN
deriving DecidableEq, Repr

/-- `Provenance`: on whose word the failure was recorded. -/
inductive Provenance
  | FAILURE_FABRIC | WORKER_REPORT | COORDINATOR_INFERENCE | OPERATOR
  | EXTERNAL_SYSTEM | SYSTEM_HEURISTIC | UNKNOWN
deriving DecidableEq, Repr

/-- `FailurePhase`: the part of the work in which it failed. -/
inductive FailurePhase
  | SUBMIT | DISPATCH | EXECUTE | TRANSFER | STORE | COMMIT | ACK | RECOVERY
  | POST_RECOVERY | UNKNOWN
deriving DecidableEq, Repr

/-- `ProtocolMessage`: the kinds of messages between the coordinator and its workers. -/
inductive ProtocolMessage
  | REGISTER | REGISTER_ACK | DISPATCH | RUNNING | COMPLETE | FAILURE | ACK | RETRY
  | ROLLBACK | COMPENSATE | RECOVERY_ASSIGN | RECOVERY_COMPLETE | CANCEL | FENCE
  | HEARTBEAT | SHUTDOWN
deriving DecidableEq, Repr

/-- `RecoveryAction`: what the planner may decide to do. -/
inductive RecoveryAction
  | RETRY | RETRY_ELSEWHERE | RESTART_WORKER | RESTART_DEVICE_CONTEXT | RELOAD_STATE
  | REHYDRATE_STATE | FAILOVER_REPLICA | ROLLBACK | COMPENSATE | INVALIDATE | RECOMPUTE
  | ABANDON | ESCALATE | MANUAL_RESOLUTION
deriving DecidableEq, Repr

/-- `RollbackAction`: the kinds of steps of a rollback. -/
inductive RollbackAction
  | RELEASE_RESERVATION | FREE_ALLOCATION | INVALIDATE_GENERATION | REVERT_METADATA
  | REMOVE_PARTIAL_STATE | RESTORE_SNAPSHOT | CANCEL_DEPENDENT | RELEASE_SERVING_AUTHORITY
  | MARK_ARTIFACT_INVALID | UNWIND_TRANSACTION
deriving DecidableEq, Repr

/-! ### The names -/

/-- `to_string(FailureClass)`. -/
def FailureClass.name : FailureClass → String
  | TRANSIENT => "TRANSIENT"
  | PERMANENT => "PERMANENT"
  | RETRYABLE => "RETRYABLE"
  | NON_RETRYABLE => "NON_RETRYABLE"
  | AMBIGUOUS => "AMBIGUOUS"
  | PARTIAL_SUCCESS => "PARTIAL_SUCCESS"
  | STALE_AUTHORITY => "STALE_AUTHORITY"
  | LOST_WORKER => "LOST_WORKER"
  | LOST_DEVICE => "LOST_DEVICE"
  | TRANSPORT_FAILURE => "TRANSPORT_FAILURE"
  | TIMEOUT_OBSERVED => "TIMEOUT_OBSERVED"
  | PROTOCOL_FAILURE => "PROTOCOL_FAILURE"
  | RESOURCE_EXHAUSTION => "RESOURCE_EXHAUSTION"
  | CORRUPTION => "CORRUPTION"
  | VALIDATION_FAILURE => "VALIDATION_FAILURE"
  | INCOMPATIBILITY => "INCOMPATIBILITY"
  | CANCELLED => "CANCELLED"
  | PREEMPTED => "PREEMPTED"
  | DEPENDENCY_FAILURE => "DEPENDENCY_FAILURE"
  | STORAGE_FAILURE => "STORAGE_FAILURE"
  | EXECUTION_FAILURE => "EXECUTION_FAILURE"
  | RECOVERY_FAILURE => "RECOVERY_FAILURE"
  | UNKNOWN => "UNKNOWN"

/-- `to_string(FailureOrigin)`. -/
def FailureOrigin.name : FailureOrigin → String
  | COORDINATOR => "COORDINATOR"
  | WORKER => "WORKER"
  | STORAGE => "STORAGE"
  | TRANSPORT => "TRANSPORT"
  | DEVICE => "DEVICE"
  | PROTOCOL => "PROTOCOL"
  | RESOURCE => "RESOURCE"
  | VALIDATION => "VALIDATION"
  | SCHEDULER => "SCHEDULER"
  | EXTERNAL => "EXTERNAL"
  | UNKNOWN => "UNKNOWN"

/-- `to_string(Retryability)`. -/
def Retryability.name : Retryability → String
  | RETRYABLE => "RETRYABLE"
  | NON_RETRYABLE => "NON_RETRYABLE"
  | CONDITIONALLY_RETRYABLE => "CONDITIONALLY_RETRYABLE"
  | UNKNOWN => "UNKNOWN"

/-- `to_string(Ambiguity)`. -/
def Ambiguity.name : Ambiguity → String
  | KNOWN => "KNOWN"
  | PARTIAL => "PARTIAL"
  | AMBIGUOUS => "AMBIGUOUS"
  | UNKNOWN_OUTCOME => "UNKNOWN_OUTCOME"

/-- `to_string(SideEffectState)`. -/
def SideEffectState.name : SideEffectState → String
  | NONE_POSSIBLE => "NONE_POSSIBLE"
  | KNOWN_NOT_OCCURRED => "KNOWN_NOT_OCCURRED"
  | MAY_OCCURRED => "MAY_OCCURRED"
  | KNOWN_OCCURRED => "KNOWN_OCCURRED"
  | UNKNOWN => "UNKNOWN"

/-- `to_string(RollbackRequirement)`. -/
def RollbackRequirement.name : RollbackRequirement → String
  | NONE => "NONE"
  | OPTIONAL => "OPTIONAL"
  | REQUIRED => "REQUIRED"
  | UNAVAILABLE => "UNAVAILABLE"

/-- `to_string(CompensationRequirement)`. -/
def CompensationRequirement.name : CompensationRequirement → String
  | NONE => "NONE"
  | OPTIONAL => "OPTIONAL"
  | REQUIRED => "REQUIRED"

/-- `to_string(RecoveryOwner)`. -/
def RecoveryOwner.name : RecoveryOwner → String
  | COORDINATOR => "COORDINATOR"
  | ORIGINAL_WORKER => "ORIGINAL_WORKER"
  | REPLACEMENT_WORKER => "REPLACEMENT_WORKER"
  | REPLICA_MANAGER => "REPLICA_MANAGER"
  | STORAGE_SUBSYSTEM => "STORAGE_SUBSYSTEM"
  | TRANSFER_SUBSYSTEM => "TRANSFER_SUBSYSTEM"
  | OPERATOR => "OPERATOR"
  | EXTERNAL_SYSTEM => "EXTERNAL_SYSTEM"
  | NONE => "NONE"

/-- `to_string(Terminality)`. -/
def Terminality.name : Terminality → String
  | TERMINAL => "TERMINAL"
  | TRANSIENT => "TRANSIENT"
  | PENDING => "PENDING"
  | UNKNOWN => "UNKNOWN"

/-! ### The casts -/

section Casts

variable {α : Type} (index : α → Nat) (ofIndex : Nat → α) (n : Nat)

/-- The casts of an enumeration from its two index functions. -/
@[reducible] def WireEnum.ofIndices (hn : n ≤ UInt32.size) (hleft : ∀ a, ofIndex (index a) = a)
    (hlt : ∀ a, index a < n) (hright : ∀ i < n, index (ofIndex i) = i) : WireEnum α where
  count := n
  code a := UInt32.ofNat (index a)
  ofCode c := ofIndex c.toNat
  ofCode_code a := by
    have hrange : index a < UInt32.size := Nat.lt_of_lt_of_le (hlt a) hn
    rw [UInt32.toNat_ofNat_of_lt' hrange, hleft]
  code_lt a := by
    have hrange : index a < UInt32.size := Nat.lt_of_lt_of_le (hlt a) hn
    rw [UInt32.toNat_ofNat_of_lt' hrange]
    exact hlt a
  code_ofCode c hc := by rw [hright _ hc, UInt32.ofNat_toNat]

end Casts

instance : WireEnum FailureClass :=
  .ofIndices FailureClass.ctorIdx FailureClass.ofNat 23 (by decide)
    FailureClass.ofNat_ctorIdx (by intro a; cases a <;> decide) (by decide)

instance : WireEnum FailureOrigin :=
  .ofIndices FailureOrigin.ctorIdx FailureOrigin.ofNat 11 (by decide)
    FailureOrigin.ofNat_ctorIdx (by intro a; cases a <;> decide) (by decide)

instance : WireEnum Retryability :=
  .ofIndices Retryability.ctorIdx Retryability.ofNat 4 (by decide)
    Retryability.ofNat_ctorIdx (by intro a; cases a <;> decide) (by decide)

instance : WireEnum Ambiguity :=
  .ofIndices Ambiguity.ctorIdx Ambiguity.ofNat 4 (by decide)
    Ambiguity.ofNat_ctorIdx (by intro a; cases a <;> decide) (by decide)

instance : WireEnum SideEffectState :=
  .ofIndices SideEffectState.ctorIdx SideEffectState.ofNat 5 (by decide)
    SideEffectState.ofNat_ctorIdx (by intro a; cases a <;> decide) (by decide)

instance : WireEnum RollbackRequirement :=
  .ofIndices RollbackRequirement.ctorIdx RollbackRequirement.ofNat 4 (by decide)
    RollbackRequirement.ofNat_ctorIdx (by intro a; cases a <;> decide) (by decide)

instance : WireEnum CompensationRequirement :=
  .ofIndices CompensationRequirement.ctorIdx CompensationRequirement.ofNat 3 (by decide)
    CompensationRequirement.ofNat_ctorIdx (by intro a; cases a <;> decide) (by decide)

instance : WireEnum RecoveryOwner :=
  .ofIndices RecoveryOwner.ctorIdx RecoveryOwner.ofNat 9 (by decide)
    RecoveryOwner.ofNat_ctorIdx (by intro a; cases a <;> decide) (by decide)

instance : WireEnum Terminality :=
  .ofIndices Terminality.ctorIdx Terminality.ofNat 4 (by decide)
    Terminality.ofNat_ctorIdx (by intro a; cases a <;> decide) (by decide)

instance : WireEnum Provenance :=
  .ofIndices Provenance.ctorIdx Provenance.ofNat 7 (by decide)
    Provenance.ofNat_ctorIdx (by intro a; cases a <;> decide) (by decide)

instance : WireEnum FailurePhase :=
  .ofIndices FailurePhase.ctorIdx FailurePhase.ofNat 10 (by decide)
    FailurePhase.ofNat_ctorIdx (by intro a; cases a <;> decide) (by decide)

instance : WireEnum ProtocolMessage :=
  .ofIndices ProtocolMessage.ctorIdx ProtocolMessage.ofNat 16 (by decide)
    ProtocolMessage.ofNat_ctorIdx (by intro a; cases a <;> decide) (by decide)

/-! ### The two enumerations that are cast without a check -/

/-- `OperationState`.  `unnamed` holds the codes from twenty on, which a cast from `uint32_t`
    admits. -/
inductive OperationState
  | CREATED | DISPATCHED | RUNNING | COMPLETION_REPORTED | COMPLETION_CONFIRMED
  | FAILED_KNOWN | FAILED_AMBIGUOUS | PARTIALLY_SUCCEEDED | RETRY_PENDING | RETRYING
  | ROLLBACK_PENDING | ROLLING_BACK | COMPENSATION_PENDING | COMPENSATING
  | RECOVERY_PENDING | RECOVERING | RECOVERED | TERMINAL_FAILED | CANCELLED | ABANDONED
  | unnamed (code : UInt32) (unnamed_le : 20 ≤ code)
deriving DecidableEq

namespace OperationState

/-- `static_cast<uint32_t>`. -/
def code : OperationState → UInt32
  | CREATED => 0 | DISPATCHED => 1 | RUNNING => 2 | COMPLETION_REPORTED => 3
  | COMPLETION_CONFIRMED => 4 | FAILED_KNOWN => 5 | FAILED_AMBIGUOUS => 6
  | PARTIALLY_SUCCEEDED => 7 | RETRY_PENDING => 8 | RETRYING => 9 | ROLLBACK_PENDING => 10
  | ROLLING_BACK => 11 | COMPENSATION_PENDING => 12 | COMPENSATING => 13
  | RECOVERY_PENDING => 14 | RECOVERING => 15 | RECOVERED => 16 | TERMINAL_FAILED => 17
  | CANCELLED => 18 | ABANDONED => 19
  | unnamed c _ => c

/-- The enumerator with a given index; the first one from twenty on, as `index_to_state`. -/
def indexToState : Nat → OperationState
  | 0 => CREATED | 1 => DISPATCHED | 2 => RUNNING | 3 => COMPLETION_REPORTED
  | 4 => COMPLETION_CONFIRMED | 5 => FAILED_KNOWN | 6 => FAILED_AMBIGUOUS
  | 7 => PARTIALLY_SUCCEEDED | 8 => RETRY_PENDING | 9 => RETRYING | 10 => ROLLBACK_PENDING
  | 11 => ROLLING_BACK | 12 => COMPENSATION_PENDING | 13 => COMPENSATING
  | 14 => RECOVERY_PENDING | 15 => RECOVERING | 16 => RECOVERED | 17 => TERMINAL_FAILED
  | 18 => CANCELLED | 19 => ABANDONED
  | _ => CREATED

/-- `static_cast<OperationState>`. -/
def ofCode (c : UInt32) : OperationState :=
  if h : 20 ≤ c then unnamed c h else indexToState c.toNat

/-- A state is found again from its code, named or not. -/
@[simp] theorem ofCode_code (s : OperationState) : ofCode s.code = s := by
  cases s
  case unnamed c h => exact dif_pos h
  all_goals rfl

/-- Every code is the code of some state, so a snapshot's code is written back as it was read. -/
@[simp] theorem code_ofCode (c : UInt32) : (ofCode c).code = c := by
  unfold ofCode
  split
  · rfl
  · next h =>
    have hall : ∀ n : Fin 20, (indexToState n.val).code = UInt32.ofNat n.val := by decide
    have hlt : c.toNat < 20 := Nat.lt_of_not_le (fun hle => h (UInt32.le_iff_toNat_le.mpr hle))
    rw [hall ⟨c.toNat, hlt⟩, UInt32.ofNat_toNat]

end OperationState

/-- `IdempotencyState`.  `unnamed` holds the codes from four on. -/
inductive IdempotencyState
  | IN_PROGRESS | COMPLETED | FAILED | CONFLICT
  | unnamed (code : UInt32) (unnamed_le : 4 ≤ code)
deriving DecidableEq

namespace IdempotencyState

/-- `static_cast<uint32_t>`. -/
def code : IdempotencyState → UInt32
  | IN_PROGRESS => 0 | COMPLETED => 1 | FAILED => 2 | CONFLICT => 3
  | unnamed c _ => c

/-- `static_cast<IdempotencyState>`. -/
def ofCode (c : UInt32) : IdempotencyState :=
  if h : 4 ≤ c then unnamed c h
  else match c.toNat with
    | 0 => IN_PROGRESS | 1 => COMPLETED | 2 => FAILED | _ => CONFLICT

/-- So is the state of an entry. -/
@[simp] theorem ofCode_code (s : IdempotencyState) : ofCode s.code = s := by
  cases s
  case unnamed c h => exact dif_pos h
  all_goals rfl

/-- The code of an entry is written back as it was read. -/
@[simp] theorem code_ofCode (c : UInt32) : (ofCode c).code = c := by
  have hnamed : ∀ n : Fin 4, (ofCode (UInt32.ofNat n.val)).code = UInt32.ofNat n.val := by decide
  by_cases h : 4 ≤ c
  · rw [ofCode, dif_pos h, code]
  · have hlt : c.toNat < 4 := Nat.lt_of_not_le (fun hle => h (UInt32.le_iff_toNat_le.mpr hle))
    have hcode := hnamed ⟨c.toNat, hlt⟩
    rwa [UInt32.ofNat_toNat] at hcode

end IdempotencyState

end FailureFabric
