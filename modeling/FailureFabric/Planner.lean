import FailureFabric.FailureRecord

namespace FailureFabric

/-!
# The recovery planner

A failure record and the state of its surroundings determine one recovery action.  The planner
goes through five sections in a fixed order; the first one that concerns the record selects the
action and fills the plan.

* `planLost`, `planAmbiguous`, `planOccurred`, `planRetryable`, `planTerminal` — the sections;
* `plan` — the planner; `plan_cases` is its case analysis, which section runs under which
  conditions, and the later results use only this and what they need of each section;
* `plan_coherent` — every plan is feasible, has an owner, and does not reject what it selects;
* `plan_reexecutes_iff`, `plan_abandons_iff` — when the operation is executed again, and when it
  is given up.
-/

/-- `RecoveryPlanId`. -/
structure RecoveryPlanId where
  raw : Uuid128 := Uuid128.zero
deriving DecidableEq

/-- `RecoveryPlan`. -/
structure RecoveryPlan where
  planId : RecoveryPlanId := {}
  operation : OperationId := {}
  generation : Generation := {}
  owner : RecoveryOwner := .COORDINATOR
  authority : AuthorityEnvelope := {}
  action : RecoveryAction := .RETRY
  preconditions : List String := []
  rejectedAlternatives : List RecoveryAction := []
  rejectionReasons : List String := []
  reasonFactors : List String := []
  expectedPreserved : String := ""
  expectedDiscarded : String := ""
deriving DecidableEq

/-- `PlanInput`. -/
structure PlanInput where
  attemptCount : UInt32 := 0
  maxAttempts : UInt32 := 3
  workerHealthy : Bool := true
  deviceHealthy : Bool := true
  idempotentRetryPossible : Bool := false
  rollbackPossible : Bool := false
  compensationPossible : Bool := false
  deadlineExceeded : Bool := false
  externallyCommitted : Bool := false
  dependencyReady : Bool := true
deriving DecidableEq

/-- The local `exhausted` of `plan`. -/
def PlanInput.exhausted (input : PlanInput) : Bool := input.attemptCount ≥ input.maxAttempts

namespace FailureRecord

/-- The classes of the first section. -/
def lost (fail : FailureRecord) : Bool :=
  fail.failureClass = .LOST_DEVICE || fail.failureClass = .LOST_WORKER

/-- The local `may_effect` of `plan`: unlike the one of `classify`, it counts side effects that are
    known to have occurred. -/
def mayOrDidEffect (fail : FailureRecord) : Bool :=
  fail.sideEffectState = .MAY_OCCURRED || fail.sideEffectState = .UNKNOWN ||
    fail.sideEffectState = .KNOWN_OCCURRED

/-- The local `retryable_class` of `plan`, which does not derive a retryability from the class. -/
def retryable (fail : FailureRecord) : Bool :=
  fail.retryability = .RETRYABLE || fail.retryability = .CONDITIONALLY_RETRYABLE

end FailureRecord

namespace RecoveryPlan

/-- `reject`. -/
def reject (p : RecoveryPlan) (a : RecoveryAction) (why : String) : RecoveryPlan :=
  { p with
    rejectedAlternatives := p.rejectedAlternatives ++ [a]
    rejectionReasons := p.rejectionReasons ++ [why] }

/-- `p.preconditions.push_back(what)`. -/
def require (p : RecoveryPlan) (what : String) : RecoveryPlan :=
  { p with preconditions := p.preconditions ++ [what] }

/-- A rejection leaves the selected action. -/
@[simp] theorem reject_action (p : RecoveryPlan) (a : RecoveryAction) (why : String) :
    (p.reject a why).action = p.action := rfl

/-- So does a requirement. -/
@[simp] theorem require_action (p : RecoveryPlan) (what : String) :
    (p.require what).action = p.action := rfl

end RecoveryPlan

section Plan

variable (fail : FailureRecord) (input : PlanInput)

/-- The plan before the first section, with the bytes drawn for its identity. -/
def startPlan (drawn : Uuid128) : RecoveryPlan where
  operation := fail.operation
  authority := fail.authority
  generation := fail.authority.recoveryGeneration.next
  planId := ⟨Uuid128.generate drawn⟩
  owner := if fail.recoveryOwner = .NONE then .COORDINATOR else fail.recoveryOwner
  reasonFactors :=
    ["failure_class=" ++ fail.failureClass.name,
     "completion=" ++ fail.completion.name,
     "side_effects=" ++ fail.sideEffectState.name,
     "attempts=" ++ toString input.attemptCount.toNat ++ "/" ++ toString input.maxAttempts.toNat,
     "idempotent=" ++ if input.idempotentRetryPossible then "true" else "false"]

/-- 1. Device and worker losses drive a restart. -/
def planLost (p : RecoveryPlan) : RecoveryPlan :=
  let p :=
    if fail.failureClass = .LOST_DEVICE && input.deviceHealthy then
      { p with action := .RESTART_DEVICE_CONTEXT }
        |>.require "device healthy; reinit context"
        |>.reject .RETRY "device identity lost, retry in-place unsafe"
    else if input.workerHealthy then
      { p with action := .RESTART_WORKER }
        |>.require "worker restart with fresh WorkerBootId"
        |>.reject .COMPENSATE "restart recovers state without compensation"
    else
      { p with action := .FAILOVER_REPLICA }
        |>.require "replica available"
  { p with
    expectedPreserved := "authority fenced to fresh boot; original worker state discarded"
    expectedDiscarded := "stale worker boot authority" }

/-- 2. Ambiguous completion: side effects may already have happened. -/
def planAmbiguous (p : RecoveryPlan) : RecoveryPlan :=
  if input.idempotentRetryPossible && !input.exhausted then
    { p with
      action := .RETRY
      expectedPreserved := "prior result metadata preserved; no duplicate side effect"
      expectedDiscarded := "unknown-side-effect uncertainty" }
      |>.require "idempotency key valid; retry same key is deduplicated"
      |>.reject .ROLLBACK "idempotent retry cannot double-apply; rollback unnecessary"
      |>.reject .COMPENSATE "idempotent retry restores correctness directly"
  else if input.rollbackPossible then
    { p with action := .ROLLBACK, expectedPreserved := "state reverted to pre-operation" }
      |>.require "side effects may have occurred; rollback first"
      |>.reject .RETRY "not idempotent-safe; retry would double-apply"
  else if input.compensationPossible then
    { p with action := .COMPENSATE, expectedPreserved := "logical equilibrium restored" }
      |>.require "side effect escaped; compensate logically"
  else
    { p with action := .MANUAL_RESOLUTION, expectedDiscarded := "uncertain" }
      |>.require "operator/external resolution required"

/-- 3. Known side effects that already occurred and would be applied again. -/
def planOccurred (p : RecoveryPlan) : RecoveryPlan :=
  if input.rollbackPossible then
    { p with action := .ROLLBACK }
      |>.require "known side effect; rollback then recover"
      |>.reject .RETRY "would re-apply side effect"
  else if input.compensationPossible then { p with action := .COMPENSATE }
  else { p with action := .ESCALATE }

/-- 4. Retryable classes with bounded retry. -/
def planRetryable (p : RecoveryPlan) : RecoveryPlan :=
  let p :=
    if !input.dependencyReady then
      { p with action := .RETRY }
        |>.require "dependency not ready; retry after dependency"
    else if !input.workerHealthy then
      { p with action := .RETRY_ELSEWHERE }
        |>.require "worker unhealthy; retry on another worker"
    else if input.deadlineExceeded then
      { p with action := .ESCALATE }
        |>.require "deadline exceeded; escalate"
    else
      { p with action := .RETRY }
        |>.require "transient; retry under fresh attempt"
  { p with
    expectedPreserved := "previous partial state if any"
    expectedDiscarded := "failed attempt authority" }

/-- 5. Non-retryable, or terminal after side effects. -/
def planTerminal (p : RecoveryPlan) : RecoveryPlan :=
  if fail.sideEffectState ≠ .NONE_POSSIBLE && fail.sideEffectState ≠ .KNOWN_NOT_OCCURRED &&
      input.rollbackPossible then
    { p with action := .ROLLBACK }
      |>.require "terminal failure with side effects; rollback required"
  else
    let p :=
      if input.externallyCommitted then
        { p with action := .RECOMPUTE }
          |>.require "externally committed; recompute canonical result"
      else if fail.failureClass = .RESOURCE_EXHAUSTION && !input.workerHealthy then
        { p with action := .FAILOVER_REPLICA }
      else if fail.failureClass = .RESOURCE_EXHAUSTION && input.workerHealthy then
        { p with action := .RETRY_ELSEWHERE }
          |>.require "resource exhaustion; retry on healthy worker"
      else
        { p with action := .ABANDON }
          |>.require "terminal/non-retryable; abandon after cleanup"
          |>.reject .RETRY "policy exhausted or non-retryable"
    { p with expectedDiscarded := "operation marked terminal" }

/-- `RecoveryPlanner::plan`. -/
def plan (drawn : Uuid128) : RecoveryPlan :=
  let p := startPlan fail input drawn
  if fail.lost then planLost fail input p
  else if fail.ambiguous then planAmbiguous input p
  else if fail.mayOrDidEffect &&
      (fail.sideEffectState = .KNOWN_OCCURRED && !input.idempotentRetryPossible) then
    planOccurred input p
  else if fail.retryable && !input.exhausted && input.idempotentRetryPossible then
    planRetryable input p
  else if !fail.retryable || input.exhausted then planTerminal fail input p
  else { p with action := .ESCALATE }.require "unclassified failure; escalate"

end Plan

/-! ### The case analysis -/

section Cases

variable (fail : FailureRecord) (input : PlanInput)

/-- A side effect is known to have occurred, and executing again would apply it again. -/
def Reapplies : Prop :=
  fail.sideEffectState = .KNOWN_OCCURRED ∧ input.idempotentRetryPossible = false

/-- The fourth section runs, unless an earlier one does. -/
def WithinRetries : Prop :=
  fail.retryable = true ∧ input.exhausted = false ∧ input.idempotentRetryPossible = true

/-- The fifth section runs, unless an earlier one does. -/
def PastRetries : Prop := fail.retryable = false ∨ input.exhausted = true

variable {fail input}

/-- The test of the third section, where the second conjunct implies the first. -/
theorem reapplies_iff :
    (fail.mayOrDidEffect && (fail.sideEffectState = .KNOWN_OCCURRED &&
      !input.idempotentRetryPossible)) = true ↔ Reapplies fail input := by
  unfold FailureRecord.mayOrDidEffect Reapplies
  cases fail.sideEffectState <;> simp

/-- The test of the fourth section. -/
theorem withinRetries_iff :
    (fail.retryable && !input.exhausted && input.idempotentRetryPossible) = true ↔
      WithinRetries fail input := by
  simp [WithinRetries, and_assoc]

/-- The test of the fifth section. -/
theorem pastRetries_iff :
    (!fail.retryable || input.exhausted) = true ↔ PastRetries fail input := by
  simp [PastRetries]

/-- The two exclude each other. -/
theorem WithinRetries.not_past (h : WithinRetries fail input) : ¬ PastRetries fail input := by
  obtain ⟨hretryable, hexhausted, -⟩ := h
  simp [PastRetries, hretryable, hexhausted]

/-- **Case analysis.** What every section makes of the start, under the conditions on which it
    runs, the plan is. -/
theorem plan_cases {P : RecoveryPlan → Prop} (drawn : Uuid128)
    (lost : fail.lost = true → P (planLost fail input (startPlan fail input drawn)))
    (ambiguous : fail.lost = false → fail.ambiguous = true →
      P (planAmbiguous input (startPlan fail input drawn)))
    (occurred : fail.lost = false → fail.ambiguous = false → Reapplies fail input →
      P (planOccurred input (startPlan fail input drawn)))
    (retryable : fail.lost = false → fail.ambiguous = false → ¬ Reapplies fail input →
      WithinRetries fail input → P (planRetryable input (startPlan fail input drawn)))
    (terminal : fail.lost = false → fail.ambiguous = false → ¬ Reapplies fail input →
      PastRetries fail input → P (planTerminal fail input (startPlan fail input drawn)))
    (unclassified : fail.lost = false → fail.ambiguous = false → ¬ Reapplies fail input →
      ¬ WithinRetries fail input → ¬ PastRetries fail input →
      P ({ startPlan fail input drawn with action := .ESCALATE }.require
        "unclassified failure; escalate")) :
    P (plan fail input drawn) := by
  unfold plan
  dsimp only
  cases hlost : fail.lost with
  | true => exact lost hlost
  | false =>
    cases hambiguous : fail.ambiguous with
    | true => exact ambiguous hlost hambiguous
    | false =>
      rw [if_neg Bool.false_ne_true, if_neg Bool.false_ne_true]
      split_ifs with hoccurred hwithin hpast
      · exact occurred hlost hambiguous (reapplies_iff.mp hoccurred)
      · exact retryable hlost hambiguous (mt reapplies_iff.mpr hoccurred)
          (withinRetries_iff.mp hwithin)
      · exact terminal hlost hambiguous (mt reapplies_iff.mpr hoccurred)
          (pastRetries_iff.mp hpast)
      · exact unclassified hlost hambiguous (mt reapplies_iff.mpr hoccurred)
          (mt withinRetries_iff.mpr hwithin) (mt pastRetries_iff.mpr hpast)

end Cases

/-! ### Coherence -/

/-- What an action needs of the record and of the surroundings. -/
def RecoveryAction.Feasible (fail : FailureRecord) (input : PlanInput) : RecoveryAction → Prop
  | ROLLBACK => input.rollbackPossible = true
  | COMPENSATE => input.compensationPossible = true
  | RESTART_DEVICE_CONTEXT => fail.failureClass = .LOST_DEVICE ∧ input.deviceHealthy = true
  | RESTART_WORKER =>
    (fail.failureClass = .LOST_WORKER ∨ fail.failureClass = .LOST_DEVICE) ∧
      input.workerHealthy = true
  | RECOMPUTE => input.externallyCommitted = true
  | MANUAL_RESOLUTION =>
    (fail.completion = .AMBIGUOUS ∨ fail.completion = .UNKNOWN_OUTCOME) ∧
      input.rollbackPossible = false ∧ input.compensationPossible = false ∧
      ¬ (input.idempotentRetryPossible = true ∧ input.attemptCount < input.maxAttempts)
  | _ => True

/-- A plan that can be followed and that says of every alternative why it is rejected. -/
structure RecoveryPlan.Coherent (p : RecoveryPlan) (fail : FailureRecord) (input : PlanInput) :
    Prop where
  feasible : p.action.Feasible fail input
  owner_ne : p.owner ≠ .NONE
  reasons_length : p.rejectedAlternatives.length = p.rejectionReasons.length
  action_notMem : p.action ∉ p.rejectedAlternatives

/-- A plan that has an owner and has rejected nothing yet. -/
structure RecoveryPlan.Blank (p : RecoveryPlan) : Prop where
  owner_ne : p.owner ≠ .NONE
  rejected : p.rejectedAlternatives = []
  reasons : p.rejectionReasons = []

section Coherence

variable {fail : FailureRecord} {input : PlanInput} {p : RecoveryPlan}

/-! A section selects a feasible action on a blank plan, requires what it requires, and rejects
other actions than the selected one. -/

namespace RecoveryPlan

/-- A blank plan rejects nothing, so that only its action counts. -/
theorem Blank.coherent (hp : p.Blank) (ha : p.action.Feasible fail input) :
    p.Coherent fail input where
  feasible := ha
  owner_ne := hp.owner_ne
  reasons_length := by rw [hp.rejected, hp.reasons]; rfl
  action_notMem := by rw [hp.rejected]; exact List.not_mem_nil

/-- Selecting an action leaves a plan blank. -/
theorem Blank.select (hp : p.Blank) (a : RecoveryAction) (preserved discarded : String) :
    Blank { p with
      action := a, expectedPreserved := preserved, expectedDiscarded := discarded } :=
  ⟨hp.owner_ne, hp.rejected, hp.reasons⟩

/-- A requirement keeps a plan coherent. -/
theorem Coherent.require (h : p.Coherent fail input) (what : String) :
    (p.require what).Coherent fail input :=
  ⟨h.feasible, h.owner_ne, h.reasons_length, h.action_notMem⟩

/-- So does the rejection, with its reason, of another action than the selected one. -/
theorem Coherent.reject (h : p.Coherent fail input) {a : RecoveryAction} (ha : p.action ≠ a)
    (why : String) : (p.reject a why).Coherent fail input where
  feasible := h.feasible
  owner_ne := h.owner_ne
  reasons_length := by
    show (p.rejectedAlternatives ++ [a]).length = (p.rejectionReasons ++ [why]).length
    rw [List.length_append, List.length_append, h.reasons_length]
    rfl
  action_notMem := by
    show p.action ∉ p.rejectedAlternatives ++ [a]
    rw [List.mem_append, List.mem_singleton]
    rintro (hmem | heq)
    · exact h.action_notMem hmem
    · exact ha heq

/-- So do the expectations. -/
theorem Coherent.expect (h : p.Coherent fail input) (preserved discarded : String) :
    Coherent { p with expectedPreserved := preserved, expectedDiscarded := discarded }
      fail input :=
  ⟨h.feasible, h.owner_ne, h.reasons_length, h.action_notMem⟩

end RecoveryPlan

/-- Planning starts blank: `NONE` is replaced as the owner. -/
theorem blank_startPlan (drawn : Uuid128) : (startPlan fail input drawn).Blank := by
  refine ⟨?_, rfl, rfl⟩
  show (if fail.recoveryOwner = .NONE then RecoveryOwner.COORDINATOR else fail.recoveryOwner) ≠ _
  split_ifs with h
  · decide
  · exact h

/-- The plan for lost work is coherent. -/
theorem planLost_coherent (hlost : fail.lost = true) (hp : p.Blank) :
    (planLost fail input p).Coherent fail input := by
  have hclass : fail.failureClass = .LOST_WORKER ∨ fail.failureClass = .LOST_DEVICE := by
    simpa [FailureRecord.lost, or_comm] using hlost
  unfold planLost
  refine RecoveryPlan.Coherent.expect ?_ _ _
  split_ifs with hdevice hworker
  · have hneeds : fail.failureClass = .LOST_DEVICE ∧ input.deviceHealthy = true := by
      simpa using hdevice
    exact (((hp.select .RESTART_DEVICE_CONTEXT _ _).coherent hneeds).require _).reject
      (by simp) _
  · exact (((hp.select .RESTART_WORKER _ _).coherent ⟨hclass, hworker⟩).require _).reject
      (by simp) _
  · exact ((hp.select .FAILOVER_REPLICA _ _).coherent trivial).require _

/-- So is the one for ambiguous work. -/
theorem planAmbiguous_coherent (hambiguous : fail.ambiguous = true) (hp : p.Blank) :
    (planAmbiguous input p).Coherent fail input := by
  unfold planAmbiguous
  split_ifs with hretry hrollback hcompensate
  · exact ((((hp.select .RETRY _ _).coherent trivial).require _).reject (by simp) _).reject
      (by simp) _
  · exact (((hp.select .ROLLBACK _ _).coherent hrollback).require _).reject (by simp) _
  · exact ((hp.select .COMPENSATE _ _).coherent hcompensate).require _
  · have hcompletion : fail.completion = .AMBIGUOUS ∨ fail.completion = .UNKNOWN_OUTCOME := by
      simpa [FailureRecord.ambiguous] using hambiguous
    have hnoRetry :
        ¬ (input.idempotentRetryPossible = true ∧ input.attemptCount < input.maxAttempts) := by
      rintro ⟨hidem, hbound⟩
      exact hretry (by simp [PlanInput.exhausted, hidem, hbound])
    have hneeds := And.intro hcompletion (And.intro (Bool.eq_false_iff.mpr hrollback)
      (And.intro (Bool.eq_false_iff.mpr hcompensate) hnoRetry))
    exact ((hp.select .MANUAL_RESOLUTION _ _).coherent hneeds).require _

/-- So is the one for an effect that has occurred. -/
theorem planOccurred_coherent (hp : p.Blank) : (planOccurred input p).Coherent fail input := by
  unfold planOccurred
  split_ifs with hrollback hcompensate
  · exact (((hp.select .ROLLBACK _ _).coherent hrollback).require _).reject (by simp) _
  · exact (hp.select .COMPENSATE _ _).coherent hcompensate
  · exact (hp.select .ESCALATE _ _).coherent trivial

/-- So is the one for work that may be retried. -/
theorem planRetryable_coherent (hp : p.Blank) : (planRetryable input p).Coherent fail input := by
  unfold planRetryable
  refine RecoveryPlan.Coherent.expect ?_ _ _
  split_ifs
  · exact ((hp.select .RETRY _ _).coherent trivial).require _
  · exact ((hp.select .RETRY_ELSEWHERE _ _).coherent trivial).require _
  · exact ((hp.select .ESCALATE _ _).coherent trivial).require _
  · exact ((hp.select .RETRY _ _).coherent trivial).require _

/-- So is the one for a terminal failure. -/
theorem planTerminal_coherent (hp : p.Blank) :
    (planTerminal fail input p).Coherent fail input := by
  unfold planTerminal
  split
  case isTrue hrollback =>
    have hneeds : input.rollbackPossible = true := by
      rw [Bool.and_eq_true] at hrollback
      exact hrollback.2
    exact ((hp.select .ROLLBACK _ _).coherent hneeds).require _
  case isFalse =>
    refine RecoveryPlan.Coherent.expect ?_ _ _
    split_ifs with hcommitted
    · exact ((hp.select .RECOMPUTE _ _).coherent hcommitted).require _
    · exact (hp.select .FAILOVER_REPLICA _ _).coherent trivial
    · exact ((hp.select .RETRY_ELSEWHERE _ _).coherent trivial).require _
    · exact (((hp.select .ABANDON _ _).coherent trivial).require _).reject (by simp) _

end Coherence

/-- **Every plan is feasible and coherent.** -/
theorem plan_coherent (fail : FailureRecord) (input : PlanInput) (drawn : Uuid128) :
    (plan fail input drawn).Coherent fail input := by
  have hstart : (startPlan fail input drawn).Blank := blank_startPlan drawn
  refine plan_cases (P := fun p => p.Coherent fail input) drawn ?_ ?_ ?_ ?_ ?_ ?_
  · exact fun hlost => planLost_coherent hlost hstart
  · exact fun _ hambiguous => planAmbiguous_coherent hambiguous hstart
  · exact fun _ _ _ => planOccurred_coherent hstart
  · exact fun _ _ _ _ => planRetryable_coherent hstart
  · exact fun _ _ _ _ => planTerminal_coherent hstart
  · exact fun _ _ _ _ _ => ((hstart.select .ESCALATE _ _).coherent trivial).require _

/-! ### Executing again -/

/-- The action executes the operation again. -/
def RecoveryAction.reexecutes : RecoveryAction → Bool
  | RETRY | RETRY_ELSEWHERE => true
  | _ => false

section Reexecutes

variable (fail : FailureRecord) (input : PlanInput)

/-- The fifth section undoes side effects first, where they are possible and can be undone. -/
def RollsBackTerminal : Prop :=
  fail.sideEffectState ≠ .NONE_POSSIBLE ∧ fail.sideEffectState ≠ .KNOWN_NOT_OCCURRED ∧
    input.rollbackPossible = true

/-- The way out of the fifth section that executes again. -/
def RetriesTerminal : Prop :=
  ¬ RollsBackTerminal fail input ∧ input.externallyCommitted = false ∧
    fail.failureClass = .RESOURCE_EXHAUSTION ∧ input.workerHealthy = true

variable {fail input}

/-- Lost work is never executed again by the plan. -/
theorem planLost_reexecutes (p : RecoveryPlan) :
    (planLost fail input p).action.reexecutes = false := by
  unfold planLost
  dsimp only
  split_ifs <;> rfl

/-- Ambiguous work is, as long as an idempotent retry is possible and retries are left. -/
theorem planAmbiguous_reexecutes_iff (p : RecoveryPlan) :
    (planAmbiguous input p).action.reexecutes = true ↔
      input.idempotentRetryPossible = true ∧ input.exhausted = false := by
  unfold planAmbiguous
  split_ifs <;> simp_all [RecoveryAction.reexecutes]

/-- Work whose effect has occurred is not. -/
theorem planOccurred_reexecutes (p : RecoveryPlan) :
    (planOccurred input p).action.reexecutes = false := by
  unfold planOccurred
  split_ifs <;> rfl

/-- Retryable work is, unless everything is ready and only the deadline is over. -/
theorem planRetryable_reexecutes_iff (p : RecoveryPlan) :
    (planRetryable input p).action.reexecutes = true ↔
      input.dependencyReady = false ∨ input.workerHealthy = false ∨
        input.deadlineExceeded = false := by
  unfold planRetryable
  dsimp only
  split_ifs <;> simp_all [RecoveryAction.reexecutes]

/-- The fifth section does so elsewhere, when a resource was exhausted. -/
theorem planTerminal_reexecutes_iff (p : RecoveryPlan) :
    (planTerminal fail input p).action.reexecutes = true ↔ RetriesTerminal fail input := by
  unfold planTerminal RetriesTerminal RollsBackTerminal
  dsimp only
  split_ifs <;> simp_all [RecoveryAction.reexecutes]

/-- It gives the work up where none of its tests applies. -/
theorem planTerminal_abandons_iff (p : RecoveryPlan) :
    (planTerminal fail input p).action = .ABANDON ↔
      ¬ RollsBackTerminal fail input ∧ input.externallyCommitted = false ∧
        fail.failureClass ≠ .RESOURCE_EXHAUSTION := by
  unfold planTerminal RollsBackTerminal
  dsimp only
  split_ifs <;> simp_all

/-- **When the operation is executed again.** -/
theorem plan_reexecutes_iff (drawn : Uuid128) :
    (plan fail input drawn).action.reexecutes = true ↔
      fail.lost = false ∧
        (fail.ambiguous = true ∧ input.idempotentRetryPossible = true ∧
            input.exhausted = false ∨
          fail.ambiguous = false ∧ ¬ Reapplies fail input ∧
            (WithinRetries fail input ∧
                (input.dependencyReady = false ∨ input.workerHealthy = false ∨
                  input.deadlineExceeded = false) ∨
              PastRetries fail input ∧ RetriesTerminal fail input)) := by
  refine plan_cases (P := fun p => p.action.reexecutes = true ↔ _) drawn ?_ ?_ ?_ ?_ ?_ ?_
  · intro hlost
    simp [planLost_reexecutes, hlost]
  · intro hlost hambiguous
    simp [planAmbiguous_reexecutes_iff, hlost, hambiguous]
  · intro hlost hambiguous hreapplies
    simp [planOccurred_reexecutes, hlost, hambiguous, hreapplies]
  · intro hlost hambiguous hreapplies hwithin
    simp [planRetryable_reexecutes_iff, hlost, hambiguous, hreapplies, hwithin, hwithin.not_past]
  · intro hlost hambiguous hreapplies hpast
    have hnotWithin : ¬ WithinRetries fail input := fun h => h.not_past hpast
    simp [planTerminal_reexecutes_iff, hlost, hambiguous, hreapplies, hpast, hnotWithin]
  · intro hlost hambiguous hreapplies hwithin hpast
    simp [RecoveryAction.reexecutes, hlost, hambiguous, hreapplies, hwithin, hpast]

/-- **When the operation is given up.** In the fifth section only. -/
theorem plan_abandons_iff (drawn : Uuid128) :
    (plan fail input drawn).action = .ABANDON ↔
      fail.lost = false ∧ fail.ambiguous = false ∧ ¬ Reapplies fail input ∧
        PastRetries fail input ∧ ¬ RollsBackTerminal fail input ∧
        input.externallyCommitted = false ∧ fail.failureClass ≠ .RESOURCE_EXHAUSTION := by
  refine plan_cases (P := fun p => p.action = .ABANDON ↔ _) drawn ?_ ?_ ?_ ?_ ?_ ?_
  · intro hlost
    refine iff_of_false ?_ (by simp [hlost])
    unfold planLost
    dsimp only
    split_ifs <;> simp
  · intro hlost hambiguous
    refine iff_of_false ?_ (by simp [hambiguous])
    unfold planAmbiguous
    split_ifs <;> simp
  · intro hlost hambiguous hreapplies
    refine iff_of_false ?_ (by simp [hreapplies])
    unfold planOccurred
    split_ifs <;> simp
  · intro hlost hambiguous hreapplies hwithin
    refine iff_of_false ?_ (by simp [hwithin.not_past])
    unfold planRetryable
    dsimp only
    split_ifs <;> simp
  · intro hlost hambiguous hreapplies hpast
    rw [planTerminal_abandons_iff]
    simp [hlost, hambiguous, hreapplies, hpast]
  · intro hlost hambiguous hreapplies hwithin hpast
    exact iff_of_false (by simp) (by simp [hpast])

end Reexecutes

end FailureFabric
