import FailureFabric.Retry
import FailureFabric.Planner

namespace FailureFabric

/-!
# The planner and the classifier

Two decision procedures look at the same failure, in different orders.  For the records that
neither of them may retry against its own rules, `classify_of_plan` says what the classifier
answers wherever the planner executes the operation again: it does so too, unless it is stricter.

* `InputsAgree` — the two inputs describe the same surroundings;
* `ClassifierStricter` — what the classifier waits for, or undoes first, where the planner only
  notes a precondition;
* `dependency_waited_for`, `uncertain_rolled_back`, `deadline_kept` — the three ways in which the
  two decisions contradict each other: a dependency is not ready, side effects may have occurred,
  or the deadline is exceeded.
-/

/-- The inputs agree on what they have in common. -/
structure InputsAgree (planInput : PlanInput) (input : RetryInput) : Prop where
  attemptCount : planInput.attemptCount = input.attemptCount
  workerHealthy : planInput.workerHealthy = input.workerHealthy
  deviceHealthy : planInput.deviceHealthy = input.deviceHealthy
  dependencyReady : planInput.dependencyReady = input.dependencyReady
  deadlineExceeded : planInput.deadlineExceeded = input.deadlineExceeded
  idempotent : planInput.idempotentRetryPossible = input.idempotentRetryPossible

/-- The default policy with the bound of the planner's input. -/
def PlanInput.policy (planInput : PlanInput) : RetryPolicy :=
  { maxAttempts := planInput.maxAttempts }

/-- After a completion that is not ambiguous the classifier rolls back side effects that may have
    occurred, keeps a deadline also for a worker that has to be replaced, and waits for a
    dependency of a healthy worker. -/
def ClassifierStricter (fail : FailureRecord) (input : RetryInput) : Prop :=
  (fail.completion = .KNOWN ∨ fail.completion = .PARTIAL) ∧
    (fail.mayEffect = true ∨ input.deadlineExceeded = true ∨
      input.dependencyReady = false ∧ input.workerHealthy = true)

section Agreement

variable {fail : FailureRecord} {planInput : PlanInput} {input : RetryInput} {drawn : Uuid128}

/-- A retryability that the planner accepts, the classifier accepts. -/
theorem effRetryable_of_retryable (h : fail.retryable = true) : fail.effRetryable = true := by
  have hcases : fail.retryability = .RETRYABLE ∨
      fail.retryability = .CONDITIONALLY_RETRYABLE := by
    simpa [FailureRecord.retryable] using h
  unfold FailureRecord.effRetryable effRetryability
  obtain h | h := hcases <;> rw [h] <;> rfl

/-- An exhausted resource is retryable unless the record says otherwise. -/
theorem effRetryable_of_resourceExhaustion (hclass : fail.failureClass = .RESOURCE_EXHAUSTION)
    (hne : fail.retryability ≠ .NON_RETRYABLE) : fail.effRetryable = true := by
  unfold FailureRecord.effRetryable effRetryability
  rw [hclass]
  cases hretry : fail.retryability with
  | RETRYABLE | CONDITIONALLY_RETRYABLE | UNKNOWN => rfl
  | NON_RETRYABLE => exact absurd hretry hne

/-- Where the planner executes again, a record that is not marked otherwise is retryable for the
    classifier, and a side effect that occurred is applied again by idempotent operations only. -/
theorem known_of_plan_reexecutes (hagree : InputsAgree planInput input)
    (hretryability : fail.retryability ≠ .NON_RETRYABLE) (hknown : fail.ambiguous = false)
    (hplan : (plan fail planInput drawn).action.reexecutes = true) :
    fail.effRetryable = true ∧
      (fail.sideEffectState = .KNOWN_OCCURRED → input.idempotentRetryPossible = true) := by
  obtain ⟨-, ⟨hambiguous, -⟩ | ⟨-, hreapplies, hways⟩⟩ := (plan_reexecutes_iff drawn).mp hplan
  · exact absurd (hknown.symm.trans hambiguous) Bool.false_ne_true
  · refine ⟨?_, fun hoccurred => ?_⟩
    · obtain ⟨⟨hretryable, -⟩, -⟩ | ⟨-, -, -, hclass, -⟩ := hways
      · exact effRetryable_of_retryable hretryable
      · exact effRetryable_of_resourceExhaustion hclass hretryability
    · rw [← hagree.idempotent, ← Bool.not_eq_false]
      exact fun hidem => hreapplies ⟨hoccurred, hidem⟩

/-- What the stricter tests of the classifier answer. -/
theorem classifyKnown_of_stricter (hretryable : fail.effRetryable = true)
    (hstricter : fail.mayEffect = true ∨ input.deadlineExceeded = true ∨
      input.dependencyReady = false ∧ input.workerHealthy = true)
    (hoccurred : fail.sideEffectState = .KNOWN_OCCURRED → input.idempotentRetryPossible = true)
    (d : RetryDecision) :
    (classifyKnown fail input planInput.policy d).verdict =
      if fail.mayEffect then .ROLLBACK_FIRST else .DO_NOT_RETRY := by
  have hdisallowed : planInput.policy.allowRetryUnknownSideEffects = false := rfl
  unfold classifyKnown
  rw [hdisallowed, hretryable]
  cases hmay : fail.mayEffect with
  | true => split_ifs <;> simp_all
  | false => split_ifs <;> simp_all

/-- Where none of the stricter tests applies the classifier executes again. -/
theorem knownRetry_of_not_stricter (hretryable : fail.effRetryable = true)
    (hfree : ¬ (fail.mayEffect = true ∨ input.deadlineExceeded = true ∨
      input.dependencyReady = false ∧ input.workerHealthy = true))
    (hoccurred : fail.sideEffectState = .KNOWN_OCCURRED →
      input.idempotentRetryPossible = true) :
    KnownRetry fail input planInput.policy where
  occurred := hoccurred
  may hmay := absurd (.inl hmay) hfree
  retryable := hretryable
  deadline := Bool.eq_false_iff.mpr (fun h => hfree (.inr (.inl h)))
  place := by
    cases hhealthy : input.workerHealthy with
    | false => exact .inl ⟨rfl, rfl⟩
    | true =>
      cases hready : input.dependencyReady with
      | false => exact absurd (.inr (.inr ⟨hready, hhealthy⟩)) hfree
      | true => exact .inr rfl

/-- After an ambiguous completion the planner executes again idempotent operations only. -/
theorem idempotent_of_plan_reexecutes (hagree : InputsAgree planInput input)
    (hambiguous : fail.ambiguous = true)
    (hplan : (plan fail planInput drawn).action.reexecutes = true) :
    input.idempotentRetryPossible = true := by
  obtain ⟨-, ⟨-, hidem, -⟩ | ⟨hknown, -⟩⟩ := (plan_reexecutes_iff drawn).mp hplan
  · rw [← hagree.idempotent]
    exact hidem
  · exact absurd (hknown.symm.trans hambiguous) Bool.false_ne_true

/-- **The classifier follows the planner, or is stricter.** Within the bound, for a class that
    may be retried and a record that is not marked as non-retryable after a known completion. -/
theorem classify_of_plan (hagree : InputsAgree planInput input)
    (hbound : planInput.attemptCount < planInput.maxAttempts)
    (hclass : fail.failureClass.neverRetried = false)
    (hretryability : fail.retryability = .NON_RETRYABLE →
      fail.completion = .AMBIGUOUS ∨ fail.completion = .UNKNOWN_OUTCOME)
    (hplan : (plan fail planInput drawn).action.reexecutes = true) :
    (¬ ClassifierStricter fail input →
        (classify fail input planInput.policy).verdict.reexecutes = true) ∧
      (ClassifierStricter fail input →
        (classify fail input planInput.policy).verdict =
          if fail.mayEffect then .ROLLBACK_FIRST else .DO_NOT_RETRY) := by
  have hbound' : input.attemptCount < planInput.policy.maxAttempts := by
    rw [← hagree.attemptCount]
    exact hbound
  cases hambiguous : fail.ambiguous with
  | true =>
    -- both go by idempotency alone
    have hidem := idempotent_of_plan_reexecutes hagree hambiguous hplan
    constructor
    · intro _
      exact (classify_reexecutes_iff ..).mpr ⟨hbound', hclass, .inl ⟨hambiguous, hidem⟩⟩
    · intro hstricter
      have hknown := fail.ambiguous_eq_false_iff.mpr hstricter.1
      exact absurd (hknown.symm.trans hambiguous) Bool.false_ne_true
  | false =>
    have hknown := fail.ambiguous_eq_false_iff.mp hambiguous
    have hne : fail.retryability ≠ .NON_RETRYABLE := fun hnon => by
      rw [← fail.ambiguous_iff, hambiguous] at hretryability
      exact absurd (hretryability hnon) Bool.false_ne_true
    obtain ⟨hretryable, hoccurred⟩ := known_of_plan_reexecutes hagree hne hambiguous hplan
    constructor
    · intro hnot
      have hfree := fun hstricter => hnot ⟨hknown, hstricter⟩
      exact (classify_reexecutes_iff ..).mpr ⟨hbound', hclass, .inr ⟨hambiguous,
        knownRetry_of_not_stricter hretryable hfree hoccurred⟩⟩
    · intro hstricter
      obtain ⟨d, hd⟩ := classify_eq_known fail input planInput.policy hbound' hclass hambiguous
      rw [hd]
      exact classifyKnown_of_stricter hretryable hstricter.2 hoccurred d

end Agreement

/-- A transient failure without side effects. -/
def transientFailure : FailureRecord :=
  { failureClass := .TRANSIENT, retryability := .RETRYABLE, completion := .KNOWN,
    sideEffectState := .NONE_POSSIBLE }

/-- The surroundings of an idempotent operation with a dependency that is not ready, as the
    planner sees them. -/
def waitingPlan : PlanInput := { idempotentRetryPossible := true, dependencyReady := false }

/-- The same surroundings, as the classifier sees them. -/
def waitingRetry : RetryInput := { idempotentRetryPossible := true, dependencyReady := false }

/-- Of a transient failure with a dependency that is not ready, the planner selects the retry and
    the classifier waits. -/
theorem classify_of_plan_transient :
    (¬ ClassifierStricter transientFailure waitingRetry →
        (classify transientFailure waitingRetry waitingPlan.policy).verdict.reexecutes = true) ∧
      (ClassifierStricter transientFailure waitingRetry →
        (classify transientFailure waitingRetry waitingPlan.policy).verdict =
          if transientFailure.mayEffect then .ROLLBACK_FIRST else .DO_NOT_RETRY) := by
  have hagree : InputsAgree waitingPlan waitingRetry := ⟨rfl, rfl, rfl, rfl, rfl, rfl⟩
  have hplan : (plan transientFailure waitingPlan .zero).action.reexecutes = true := by decide
  exact classify_of_plan hagree (by decide) (by decide) (by decide) hplan

/-- The two decisions contradict each other while a dependency is not ready. -/
theorem dependency_waited_for :
    ¬ ∀ (fail : FailureRecord) (planInput : PlanInput) (input : RetryInput) (drawn : Uuid128),
      InputsAgree planInput input → (plan fail planInput drawn).action.reexecutes = true →
        (classify fail input planInput.policy).verdict.reexecutes = true := by
  intro hagrees
  have hretried := hagrees transientFailure waitingPlan waitingRetry .zero
    ⟨rfl, rfl, rfl, rfl, rfl, rfl⟩ (by decide)
  exact absurd hretried (by decide)

/-- The same failure, where side effects may have occurred. -/
def uncertainFailure : FailureRecord := { transientFailure with sideEffectState := .MAY_OCCURRED }

/-- Where side effects may have occurred, the planner retries an idempotent operation, and the
    classifier rolls it back first. -/
theorem uncertain_rolled_back :
    let planInput : PlanInput := { idempotentRetryPossible := true }
    let input : RetryInput := { idempotentRetryPossible := true }
    InputsAgree planInput input ∧
      (plan uncertainFailure planInput .zero).action.reexecutes = true ∧
      (classify uncertainFailure input planInput.policy).verdict = .ROLLBACK_FIRST :=
  ⟨⟨rfl, rfl, rfl, rfl, rfl, rfl⟩, by decide, by decide⟩

/-- Past the deadline the planner retries with another worker if the worker is not healthy, and the
    classifier does not. -/
theorem deadline_kept :
    let planInput : PlanInput :=
      { idempotentRetryPossible := true, deadlineExceeded := true, workerHealthy := false }
    let input : RetryInput :=
      { idempotentRetryPossible := true, deadlineExceeded := true, workerHealthy := false }
    InputsAgree planInput input ∧
      (plan transientFailure planInput .zero).action.reexecutes = true ∧
      (classify transientFailure input planInput.policy).verdict = .DO_NOT_RETRY :=
  ⟨⟨rfl, rfl, rfl, rfl, rfl, rfl⟩, by decide, by decide⟩

end FailureFabric
