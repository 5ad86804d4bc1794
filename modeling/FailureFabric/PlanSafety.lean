import FailureFabric.Planner

namespace FailureFabric

/-!
# What the planner promises

Two laws that every section of the planner but the fifth keeps, and when the fifth breaks them.

* `reexecutesSafely_iff` — a failed operation is executed again within the bound only, and only
  where it can do no harm.  The fifth section, for exhausted and for non-retryable failures, has a
  way out that executes again after all.
* `undoesEffects_iff` — side effects that can be undone are not abandoned.  The fifth section
  considers the rollback but not the compensation.
-/

variable (fail : FailureRecord) (input : PlanInput) (drawn : Uuid128)

/-! ### Executing again safely -/

/-- A plan that executes again keeps the bound, and the operation is idempotent or has
    demonstrably done nothing. -/
def ReexecutesSafely : Prop :=
  (plan fail input drawn).action.reexecutes = true →
    input.attemptCount < input.maxAttempts ∧
      (input.idempotentRetryPossible = true ∨
        (fail.completion = .KNOWN ∨ fail.completion = .PARTIAL) ∧
          (fail.sideEffectState = .NONE_POSSIBLE ∨ fail.sideEffectState = .KNOWN_NOT_OCCURRED))

/-- An exhausted resource on a healthy worker sends the planner into the last way out but one of
    the fifth section, past the bound or with side effects that may have occurred. -/
structure RetriesPastGuards : Prop where
  class_eq : fail.failureClass = .RESOURCE_EXHAUSTION
  workerHealthy : input.workerHealthy = true
  known : fail.completion = .KNOWN ∨ fail.completion = .PARTIAL
  not_reapplies : ¬ Reapplies fail input
  not_rollsBack : ¬ RollsBackTerminal fail input
  not_committed : input.externallyCommitted = false
  past : input.maxAttempts ≤ input.attemptCount ∨
    fail.retryable = false ∧ input.idempotentRetryPossible = false ∧
      (fail.sideEffectState = .MAY_OCCURRED ∨ fail.sideEffectState = .UNKNOWN)

variable {fail input drawn}

theorem PlanInput.exhausted_iff :
    input.exhausted = true ↔ input.maxAttempts ≤ input.attemptCount := by
  simp [exhausted]

theorem PlanInput.exhausted_eq_false_iff :
    input.exhausted = false ↔ input.attemptCount < input.maxAttempts := by
  simp [exhausted]

/-- The way out of the fifth section that executes again, with the rest of the way to it. -/
theorem retriesTerminal_reexecutes (hknown : fail.completion = .KNOWN ∨ fail.completion = .PARTIAL)
    (hreapplies : ¬ Reapplies fail input) (hpast : PastRetries fail input)
    (hretries : RetriesTerminal fail input) :
    (plan fail input drawn).action.reexecutes = true := by
  have hlost : fail.lost = false := by
    simp [FailureRecord.lost, hretries.2.2.1]
  exact (plan_reexecutes_iff drawn).mpr ⟨hlost, .inr ⟨fail.ambiguous_eq_false_iff.mpr hknown,
    hreapplies, .inr ⟨hpast, hretries⟩⟩⟩

/-- Side effects that neither have occurred nor may have are excluded. -/
theorem harmless_of_not_reapplies (hreapplies : ¬ Reapplies fail input)
    (hidem : input.idempotentRetryPossible = false)
    (hmay : ¬ (fail.sideEffectState = .MAY_OCCURRED ∨ fail.sideEffectState = .UNKNOWN)) :
    fail.sideEffectState = .NONE_POSSIBLE ∨ fail.sideEffectState = .KNOWN_NOT_OCCURRED := by
  cases hside : fail.sideEffectState with
  | NONE_POSSIBLE => exact .inl rfl
  | KNOWN_NOT_OCCURRED => exact .inr rfl
  | MAY_OCCURRED => exact absurd (.inl hside) hmay
  | KNOWN_OCCURRED => exact absurd ⟨hside, hidem⟩ hreapplies
  | UNKNOWN => exact absurd (.inr hside) hmay

/-- **When the planner executes again only safely, exactly.** -/
theorem reexecutesSafely_iff (fail : FailureRecord) (input : PlanInput) (drawn : Uuid128) :
    ReexecutesSafely fail input drawn ↔ ¬ RetriesPastGuards fail input := by
  constructor
  · rintro hsafe ⟨hclass, hhealthy, hknown, hreapplies, hrolls, hcommitted, hpast⟩
    have hretries : RetriesTerminal fail input := ⟨hrolls, hcommitted, hclass, hhealthy⟩
    have hsection : PastRetries fail input := by
      obtain hbound | ⟨hretryable, -⟩ := hpast
      · exact .inr (PlanInput.exhausted_iff.mpr hbound)
      · exact .inl hretryable
    obtain ⟨hbound, hharmless⟩ :=
      hsafe (retriesTerminal_reexecutes hknown hreapplies hsection hretries)
    obtain hpast | ⟨-, hidem, hside⟩ := hpast
    · exact absurd hbound (UInt32.not_lt.mpr hpast)
    · obtain hidem' | ⟨-, hside'⟩ := hharmless
      · exact absurd (hidem.symm.trans hidem') Bool.false_ne_true
      · obtain h | h := hside <;> rw [h] at hside' <;> simp at hside'
  · intro hguards hplan
    obtain ⟨-, ⟨-, hidem, hbound⟩ | ⟨hambiguous, hreapplies, hways⟩⟩ :=
      (plan_reexecutes_iff drawn).mp hplan
    · exact ⟨PlanInput.exhausted_eq_false_iff.mp hbound, .inl hidem⟩
    · obtain ⟨⟨-, hbound, hidem⟩, -⟩ | ⟨hpast, hrolls, hcommitted, hclass, hhealthy⟩ := hways
      · exact ⟨PlanInput.exhausted_eq_false_iff.mp hbound, .inl hidem⟩
      · -- the fifth section: what it does not test is what the guards exclude
        have hknown := fail.ambiguous_eq_false_iff.mp hambiguous
        have hnotPast := fun hpast =>
          hguards ⟨hclass, hhealthy, hknown, hreapplies, hrolls, hcommitted, hpast⟩
        have hbound : input.attemptCount < input.maxAttempts :=
          UInt32.not_le.mp (fun hle => hnotPast (.inl hle))
        have hretryable : fail.retryable = false := by
          obtain hretryable | hexhausted := hpast
          · exact hretryable
          · exact absurd hbound (UInt32.not_lt.mpr (PlanInput.exhausted_iff.mp hexhausted))
        refine ⟨hbound, ?_⟩
        cases hidem : input.idempotentRetryPossible with
        | true => exact .inl rfl
        | false =>
          exact .inr ⟨hknown, harmless_of_not_reapplies hreapplies hidem
            (fun hside => hnotPast (.inr ⟨hretryable, hidem, hside⟩))⟩

/-- An exhausted resource is retried after the last attempt that was allowed, and with side
    effects that may have occurred. -/
theorem retried_past_guards :
    ¬ ReexecutesSafely
        { failureClass := .RESOURCE_EXHAUSTION, retryability := .RETRYABLE, completion := .KNOWN,
          sideEffectState := .NONE_POSSIBLE }
        { attemptCount := 3, idempotentRetryPossible := true } .zero ∧
      ¬ ReexecutesSafely
        { failureClass := .RESOURCE_EXHAUSTION, retryability := .NON_RETRYABLE,
          completion := .KNOWN, sideEffectState := .MAY_OCCURRED }
        {} .zero := by
  constructor
  · intro hsafe
    exact absurd (hsafe (by decide)).1 (by decide)
  · intro hsafe
    exact absurd (hsafe (by decide)).2 (by decide)

/-! ### Undoing side effects -/

variable (fail input drawn) in
/-- Side effects that may have occurred and can be undone are not abandoned. -/
def UndoesEffects : Prop :=
  (fail.sideEffectState = .MAY_OCCURRED ∨ fail.sideEffectState = .KNOWN_OCCURRED ∨
    fail.sideEffectState = .UNKNOWN) →
  (input.rollbackPossible = true ∨ input.compensationPossible = true) →
  (plan fail input drawn).action ≠ .ABANDON

variable (fail input) in
/-- The fifth section is reached with side effects that can only be compensated, and none of the
    actions that it considers before giving up applies. -/
structure AbandonsCompensatable : Prop where
  effects : fail.sideEffectState = .MAY_OCCURRED ∨ fail.sideEffectState = .KNOWN_OCCURRED ∨
    fail.sideEffectState = .UNKNOWN
  compensation : input.compensationPossible = true
  no_rollback : input.rollbackPossible = false
  not_committed : input.externallyCommitted = false
  class_ne : fail.failureClass ≠ .RESOURCE_EXHAUSTION
  not_lost : fail.failureClass ≠ .LOST_DEVICE ∧ fail.failureClass ≠ .LOST_WORKER
  known : fail.completion = .KNOWN ∨ fail.completion = .PARTIAL
  not_reapplies : ¬ Reapplies fail input
  past : fail.retryable = false ∨ input.maxAttempts ≤ input.attemptCount

theorem FailureRecord.lost_eq_false_iff :
    fail.lost = false ↔ fail.failureClass ≠ .LOST_DEVICE ∧ fail.failureClass ≠ .LOST_WORKER := by
  simp [lost]

/-- **When the planner undoes the side effects that it can, exactly.** -/
theorem undoesEffects_iff (fail : FailureRecord) (input : PlanInput) (drawn : Uuid128) :
    UndoesEffects fail input drawn ↔ ¬ AbandonsCompensatable fail input := by
  unfold UndoesEffects
  constructor
  · intro hundoes h
    refine hundoes h.effects (.inr h.compensation) ((plan_abandons_iff drawn).mpr ?_)
    have hrolls : ¬ RollsBackTerminal fail input := by
      rintro ⟨-, -, hrollback⟩
      exact absurd (h.no_rollback.symm.trans hrollback) Bool.false_ne_true
    have hpast : PastRetries fail input := h.past.imp_right PlanInput.exhausted_iff.mpr
    exact ⟨FailureRecord.lost_eq_false_iff.mpr h.not_lost,
      fail.ambiguous_eq_false_iff.mpr h.known, h.not_reapplies, hpast, hrolls, h.not_committed,
      h.class_ne⟩
  · intro hcompensatable heffects hundo habandons
    obtain ⟨hlost, hambiguous, hreapplies, hpast, hrolls, hcommitted, hclass⟩ :=
      (plan_abandons_iff drawn).mp habandons
    -- with side effects the fifth section gives up only where no rollback is possible
    have hrollback : input.rollbackPossible = false := by
      rw [← Bool.not_eq_true]
      intro hrollback
      refine hrolls ⟨?_, ?_, hrollback⟩
      all_goals
        intro hside
        rw [hside] at heffects
        simp at heffects
    have hcompensation : input.compensationPossible = true := by
      obtain h | h := hundo
      · exact absurd (hrollback.symm.trans h) Bool.false_ne_true
      · exact h
    exact hcompensatable ⟨heffects, hcompensation, hrollback, hcommitted, hclass,
      FailureRecord.lost_eq_false_iff.mp hlost, fail.ambiguous_eq_false_iff.mp hambiguous,
      hreapplies, hpast.imp_right PlanInput.exhausted_iff.mp⟩

/-- A permanent failure whose side effects can be compensated is abandoned. -/
theorem compensatable_abandoned :
    ¬ UndoesEffects
      { failureClass := .PERMANENT, retryability := .NON_RETRYABLE, completion := .KNOWN,
        sideEffectState := .MAY_OCCURRED }
      { compensationPossible := true } .zero := by
  intro hundoes
  exact hundoes (.inl rfl) (.inr rfl) (by decide)

end FailureFabric
