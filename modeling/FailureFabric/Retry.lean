import FailureFabric.FailureRecord
import Mathlib.Data.List.Chain
import Mathlib.Tactic.MkIffOfInductiveProp

namespace FailureFabric

/-!
# The retry classifier

An ordered list of tests decides whether a failed operation is executed again: the bound first,
then the class, an ambiguous completion, the side effects, and the retryability last.  What a test
returns early the later ones do not see.

* `effRetryability`, `classify` — the classifier, with its two halves `classifyAmbiguous` and
  `classifyKnown`;
* `classify_reexecutes_iff` — all the ways out that execute again, as one condition.  The later
  results use only this and `classify_fresh`.
-/

/-- `RetryVerdict`. -/
inductive RetryVerdict
  | RETRY | DO_NOT_RETRY | RETRY_ELSEWHERE | ROLLBACK_FIRST
deriving DecidableEq, Repr

/-- `RetryDecision`. -/
structure RetryDecision where
  verdict : RetryVerdict := .DO_NOT_RETRY
  requiresFreshAttempt : Bool := true
  sameIdempotencyKey : Bool := true
  rollbackFirst : Bool := false
  compensationRequired : Bool := false
  fencedPermanently : Bool := false
  reason : String := ""
  factors : List String := []
deriving DecidableEq

/-- `RetryPolicy`, without the two backoff bounds, which no function reads. -/
structure RetryPolicy where
  maxAttempts : UInt32 := 3
  allowRetryUnknownSideEffects : Bool := false
  requireSameKey : Bool := true
  allowRetryElsewhere : Bool := true
  allowRetryAfterAmbiguous : Bool := true
deriving DecidableEq

/-- `RetryInput`. -/
structure RetryInput where
  attemptCount : UInt32 := 0
  workerHealthy : Bool := true
  deviceHealthy : Bool := true
  dependencyReady : Bool := true
  reservationActive : Bool := true
  deadlineExceeded : Bool := false
  idempotentRetryPossible : Bool := false
deriving DecidableEq

/-- `eff_retryability`: the retryability of the record, or the one of its class. -/
def effRetryability (fail : FailureRecord) : Retryability :=
  if fail.retryability ≠ .UNKNOWN then fail.retryability
  else
    match fail.failureClass with
    | .TRANSIENT | .RETRYABLE | .PREEMPTED | .RESOURCE_EXHAUSTION | .EXECUTION_FAILURE =>
      .RETRYABLE
    | .AMBIGUOUS | .PARTIAL_SUCCESS | .LOST_WORKER | .LOST_DEVICE | .TRANSPORT_FAILURE
    | .TIMEOUT_OBSERVED | .DEPENDENCY_FAILURE | .STORAGE_FAILURE => .CONDITIONALLY_RETRYABLE
    | _ => .NON_RETRYABLE

/-- The classes of the `switch` of `classify`, which are never retried. -/
def FailureClass.neverRetried : FailureClass → Bool
  | PERMANENT | NON_RETRYABLE | VALIDATION_FAILURE | INCOMPATIBILITY | CANCELLED
  | RECOVERY_FAILURE | STALE_AUTHORITY => true
  | _ => false

/-- The local `may_effect` of `classify`. -/
def FailureRecord.mayEffect (fail : FailureRecord) : Bool :=
  fail.sideEffectState = .MAY_OCCURRED || fail.sideEffectState = .UNKNOWN

/-- The local `retryable_class` of `classify`. -/
def FailureRecord.effRetryable (fail : FailureRecord) : Bool :=
  effRetryability fail = .RETRYABLE || effRetryability fail = .CONDITIONALLY_RETRYABLE

section Classify

variable (fail : FailureRecord) (input : RetryInput) (policy : RetryPolicy)

/-- The part of `classify` for an ambiguous completion. -/
def classifyAmbiguous (d : RetryDecision) : RetryDecision :=
  if !input.idempotentRetryPossible then
    if fail.rollback = .REQUIRED || fail.mayEffect then
      { d with
        verdict := .ROLLBACK_FIRST, rollbackFirst := true, requiresFreshAttempt := true
        reason := "ambiguous completion with possible side effects; rollback before retry" }
    else
      { d with
        verdict := .DO_NOT_RETRY
        reason := "ambiguous completion and not idempotent-safe; manual resolution" }
  else
    { d with
      verdict := .RETRY, sameIdempotencyKey := policy.requireSameKey, requiresFreshAttempt := true
      reason := "ambiguous but idempotent; retry same key with fresh attempt" }

/-- The part of `classify` after an ambiguous completion has been excluded. -/
def classifyKnown (d : RetryDecision) : RetryDecision :=
  if fail.sideEffectState = .KNOWN_OCCURRED && !input.idempotentRetryPossible then
    { d with
      verdict := .ROLLBACK_FIRST, rollbackFirst := true, requiresFreshAttempt := false
      reason := "known side effect occurred; rollback required before any retry" }
  else if fail.mayEffect && !policy.allowRetryUnknownSideEffects then
    { d with
      verdict := .ROLLBACK_FIRST, rollbackFirst := true, requiresFreshAttempt := true
      reason := "unknown side effects; policy requires rollback before retry" }
  else if fail.effRetryable then
    if input.deadlineExceeded then
      { d with verdict := .DO_NOT_RETRY, reason := "deadline/SLO exceeded" }
    else if !input.workerHealthy && policy.allowRetryElsewhere then
      { d with
        verdict := .RETRY_ELSEWHERE, requiresFreshAttempt := true
        reason := "worker unhealthy; retry elsewhere" }
    else if !input.dependencyReady then
      { d with verdict := .DO_NOT_RETRY, reason := "dependency not ready" }
    else
      { d with
        verdict := .RETRY, requiresFreshAttempt := true
        reason := "transient/retryable; retry with fresh attempt" }
  else { d with verdict := .DO_NOT_RETRY, reason := "unclassified; not retryable" }

/-- `RetryClassifier::classify`. -/
def classify : RetryDecision :=
  let d : RetryDecision :=
    { reason := "DO_NOT_RETRY by default"
      factors :=
        ["failure_class=" ++ fail.failureClass.name,
         "completion=" ++ fail.completion.name,
         "side_effects=" ++ fail.sideEffectState.name,
         "attempts=" ++ toString input.attemptCount.toNat ++ "/" ++
           toString policy.maxAttempts.toNat] }
  if input.attemptCount ≥ policy.maxAttempts then
    { d with
      verdict := .DO_NOT_RETRY, requiresFreshAttempt := false
      reason := "attempt limit reached; bounded retries exhausted" }
  else if fail.failureClass.neverRetried then
    { d with
      verdict := .DO_NOT_RETRY, requiresFreshAttempt := false, fencedPermanently := true
      reason := "non-retryable failure class: " ++ fail.failureClass.name }
  else if fail.ambiguous then classifyAmbiguous fail input policy d
  else classifyKnown fail input policy d

end Classify

/-! ### The ways out that execute again -/

/-- The verdict executes the operation again. -/
def RetryVerdict.reexecutes : RetryVerdict → Bool
  | RETRY | RETRY_ELSEWHERE => true
  | DO_NOT_RETRY | ROLLBACK_FIRST => false

section Reexecutes

variable (fail : FailureRecord) (input : RetryInput) (policy : RetryPolicy)

/-- What the classifier tests after an unambiguous completion. -/
@[mk_iff]
structure KnownRetry : Prop where
  /-- A side effect that occurred is applied again by idempotent operations only. -/
  occurred : fail.sideEffectState = .KNOWN_OCCURRED → input.idempotentRetryPossible = true
  /-- One that may have occurred is risked under a policy that allows it. -/
  may : fail.mayEffect = true → policy.allowRetryUnknownSideEffects = true
  retryable : fail.effRetryable = true
  deadline : input.deadlineExceeded = false
  place : input.workerHealthy = false ∧ policy.allowRetryElsewhere = true ∨
    input.dependencyReady = true

theorem classifyAmbiguous_reexecutes_iff (d : RetryDecision) :
    (classifyAmbiguous fail input policy d).verdict.reexecutes = true ↔
      input.idempotentRetryPossible = true := by
  unfold classifyAmbiguous
  split_ifs <;> simp_all [RetryVerdict.reexecutes]

/-- The tests of `classifyKnown`, in their order, are the fields of `KnownRetry`. -/
theorem classifyKnown_reexecutes_iff (d : RetryDecision) :
    (classifyKnown fail input policy d).verdict.reexecutes = true ↔
      KnownRetry fail input policy := by
  rw [knownRetry_iff]
  unfold classifyKnown
  split_ifs <;> simp_all [RetryVerdict.reexecutes]

/-- Within the bound a class that may be retried and an ambiguous completion leave the decision to
    `classifyAmbiguous`. -/
theorem classify_eq_ambiguous (hbound : input.attemptCount < policy.maxAttempts)
    (hclass : fail.failureClass.neverRetried = false) (hambiguous : fail.ambiguous = true) :
    ∃ d, classify fail input policy = classifyAmbiguous fail input policy d := by
  unfold classify
  rw [if_neg (UInt32.not_le.mpr hbound), hclass, hambiguous]
  exact ⟨_, rfl⟩

/-- An unambiguous one leaves it to `classifyKnown`. -/
theorem classify_eq_known (hbound : input.attemptCount < policy.maxAttempts)
    (hclass : fail.failureClass.neverRetried = false) (hknown : fail.ambiguous = false) :
    ∃ d, classify fail input policy = classifyKnown fail input policy d := by
  unfold classify
  rw [if_neg (UInt32.not_le.mpr hbound), hclass, hknown]
  exact ⟨_, rfl⟩

/-- **All the ways out that execute again.** -/
theorem classify_reexecutes_iff :
    (classify fail input policy).verdict.reexecutes = true ↔
      input.attemptCount < policy.maxAttempts ∧ fail.failureClass.neverRetried = false ∧
        (fail.ambiguous = true ∧ input.idempotentRetryPossible = true ∨
          fail.ambiguous = false ∧ KnownRetry fail input policy) := by
  by_cases hbound : input.attemptCount ≥ policy.maxAttempts
  · unfold classify
    rw [if_pos hbound]
    exact iff_of_false Bool.false_ne_true (fun h => absurd hbound (UInt32.not_le.mpr h.1))
  · replace hbound : input.attemptCount < policy.maxAttempts := UInt32.not_le.mp hbound
    cases hclass : fail.failureClass.neverRetried with
    | true =>
      unfold classify
      rw [if_neg (UInt32.not_le.mpr hbound), hclass]
      exact iff_of_false Bool.false_ne_true (fun h => absurd h.2.1 (by decide))
    | false =>
      cases hambiguous : fail.ambiguous with
      | true =>
        obtain ⟨d, hd⟩ := classify_eq_ambiguous fail input policy hbound hclass hambiguous
        rw [hd, classifyAmbiguous_reexecutes_iff]
        simp [hbound]
      | false =>
        obtain ⟨d, hd⟩ := classify_eq_known fail input policy hbound hclass hambiguous
        rw [hd, classifyKnown_reexecutes_iff]
        simp [hbound]

variable {fail input policy}

theorem classifyAmbiguous_fresh {d : RetryDecision}
    (h : (classifyAmbiguous fail input policy d).verdict.reexecutes = true) :
    (classifyAmbiguous fail input policy d).requiresFreshAttempt = true := by
  unfold classifyAmbiguous
  rw [(classifyAmbiguous_reexecutes_iff fail input policy d).mp h]
  rfl

theorem classifyKnown_fresh {d : RetryDecision}
    (h : (classifyKnown fail input policy d).verdict.reexecutes = true) :
    (classifyKnown fail input policy d).requiresFreshAttempt = true := by
  revert h
  unfold classifyKnown
  split_ifs <;> first | exact fun _ => rfl | exact fun h => absurd h Bool.false_ne_true

/-- A verdict that executes again asks for a fresh attempt. -/
theorem classify_fresh (h : (classify fail input policy).verdict.reexecutes = true) :
    (classify fail input policy).requiresFreshAttempt = true := by
  obtain ⟨hbound, hclass, ⟨hambiguous, -⟩ | ⟨hknown, -⟩⟩ :=
    (classify_reexecutes_iff fail input policy).mp h
  · obtain ⟨d, hd⟩ := classify_eq_ambiguous fail input policy hbound hclass hambiguous
    rw [hd] at h ⊢
    exact classifyAmbiguous_fresh h
  · obtain ⟨d, hd⟩ := classify_eq_known fail input policy hbound hclass hknown
    rw [hd] at h ⊢
    exact classifyKnown_fresh h

end Reexecutes

/-! ### Safety -/

/-- What is promised of a verdict that executes again. -/
structure RetrySafe (fail : FailureRecord) (input : RetryInput) (policy : RetryPolicy) :
    Prop where
  bound : input.attemptCount < policy.maxAttempts
  class_notMem : fail.failureClass ∉
    [.PERMANENT, .NON_RETRYABLE, .VALIDATION_FAILURE, .INCOMPATIBILITY, .CANCELLED,
      .RECOVERY_FAILURE, .STALE_AUTHORITY]
  fresh : (classify fail input policy).requiresFreshAttempt = true
  /-- Without idempotency nothing is open, and no side effect is risked that the policy does not
      allow to risk. -/
  effects : input.idempotentRetryPossible = false →
    (fail.completion = .KNOWN ∨ fail.completion = .PARTIAL) ∧
      (fail.sideEffectState = .NONE_POSSIBLE ∨ fail.sideEffectState = .KNOWN_NOT_OCCURRED ∨
        (fail.sideEffectState = .MAY_OCCURRED ∨ fail.sideEffectState = .UNKNOWN) ∧
          policy.allowRetryUnknownSideEffects = true)

theorem classify_safe {fail : FailureRecord} {input : RetryInput} {policy : RetryPolicy}
    (h : (classify fail input policy).verdict.reexecutes = true) :
    RetrySafe fail input policy := by
  obtain ⟨hbound, hclass, hways⟩ := (classify_reexecutes_iff fail input policy).mp h
  refine ⟨hbound, ?_, classify_fresh h, fun hidem => ?_⟩
  · revert hclass
    cases fail.failureClass <;> decide
  · obtain ⟨-, hidem'⟩ | ⟨hknown, hretry⟩ := hways
    · rw [hidem] at hidem'
      exact absurd hidem' Bool.false_ne_true
    · refine ⟨fail.ambiguous_eq_false_iff.mp hknown, ?_⟩
      have hoccurred := hretry.occurred
      have hmay := hretry.may
      rw [hidem] at hoccurred
      unfold FailureRecord.mayEffect at hmay
      cases hside : fail.sideEffectState with
      | NONE_POSSIBLE => exact .inl rfl
      | KNOWN_NOT_OCCURRED => exact .inr (.inl rfl)
      | MAY_OCCURRED => exact .inr (.inr ⟨.inl rfl, hmay (by rw [hside]; rfl)⟩)
      | KNOWN_OCCURRED => exact absurd (hoccurred hside) Bool.false_ne_true
      | UNKNOWN => exact .inr (.inr ⟨.inr rfl, hmay (by rw [hside]; rfl)⟩)

/-! ### Retry loops -/

section Counting

variable {α : Type} {f : α → Nat} {p : α → Bool} {bound : Nat}

/-- From an element on, at most as many are marked as its measure leaves below the bound. -/
private theorem countP_le_sub {a : α} {as : List α}
    (hbelow : ∀ b ∈ a :: as, p b = true → f b < bound)
    (hgrows : (a :: as).IsChain (fun a b => f a ≤ f b ∧ (p a = true → f a < f b))) :
    (a :: as).countP p ≤ bound - f a := by
  have hfirst := hbelow a List.mem_cons_self
  induction as generalizing a with
  | nil =>
    rw [List.countP_singleton]
    split_ifs with hp
    · have hlt := hfirst hp
      omega
    · exact Nat.zero_le _
  | cons b bs ih =>
    obtain ⟨⟨hle, hlt⟩, htail⟩ := List.isChain_cons_cons.mp hgrows
    have hrest := ih (fun c hc => hbelow c (List.mem_cons_of_mem a hc)) htail
      (hbelow b (List.mem_cons_of_mem a List.mem_cons_self))
    rw [List.countP_cons]
    split_ifs with hp
    · have hbelow_a := hfirst hp
      have hgrow := hlt hp
      omega
    · omega

/-- Marked elements that stand below a bound, in a list along which a measure never decreases and
    grows behind every marked element, are at most as many as the bound. -/
theorem countP_le_of_isChain {as : List α} (hbelow : ∀ a ∈ as, p a = true → f a < bound)
    (hgrows : as.IsChain (fun a b => f a ≤ f b ∧ (p a = true → f a < f b))) :
    as.countP p ≤ bound := by
  cases as with
  | nil => exact Nat.zero_le _
  | cons a as => exact Nat.le_trans (countP_le_sub hbelow hgrows) (Nat.sub_le _ _)

end Counting

/-- Decisions of one retry loop: the count of attempts never decreases, and grows after every
    verdict that executes again. -/
def RetryLoop (policy : RetryPolicy) (steps : List (FailureRecord × RetryInput)) : Prop :=
  steps.IsChain fun s t =>
    s.2.attemptCount ≤ t.2.attemptCount ∧
      ((classify s.1 s.2 policy).verdict.reexecutes = true →
        s.2.attemptCount < t.2.attemptCount)

/-- **Retries are safe and bounded.** A verdict that executes again keeps its promises, and a
    retry loop has at most as many of them as its policy has attempts. -/
theorem classify_safe_bounded (policy : RetryPolicy) :
    (∀ fail input, (classify fail input policy).verdict.reexecutes = true →
      RetrySafe fail input policy) ∧
    ∀ steps, RetryLoop policy steps →
      steps.countP (fun s => (classify s.1 s.2 policy).verdict.reexecutes) ≤
        policy.maxAttempts.toNat := by
  refine ⟨fun fail input h => classify_safe h, fun steps hloop => ?_⟩
  refine countP_le_of_isChain (f := fun s => s.2.attemptCount.toNat) (fun s _ hs => ?_) ?_
  · exact UInt32.lt_iff_toNat_lt.mp (classify_safe hs).bound
  · exact hloop.imp (fun s t h => ⟨UInt32.le_iff_toNat_le.mp h.1,
      fun hs => UInt32.lt_iff_toNat_lt.mp (h.2 hs)⟩)

/-! ### Retryability -/

/-- A verdict that executes again respects the retryability of the record, and the switch of the
    policy for an ambiguous completion. -/
def RespectsRetryability (fail : FailureRecord) (input : RetryInput) (policy : RetryPolicy) :
    Prop :=
  (classify fail input policy).verdict.reexecutes = true →
    effRetryability fail ≠ .NON_RETRYABLE ∧
      (fail.completion = .AMBIGUOUS ∨ fail.completion = .UNKNOWN_OUTCOME →
        policy.allowRetryAfterAmbiguous = true)

/-- A retryable record is not non-retryable. -/
theorem FailureRecord.ne_nonRetryable_of_effRetryable {fail : FailureRecord}
    (h : fail.effRetryable = true) : effRetryability fail ≠ .NON_RETRYABLE := by
  intro hnon
  rw [effRetryable, hnon] at h
  exact absurd h (by decide)

/-- **When the verdicts respect the retryability, exactly.** The way out for an ambiguous
    completion tests neither the retryability nor the switch, so both have to allow the retry
    where it is taken. -/
theorem respectsRetryability_iff (fail : FailureRecord) (input : RetryInput)
    (policy : RetryPolicy) :
    RespectsRetryability fail input policy ↔
      policy.maxAttempts ≤ input.attemptCount ∨ fail.failureClass.neverRetried = true ∨
      (fail.completion = .KNOWN ∨ fail.completion = .PARTIAL) ∨
      input.idempotentRetryPossible = false ∨
      (effRetryability fail ≠ .NON_RETRYABLE ∧ policy.allowRetryAfterAmbiguous = true) := by
  unfold RespectsRetryability
  rw [classify_reexecutes_iff, ← fail.ambiguous_iff, ← fail.ambiguous_eq_false_iff]
  constructor
  · intro h
    by_contra hnone
    simp only [not_or, Bool.not_eq_true, Bool.not_eq_false] at hnone
    obtain ⟨hbound, hclass, hambiguous, hidem, hnot⟩ := hnone
    obtain ⟨heff, hswitch⟩ :=
      h ⟨UInt32.not_le.mp hbound, hclass, .inl ⟨hambiguous, hidem⟩⟩
    exact hnot ⟨heff, hswitch hambiguous⟩
  · rintro hcond ⟨hbound, hclass, ⟨hambiguous, hidem⟩ | ⟨hknown, hretry⟩⟩
    · -- the way out that tests nothing more
      obtain h | h | h | h | ⟨heff, hswitch⟩ := hcond
      · exact absurd hbound (UInt32.not_lt.mpr h)
      · exact absurd (hclass.symm.trans h) Bool.false_ne_true
      · exact absurd (h.symm.trans hambiguous) Bool.false_ne_true
      · exact absurd (h.symm.trans hidem) Bool.false_ne_true
      · exact ⟨heff, fun _ => hswitch⟩
    · exact ⟨FailureRecord.ne_nonRetryable_of_effRetryable hretry.retryable,
        fun h => absurd (hknown.symm.trans h) Bool.false_ne_true⟩

/-- A protocol failure of unknown outcome, which is not retryable, is retried; and so is a timeout
    under a policy that does not allow it after an ambiguous completion. -/
theorem nonRetryable_retried :
    ¬ RespectsRetryability
        { failureClass := .PROTOCOL_FAILURE, retryability := .NON_RETRYABLE,
          completion := .AMBIGUOUS }
        { idempotentRetryPossible := true } {} ∧
      ¬ RespectsRetryability
        { failureClass := .TIMEOUT_OBSERVED, retryability := .CONDITIONALLY_RETRYABLE,
          completion := .AMBIGUOUS }
        { idempotentRetryPossible := true } { allowRetryAfterAmbiguous := false } := by
  constructor
  · intro h
    exact (h (by decide)).1 (by decide)
  · intro h
    exact absurd ((h (by decide)).2 (.inl rfl)) (by decide)

end FailureFabric
