import FailureFabric.Completions

namespace FailureFabric

open Library

/-!
# Executions and their attempts

An operation is executed each time its machine enters `RUNNING`.  A second execution is meant to
run under an attempt of its own, so that a late completion of the first one cannot be taken for
one of the second.  The transition table has two cycles back to `RUNNING`: `dispatch` resets the
machine, and the retry path leads from a failure through `RETRYING`.  Neither asks for a fresh
attempt.

* `Enters` — the call takes the machine of the operation into `RUNNING`;
* `ownAttempts_iff` — every execution has an attempt of its own exactly when no retry runs without
  a `dispatch` since the last execution, and no execution runs under a `dispatch` that repeats an
  attempt.
-/

/-- The attempt of an execution: attempt id and attempt generation. -/
def AuthorityEnvelope.execution (e : AuthorityEnvelope) : AttemptId × Generation :=
  (e.attempt, e.attemptGeneration)

/-- The call takes the machine of the operation into `RUNNING`, under the authority. -/
def Enters (reg : OperationRegistry) (c : RegistryCall) (op : OperationId)
    (e : AuthorityEnvelope) : Prop :=
  (∃ r, reg.find op = some r ∧ r.machine.state ≠ .RUNNING ∧ r.authority = e) ∧
    (registry.step reg c).1.state op = .RUNNING

/-- A later execution can be told from an earlier one. -/
structure ToldApart (e₁ e₂ : AuthorityEnvelope) : Prop where
  /-- They run under different attempts. -/
  distinct : e₁.execution ≠ e₂.execution
  /-- A completion of the earlier one does not pass the fence of the later one. -/
  late_fenced : (fenceCompletion e₁ e₂ {}).accepted = false

/-- The guarantee for the executions of one operation in one run that starts empty: any two of
    them can be told apart. -/
def OwnAttempts (calls : List RegistryCall) (op : OperationId) : Prop :=
  ∀ pre c₁ mid c₂ post e₁ e₂, calls = pre ++ c₁ :: (mid ++ c₂ :: post) →
    Enters (registry.run {} pre) c₁ op e₁ → Enters (registry.run {} (pre ++ c₁ :: mid)) c₂ op e₂ →
    ToldApart e₁ e₂

/-- Both cycles bring a fresh attempt. -/
structure FreshAttempts (calls : List RegistryCall) (op : OperationId) : Prop where
  /-- A retry runs again only after a `dispatch`. -/
  retried : ∀ pre c₁ mid c₂ post e₁ e₂, calls = pre ++ c₁ :: (mid ++ c₂ :: post) →
    Enters (registry.run {} pre) c₁ op e₁ → Enters (registry.run {} (pre ++ c₁ :: mid)) c₂ op e₂ →
    (registry.run {} (pre ++ c₁ :: mid)).state op = .RETRYING → ∃ e, .dispatch op e ∈ mid
  /-- The envelope of the last `dispatch` before an execution can be told from that of every
      execution before the `dispatch`. -/
  redispatched : ∀ pre c₁ mid e mid' c₂ post e₁ e₂,
    calls = pre ++ c₁ :: (mid ++ .dispatch op e :: (mid' ++ c₂ :: post)) →
    Enters (registry.run {} pre) c₁ op e₁ →
    Enters (registry.run {} (pre ++ c₁ :: (mid ++ .dispatch op e :: mid'))) c₂ op e₂ →
    (∀ e', .dispatch op e' ∉ mid') → ToldApart e₁ e

/-- `RUNNING` is entered from `DISPATCHED` and from `RETRYING`. -/
theorem isAllowed_running {s : OperationState} (h : isAllowed s .RUNNING = true) :
    s = .DISPATCHED ∨ s = .RETRYING := by
  cases s with
  | unnamed code hle => exact absurd ((isAllowed_unnamed code hle _).symm.trans h) (by simp)
  | DISPATCHED => exact Or.inl rfl
  | RETRYING => exact Or.inr rfl
  | _ => exact absurd h (by decide)

/-- A transition never leads to `CREATED`, and to `DISPATCHED` from there only. -/
theorem isAllowed_dispatched {s dst : OperationState} (h : isAllowed s dst = true)
    (hdst : dst = .CREATED ∨ dst = .DISPATCHED) : s = .CREATED := by
  rcases hdst with rfl | rfl <;> cases s with
  | unnamed code hle => exact absurd ((isAllowed_unnamed code hle _).symm.trans h) (by simp)
  | CREATED => rfl
  | _ => exact absurd h (by decide)

section Enter

variable {reg : OperationRegistry} {c : RegistryCall} {op : OperationId} {e : AuthorityEnvelope}
  {r : OperationRuntime}

/-- What a call that enters `RUNNING` finds, and what it leaves. -/
theorem Enters.spec (h : Enters reg c op e) :
    ∃ r, reg.find op = some r ∧ r.authority = e ∧ r.terminalRecorded = false ∧
      (r.machine.state = .DISPATCHED ∨ r.machine.state = .RETRYING) ∧
      (registry.step reg c).1.find op = some { r with machine := ⟨.RUNNING⟩ } := by
  obtain ⟨⟨r, hr, hidle, hauth⟩, hrunning⟩ := h
  refine ⟨r, hr, hauth, ?_⟩
  obtain ⟨r', hr', heff⟩ := find_step_of_find (c := c) hr
  rw [OperationRegistry.state, hr'] at hrunning
  rw [hr']
  rcases heff with rfl | ⟨-, heff⟩
  · exact absurd hrunning hidle
  · generalize (registry.step reg c).2 = res at heff
    cases heff with
    | refused | repeated | rebound => exact absurd hrunning hidle
    | dispatched => exact absurd hrunning (by simp)
    | advanced dst _ hopen _ hallowed =>
      obtain rfl : dst = .RUNNING := hrunning
      exact ⟨hopen, isAllowed_running hallowed, rfl⟩
    | recorded dst _ _ _ _ _ hterm =>
      obtain rfl : dst = .RUNNING := hrunning
      exact absurd hterm (by decide)

/-- The operation has left the states before its first execution. -/
def OperationRuntime.Started (r : OperationRuntime) : Prop :=
  r.machine.state ≠ .CREATED ∧ r.machine.state ≠ .DISPATCHED

/-- Without a `dispatch` an operation that has been executed never comes back to `DISPATCHED`. -/
theorem started_run {calls : List RegistryCall} (hr : reg.find op = some r) (hs : r.Started)
    (hnone : ∀ e, .dispatch op e ∉ calls) :
    ∃ r', (registry.run reg calls).find op = some r' ∧ r'.Started := by
  induction calls generalizing reg r with
  | nil => exact ⟨r, hr, hs⟩
  | cons c calls ih =>
    obtain ⟨r₁, hr₁, heff⟩ := find_step_of_find (c := c) hr
    have hs₁ : r₁.Started := by
      rcases heff with rfl | ⟨hop, heff⟩
      · exact hs
      · generalize (registry.step reg c).2 = res at heff
        cases heff with
        | refused | repeated | rebound => exact hs
        | dispatched hcall =>
          obtain ⟨op', hop'⟩ := hcall
          obtain rfl : op' = op := by
            rw [hop'] at hop
            exact hop
          exact absurd (hop' ▸ List.mem_cons_self) (hnone c.envelope)
        | advanced dst _ _ _ hallowed | recorded dst _ _ _ _ hallowed =>
          exact ⟨fun hdst => hs.1 (isAllowed_dispatched hallowed (Or.inl hdst)),
            fun hdst => hs.1 (isAllowed_dispatched hallowed (Or.inr hdst))⟩
    exact ih hr₁ hs₁ (fun e he => hnone e (List.mem_cons_of_mem c he))

/-- **Without a `dispatch`.** A second execution comes from `RETRYING`, and runs under the
    authority of the first one. -/
theorem enters_again {c₂ : RegistryCall} {mid : List RegistryCall} {e₁ e₂ : AuthorityEnvelope}
    (h₁ : Enters reg c op e₁) (h₂ : Enters (registry.run reg (c :: mid)) c₂ op e₂)
    (hnone : ∀ e, .dispatch op e ∉ mid) :
    (registry.run reg (c :: mid)).state op = .RETRYING ∧ e₂ = e₁ := by
  obtain ⟨r₁, -, rfl, -, -, hafter⟩ := h₁.spec
  obtain ⟨r₂, hr₂, rfl, -, hfrom, -⟩ := h₂.spec
  obtain ⟨r', hr', hs⟩ := started_run hafter ⟨by simp, by simp⟩ hnone
  obtain ⟨r'', hr'', hauth⟩ := authority_run hafter hnone
  obtain rfl : r₂ = r' := Option.some.inj (hr₂.symm.trans hr')
  obtain rfl : r₂ = r'' := Option.some.inj (hr₂.symm.trans hr'')
  refine ⟨?_, hauth⟩
  rw [OperationRegistry.state, hr₂]
  exact hfrom.resolve_left hs.2

/-- **After a `dispatch`.** An execution runs under the envelope of the last `dispatch`. -/
theorem enters_dispatched {c₂ : RegistryCall} {mid : List RegistryCall} {e₂ : AuthorityEnvelope}
    (hr : reg.find op = some r)
    (h₂ : Enters (registry.run reg (.dispatch op e :: mid)) c₂ op e₂)
    (hnone : ∀ e, .dispatch op e ∉ mid) : e₂ = e := by
  obtain ⟨r₂, hr₂, rfl, hopen₂, -, -⟩ := h₂.spec
  -- what is open now was open then
  have hopen : r.terminalRecorded = false := by
    rw [← Bool.not_eq_true]
    intro hrec
    have hstays := find_run_of_recorded hr hrec (.dispatch op e :: mid)
    obtain rfl : r₂ = r := Option.some.inj (hr₂.symm.trans hstays)
    exact absurd (hopen₂.symm.trans hrec) (by simp)
  obtain ⟨r', hr', rfl⟩ := find_dispatch hr hopen e
  obtain ⟨r'', hr'', hauth⟩ := authority_run hr' hnone
  obtain rfl : r₂ = r'' := Option.some.inj (hr₂.symm.trans hr'')
  exact hauth

/-- A run with a `dispatch` of the operation has a last one. -/
theorem exists_last_dispatch {calls : List RegistryCall} (h : ∃ e, .dispatch op e ∈ calls) :
    ∃ pre e post, calls = pre ++ .dispatch op e :: post ∧ ∀ e', .dispatch op e' ∉ post := by
  induction calls with
  | nil =>
    obtain ⟨e, he⟩ := h
    exact absurd he List.not_mem_nil
  | cons c calls ih =>
    by_cases hrest : ∃ e, .dispatch op e ∈ calls
    · obtain ⟨pre, e, post, rfl, hnone⟩ := ih hrest
      exact ⟨c :: pre, e, post, rfl, hnone⟩
    · obtain ⟨e, he⟩ := h
      have hc : .dispatch op e = c :=
        (List.mem_cons.mp he).resolve_right (fun hmem => hrest ⟨e, hmem⟩)
      rw [← hc]
      exact ⟨[], e, calls, rfl, fun e' he' => hrest ⟨e', he'⟩⟩

/-- An operation that enters `RUNNING` is known after the call. -/
theorem Enters.has_run (h : Enters reg c op e) (calls : List RegistryCall) :
    ∃ r, (registry.run reg (c :: calls)).find op = some r := by
  obtain ⟨r, -, -, -, -, hafter⟩ := h.spec
  have hknown : (registry.step reg c).1.has op = true := by
    rw [OperationRegistry.has, hafter]
    rfl
  exact Option.isSome_iff_exists.mp (FailureFabric.has_run hknown calls)

/-- **Two executions.** The second one runs under the authority of the first, and comes from
    `RETRYING`, or under the envelope of the last `dispatch` between them. -/
theorem enters_twice {c₂ : RegistryCall} {mid : List RegistryCall} {e₁ e₂ : AuthorityEnvelope}
    (h₁ : Enters reg c op e₁) (h₂ : Enters (registry.run reg (c :: mid)) c₂ op e₂) :
    ((∀ e, .dispatch op e ∉ mid) ∧ (registry.run reg (c :: mid)).state op = .RETRYING ∧ e₂ = e₁) ∨
      ∃ mid₁ mid₂, mid = mid₁ ++ .dispatch op e₂ :: mid₂ ∧ ∀ e, .dispatch op e ∉ mid₂ := by
  by_cases hsome : ∃ e, .dispatch op e ∈ mid
  · obtain ⟨mid₁, e, mid₂, rfl, hnone⟩ := exists_last_dispatch hsome
    obtain ⟨r, hr⟩ := h₁.has_run mid₁
    rw [← List.cons_append, Machine.run_append] at h₂
    obtain rfl := enters_dispatched hr h₂ hnone
    exact Or.inr ⟨mid₁, mid₂, rfl, hnone⟩
  · have hnone : ∀ e, .dispatch op e ∉ mid := fun e he => hsome ⟨e, he⟩
    exact Or.inl ⟨hnone, enters_again h₁ h₂ hnone⟩

end Enter

/-- **Executions.** In a run of the registry that starts empty, any two executions of an operation
    can be told apart exactly when no retry runs again without a `dispatch`, and no `dispatch`
    that an execution follows repeats the attempt of an earlier execution. -/
theorem ownAttempts_iff (calls : List RegistryCall) (op : OperationId) :
    OwnAttempts calls op ↔ FreshAttempts calls op := by
  constructor
  · intro h
    refine ⟨?_, ?_⟩
    · intro pre c₁ mid c₂ post e₁ e₂ hsplit h₁ h₂ _
      have hapart := h pre c₁ mid c₂ post e₁ e₂ hsplit h₁ h₂
      rw [Machine.run_append] at h₂
      rcases enters_twice h₁ h₂ with ⟨-, -, rfl⟩ | ⟨mid₁, mid₂, rfl, -⟩
      · exact absurd rfl hapart.distinct
      · exact ⟨e₂, List.mem_append_right _ List.mem_cons_self⟩
    · intro pre c₁ mid e mid' c₂ post e₁ e₂ hsplit h₁ h₂ hnone
      have hapart := h pre c₁ (mid ++ .dispatch op e :: mid') c₂ post e₁ e₂
        (by simpa using hsplit) h₁ h₂
      -- the last `dispatch` binds the authority of the second execution
      obtain ⟨r, hr⟩ := h₁.has_run mid
      rw [Machine.run_append, ← List.cons_append, Machine.run_append] at h₂
      rwa [enters_dispatched hr h₂ hnone] at hapart
  · intro h pre c₁ mid c₂ post e₁ e₂ hsplit h₁ h₂
    have h₂' := h₂
    rw [Machine.run_append] at h₂'
    rcases enters_twice h₁ h₂' with ⟨hnone, hretry, rfl⟩ | ⟨mid₁, mid₂, rfl, hnone⟩
    · rw [← Machine.run_append] at hretry
      obtain ⟨e, he⟩ := h.retried pre c₁ mid c₂ post _ _ hsplit h₁ h₂ hretry
      exact absurd he (hnone e)
    · exact h.redispatched pre c₁ mid₁ e₂ mid₂ c₂ post e₁ e₂ (by simpa using hsplit) h₁ h₂ hnone

/-- A failed attempt that takes the retry path back to `RUNNING`. -/
def retriedRun : List RegistryCall :=
  [.create boundOp firstAttempt, .dispatch boundOp firstAttempt, .run boundOp firstAttempt,
    .reportFailure boundOp firstAttempt false, .transition boundOp .RETRY_PENDING firstAttempt,
    .transition boundOp .RETRYING firstAttempt, .run boundOp firstAttempt]

/-- The retry runs under the attempt that failed, and would accept its late completion. -/
theorem retried_same_attempt :
    registry.outputs {} retriedRun = [.OK, .OK, .OK, .OK, .OK, .OK, .OK] ∧
      (fenceCompletion firstAttempt
        ((registry.run {} retriedRun).currentAuthority boundOp) {}).accepted = true ∧
      ¬ OwnAttempts retriedRun boundOp := by
  refine ⟨by decide, by decide, fun h => ?_⟩
  have hfirst : Enters (registry.run {} (retriedRun.take 2)) (.run boundOp firstAttempt) boundOp
      firstAttempt :=
    ⟨⟨{ machine := ⟨.DISPATCHED⟩, authority := firstAttempt, attemptCount := 1 },
      by decide, by decide, rfl⟩, by decide⟩
  have hsecond : Enters (registry.run {} (retriedRun.take 6)) (.run boundOp firstAttempt) boundOp
      firstAttempt :=
    ⟨⟨{ machine := ⟨.RETRYING⟩, authority := firstAttempt, attemptCount := 1 },
      by decide, by decide, rfl⟩, by decide⟩
  exact (h (retriedRun.take 2) _ _ _ [] _ _ rfl hfirst hsecond).distinct rfl

end FailureFabric
