import FailureFabric.Outcomes

namespace FailureFabric

open Library

/-!
# How a completion is entered

A completion is meant to be entered only through the completion fence, which compares the dispatch,
the worker boot and the operation generation besides what the failure fence compares.  The calls
`transition` and `record_terminal` enter the same states through the failure fence.

* `fenceCompletion_iff_fenceFailure` — what the completion fence demands beyond the failure fence;
* `completionsFenced_iff` — every completion is entered through the completion fence exactly when
  these two calls bring envelopes that meet that demand.
-/

/-- The states of a completion. -/
def OperationState.isCompletion (s : OperationState) : Bool :=
  s = COMPLETION_REPORTED || s = COMPLETION_CONFIRMED

/-- What the completion fence demands beyond the failure fence: the current dispatch and worker
    boot, where these are set, and no older operation generation. -/
def AuthorityEnvelope.completes (e cur : AuthorityEnvelope) : Bool :=
  (cur.dispatch.isNull || e.dispatch = cur.dispatch) &&
    (cur.workerBoot.isNull || e.workerBoot = cur.workerBoot) &&
    !decide (e.operationGeneration < cur.operationGeneration)

/-- **The two fences.** Before an outcome is recorded, the completion fence is the failure fence
    together with the dispatch, the worker boot and the operation generation. -/
theorem fenceCompletion_iff_fenceFailure (e cur : AuthorityEnvelope) :
    (fenceCompletion e cur {}).accepted = true ↔
      (fenceFailure e cur).accepted = true ∧ e.completes cur = true := by
  have hunset : ({} : AuthorityEnvelope).isUnset = true := by decide
  have hor : ∀ (b : Bool) (p : Prop), (b = true ∨ p) ↔ (b = false → p) := by
    intro b p
    cases b <;> simp
  rw [fenceCompletion_accepted_iff, fenceFailure_accepted_iff]
  simp only [AuthorityEnvelope.completes, Bool.and_eq_true, Bool.or_eq_true, Bool.not_eq_true',
    decide_eq_true_eq, decide_eq_false_iff_not, hor, hunset]
  constructor
  · rintro ⟨hset, hepoch, hattempt, hdispatch, hboot, hgen, hopgen, -⟩
    refine ⟨⟨hset, hepoch, hattempt, hgen, ?_⟩, ⟨hdispatch, hboot⟩, hopgen⟩
    -- an envelope of the current boot is not from another one
    exact fun hnull _ hne => absurd (hboot hnull) hne
  · rintro ⟨⟨hset, hepoch, hattempt, hgen, -⟩, ⟨hdispatch, hboot⟩, hopgen⟩
    exact ⟨hset, hepoch, hattempt, hdispatch, hboot, hgen, hopgen, fun h => absurd h (by simp)⟩

/-- The guarantee for one run that starts empty: the envelope of a call that takes an operation to
    a state of a completion passes the completion fence of the operation before the call. -/
def CompletionsFenced (calls : List RegistryCall) : Prop :=
  ∀ pre c post op r', calls = pre ++ c :: post →
    (registry.run {} (pre ++ [c])).find op = some r' → r'.machine.state.isCompletion = true →
    (registry.run {} pre).state op ≠ r'.machine.state →
    ∃ r, (registry.run {} pre).find op = some r ∧
      (fenceCompletion c.envelope r.authority r.terminal).accepted = true

/-- A `transition` that enters a completion, or a `record_terminal` that does, brings an envelope
    that meets the demand of the completion fence. -/
def completionFits (reg : OperationRegistry) : RegistryCall → Bool
  | .transition op dst e =>
    match reg.find op with
    | none => true
    | some r => !dst.isCompletion || r.terminalRecorded ||
        !(fenceFailure e r.authority).accepted || !isAllowed r.machine.state dst ||
        e.completes r.authority
  | .recordTerminal op e _ =>
    match reg.find op with
    | none => true
    | some r => r.machine.state ≠ .COMPLETION_REPORTED || r.terminalRecorded ||
        !(fenceFailure e r.authority).accepted || e.completes r.authority
  | _ => true

/-- The table has no transition from a state to itself. -/
theorem isAllowed_self (s : OperationState) : isAllowed s s = false := by
  cases s with
  | unnamed code hle => exact isAllowed_unnamed code hle _
  | _ => decide

section Step

variable {reg : OperationRegistry} {c : RegistryCall} {op : OperationId} {r r' : OperationRuntime}
  {res : ApplyResult}

/-- How a call enters a completion: through the completion fence, by a `transition`, or by a
    `record_terminal` of a reported one. -/
theorem RegistryCall.Effect.enters_completion (h : c.Effect r r' res)
    (hcomp : r'.machine.state.isCompletion = true) (hnew : r.machine.state ≠ r'.machine.state) :
    (fenceCompletion c.envelope r.authority r.terminal).accepted = true ∨
      r.terminalRecorded = false ∧ (fenceFailure c.envelope r.authority).accepted = true ∧
        ((∃ op dst e, c = .transition op dst e ∧ dst.isCompletion = true ∧
            isAllowed r.machine.state dst = true) ∨
          ∃ op e o, c = .recordTerminal op e o ∧ r.machine.state = .COMPLETION_REPORTED) := by
  cases h with
  | refused | repeated | rebound => exact absurd rfl hnew
  | dispatched => exact absurd hcomp (by simp [OperationState.isCompletion])
  | advanced dst hevent hopen hfence hallowed htarget hnone =>
    cases c with
    | reportCompletion => exact Or.inl hfence
    | transition op dst' e =>
      obtain rfl : dst = dst' := List.mem_singleton.mp htarget
      exact Or.inr ⟨hopen, hfence, Or.inl ⟨op, dst, e, rfl, hcomp, hallowed⟩⟩
    | create | dispatch => exact absurd htarget List.not_mem_nil
    | confirmCompletion | recordTerminal => exact absurd hnone (by simp [RegistryCall.outcome])
    | run =>
      obtain rfl := List.mem_singleton.mp htarget
      exact absurd hcomp (by simp [OperationState.isCompletion])
    | reportFailure _ _ a =>
      obtain rfl := List.mem_singleton.mp htarget
      cases a <;> exact absurd hcomp (by simp [OperationState.isCompletion])
  | recorded dst outcome hevent hopen hfence hallowed hterm htarget hsome =>
    cases c with
    | confirmCompletion => exact Or.inl hfence
    | recordTerminal op e o =>
      have hdst : dst = .COMPLETION_CONFIRMED := by
        simp only [OperationState.isCompletion, Bool.or_eq_true, decide_eq_true_eq] at hcomp
        refine hcomp.resolve_left ?_
        rintro rfl
        exact absurd hterm (by decide)
      rw [hdst] at hallowed
      exact Or.inr ⟨hopen, hfence, Or.inr ⟨op, e, o, rfl, isAllowed_confirmed hallowed⟩⟩
    | create | dispatch | run | reportCompletion | reportFailure | transition =>
      exact absurd hsome (by simp [RegistryCall.outcome])

/-- Before an outcome is recorded there is no terminal envelope. -/
theorem terminal_unset {calls : List RegistryCall} (hr : (registry.run {} calls).find op = some r)
    (hopen : r.terminalRecorded = false) : r.terminal = {} := by
  refine registry_runtime_induction (P := fun r => r.terminalRecorded = false → r.terminal = {})
    (fun _ _ => rfl) ?_ calls op r hr hopen
  intro c r r' res ih heff hopen
  cases heff with
  | refused | repeated | rebound | dispatched | advanced => exact ih hopen
  | recorded => exact absurd hopen (by simp)

end Step

/-- A call that moves an open operation to a completion meets the demand of the fence. -/
theorem CompletionsFenced.completes {pre post : List RegistryCall} {c : RegistryCall}
    {r : OperationRuntime} {dst : OperationState} (h : CompletionsFenced (pre ++ c :: post))
    (hr : (registry.run {} pre).find c.op = some r) (hopen : r.terminalRecorded = false)
    (hmoved : ∃ r', (registry.step (registry.run {} pre) c).1.find c.op = some r' ∧
      r'.machine.state = dst)
    (hcomp : dst.isCompletion = true) (hallowed : isAllowed r.machine.state dst = true) :
    c.envelope.completes r.authority = true := by
  obtain ⟨r', hr', rfl⟩ := hmoved
  rw [← Machine.run_concat] at hr'
  have hnew : (registry.run {} pre).state c.op ≠ r'.machine.state := by
    rw [OperationRegistry.state, hr]
    intro heq
    rw [← heq] at hallowed
    exact absurd ((isAllowed_self _).symm.trans hallowed) (by simp)
  obtain ⟨r₁, hr₁, hfence⟩ := h pre c post c.op r' rfl hr' hcomp hnew
  obtain rfl : r = r₁ := Option.some.inj (hr.symm.trans hr₁)
  rw [terminal_unset hr hopen, fenceCompletion_iff_fenceFailure] at hfence
  exact hfence.2

/-- **Completions are fenced.** In a run of the registry that starts empty, every completion is
    entered with an envelope that passes the completion fence exactly when every `transition` and
    every `record_terminal` that enters one brings the current dispatch and worker boot, where
    these are set, and no older operation generation. -/
theorem completionsFenced_iff (calls : List RegistryCall) :
    CompletionsFenced calls ↔
      registry.Always (fun reg c => completionFits reg c = true) {} calls := by
  constructor
  · intro h
    rw [Machine.always_iff]
    rintro pre c post rfl
    cases c with
    | transition op dst e =>
      rw [← Bool.not_eq_false]
      intro hgap
      cases hr : (registry.run {} pre).find op with
      | none => simp [completionFits, hr] at hgap
      | some r =>
        simp only [completionFits, hr, Bool.or_eq_false_iff, Bool.not_eq_false'] at hgap
        obtain ⟨⟨⟨⟨hcomp, hopen⟩, hfence⟩, hallowed⟩, hgap⟩ := hgap
        have hmoved := transition_moves hr hopen hfence hallowed
        have hfits := h.completes hr hopen ⟨_, hmoved, rfl⟩ hcomp hallowed
        exact absurd (hgap.symm.trans hfits) (by simp)
    | recordTerminal op e o =>
      rw [← Bool.not_eq_false]
      intro hgap
      cases hr : (registry.run {} pre).find op with
      | none => simp [completionFits, hr] at hgap
      | some r =>
        simp only [completionFits, hr, Bool.or_eq_false_iff, Bool.not_eq_false',
          decide_eq_false_iff_not, ne_eq, not_not] at hgap
        obtain ⟨⟨⟨hstate, hopen⟩, hfence⟩, hgap⟩ := hgap
        have hbody : (r.recordTerminal e o).1.machine.state = .COMPLETION_CONFIRMED := by
          rw [recordTerminal_eq hopen, if_pos hfence, hstate]
          rfl
        have hmoved := registry_find_self (registry.run {} pre) (c := .recordTerminal op e o) hr
        have hfits := h.completes hr hopen ⟨_, hmoved, hbody⟩ rfl (by rw [hstate]; decide)
        exact absurd (hgap.symm.trans hfits) (by simp)
    | create | dispatch | run | reportCompletion | confirmCompletion | reportFailure => rfl
  · rintro hC pre c post op r' rfl hr' hcomp hnew
    have hstep := Machine.always_iff.mp hC pre c post rfl
    rw [Machine.run_concat] at hr'
    rcases find_of_step hr' with hold | ⟨-, e, -, rfl⟩ | ⟨r, hr, rfl, -, heff⟩
    · exact absurd (by rw [OperationRegistry.state, hold]) hnew
    · exact absurd hcomp (by simp [OperationState.isCompletion])
    · refine ⟨r, hr, ?_⟩
      rw [OperationRegistry.state, hr] at hnew
      rcases heff.enters_completion hcomp hnew with hfence | ⟨hopen, hfence, hcall⟩
      · exact hfence
      · rw [terminal_unset hr hopen, fenceCompletion_iff_fenceFailure]
        refine ⟨hfence, ?_⟩
        rcases hcall with ⟨op, dst, e, rfl, hdst, hallowed⟩ | ⟨op, e, o, rfl, hstate⟩
        · have hfound : (registry.run {} pre).find op = some r := hr
          have hfence' : (fenceFailure e r.authority).accepted = true := hfence
          show e.completes r.authority = true
          simpa [completionFits, hfound, hdst, hopen, hfence', hallowed] using hstep
        · have hfound : (registry.run {} pre).find op = some r := hr
          have hfence' : (fenceFailure e r.authority).accepted = true := hfence
          show e.completes r.authority = true
          simpa [completionFits, hfound, hstate, hopen, hfence'] using hstep

/-- An envelope of the second attempt with another dispatch, no worker boot and an older operation
    generation. -/
def otherDispatch : AuthorityEnvelope :=
  { secondAttempt with dispatch := ⟨.ofByte 4⟩, workerBoot := {}, operationGeneration := ⟨1⟩ }

/-- The completion of a running operation is entered by a `transition` under that envelope. -/
def transitionCompletion : List RegistryCall :=
  [.create boundOp secondAttempt, .dispatch boundOp secondAttempt, .run boundOp secondAttempt,
    .transition boundOp .COMPLETION_REPORTED otherDispatch]

/-- The completion fence rejects the envelope, and the completion is entered all the same. -/
theorem completion_not_fenced :
    (registry.run {} transitionCompletion).state boundOp = .COMPLETION_REPORTED ∧
      (fenceCompletion otherDispatch secondAttempt {}).reason = .DISPATCH_MISMATCH ∧
      ¬ CompletionsFenced transitionCompletion := by
  refine ⟨by decide, by decide, fun h => ?_⟩
  have hr' : (registry.run {} transitionCompletion).find boundOp =
      some { machine := ⟨.COMPLETION_REPORTED⟩, authority := secondAttempt,
             attemptCount := 1 } := by
    decide
  obtain ⟨r, hr, hfence⟩ := h (transitionCompletion.take 3) _ [] boundOp _ rfl hr' rfl (by decide)
  have hrunning : (registry.run {} (transitionCompletion.take 3)).find boundOp =
      some { machine := ⟨.RUNNING⟩, authority := secondAttempt, attemptCount := 1 } := by
    decide
  obtain rfl := Option.some.inj (hrunning.symm.trans hr)
  exact absurd hfence (by decide)

end FailureFabric
