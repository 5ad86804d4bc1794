import FailureFabric.RegistryRuns

namespace FailureFabric

open Library

/-!
# The bound authority

`dispatch` binds an operation to a new authority, and every fence compares against that one.  It
does so before its last check and without a fence of its own, which breaks two expectations.

* `authorityAdvances_iff` — the epoch and the two generations of the bound authority never
  decrease exactly when no `dispatch` brings an older envelope than the bound one;
* `rejected_unchanged_iff` — a call that does not return `OK` leaves the registry as it was unless
  it is a `dispatch` of an operation in a terminal state without a recorded outcome.
-/

/-- In one of the three dimensions that only ever advance, the envelope is behind the other. -/
def AuthorityEnvelope.regresses (e cur : AuthorityEnvelope) : Bool :=
  e.coordinatorEpoch < cur.coordinatorEpoch || e.attemptGeneration < cur.attemptGeneration ||
    e.operationGeneration < cur.operationGeneration

theorem AuthorityEnvelope.regresses_eq_false_iff (e cur : AuthorityEnvelope) :
    e.regresses cur = false ↔
      cur.coordinatorEpoch.value.toNat ≤ e.coordinatorEpoch.value.toNat ∧
      cur.attemptGeneration.value.toNat ≤ e.attemptGeneration.value.toNat ∧
      cur.operationGeneration.value.toNat ≤ e.operationGeneration.value.toNat := by
  simp only [regresses, Bool.or_eq_false_iff, decide_eq_false_iff_not, Generation.lt_iff, not_lt,
    and_assoc]

theorem AuthorityEnvelope.regresses_self (e : AuthorityEnvelope) : e.regresses e = false :=
  (regresses_eq_false_iff e e).mpr ⟨le_rfl, le_rfl, le_rfl⟩

theorem AuthorityEnvelope.regresses_trans {e₁ e₂ e₃ : AuthorityEnvelope}
    (h₁₂ : e₂.regresses e₁ = false) (h₂₃ : e₃.regresses e₂ = false) :
    e₃.regresses e₁ = false := by
  rw [regresses_eq_false_iff] at *
  omega

/-! ### What a call does to the authority -/

section Step

variable {reg : OperationRegistry} {c : RegistryCall} {op : OperationId} {r r' : OperationRuntime}
  {res : ApplyResult}

/-- Only `dispatch` changes the authority: it binds its own envelope. -/
theorem RegistryCall.Effect.authority_eq (h : c.Effect r r' res) :
    r'.authority = r.authority ∨
      c = .dispatch c.op c.envelope ∧ r.terminalRecorded = false ∧ r'.authority = c.envelope := by
  cases h with
  | refused | repeated | advanced | recorded => exact Or.inl rfl
  | rebound hcall hopen | dispatched hcall hopen =>
    obtain ⟨op, hop⟩ := hcall
    exact Or.inr ⟨by rw [hop]; rfl, hopen, rfl⟩

/-- `dispatch` binds its envelope to any known operation without a recorded outcome, whatever it
    returns. -/
theorem authority_dispatch (hopen : r.terminalRecorded = false) (e : AuthorityEnvelope) :
    (r.dispatch e).1.authority = e := by
  unfold OperationRuntime.dispatch
  rw [if_neg (by simp [hopen])]
  dsimp only
  split_ifs <;> rfl

theorem find_dispatch (hr : reg.find op = some r) (hopen : r.terminalRecorded = false)
    (e : AuthorityEnvelope) :
    ∃ r', (registry.step reg (.dispatch op e)).1.find op = some r' ∧ r'.authority = e :=
  ⟨_, registry_find_self reg (c := .dispatch op e) hr, authority_dispatch hopen e⟩

/-- An operation keeps its authority in every run without a `dispatch` of it. -/
theorem authority_run {calls : List RegistryCall} (hr : reg.find op = some r)
    (hnone : ∀ e, .dispatch op e ∉ calls) :
    ∃ r', (registry.run reg calls).find op = some r' ∧ r'.authority = r.authority := by
  induction calls generalizing reg r with
  | nil => exact ⟨r, hr, rfl⟩
  | cons c calls ih =>
    obtain ⟨r₁, hr₁, heff⟩ := find_step_of_find (c := c) hr
    have hauth : r₁.authority = r.authority := by
      rcases heff with rfl | ⟨hop, heff⟩
      · rfl
      · refine heff.authority_eq.resolve_right ?_
        rintro ⟨hcall, -⟩
        rw [hop] at hcall
        exact hnone c.envelope (by rw [← hcall]; exact List.mem_cons_self)
    obtain ⟨r₂, hr₂, hauth₂⟩ := ih hr₁ (fun e he => hnone e (List.mem_cons_of_mem c he))
    exact ⟨r₂, hr₂, hauth₂.trans hauth⟩

end Step

/-! ### The authority advances -/

/-- The guarantee for the authorities of one run.  An attempt is superseded by an authority that is
    ahead of it in the coordinator epoch, the attempt generation or the operation generation; one
    that is so never returns, and two attempts of the same epoch and generations are neither older
    nor newer. -/
structure AuthorityAdvances (reg : OperationRegistry) (calls : List RegistryCall) : Prop where
  /-- From any state of the run to any later one, no authority regresses. -/
  monotone : ∀ pre mid post op r r', calls = pre ++ (mid ++ post) →
    (registry.run reg pre).find op = some r → (registry.run reg (pre ++ mid)).find op = some r' →
    r'.authority.regresses r.authority = false
  /-- A `dispatch` with an older envelope than the current one is not accepted. -/
  older_refused : ∀ pre op e post r, calls = pre ++ .dispatch op e :: post →
    (registry.run reg pre).find op = some r → e.regresses r.authority = true →
    (registry.step (registry.run reg pre) (.dispatch op e)).2 ≠ .OK

/-- A `dispatch` of an operation without a recorded outcome brings no older envelope. -/
def dispatchAdvances (reg : OperationRegistry) : RegistryCall → Bool
  | .dispatch op e =>
    match reg.find op with
    | none => true
    | some r => r.terminalRecorded || !e.regresses r.authority
  | _ => true

section Advance

variable {reg : OperationRegistry} {op : OperationId} {r r' : OperationRuntime}

/-- **Step lemma.** Under the condition no authority regresses. -/
theorem regresses_step {c : RegistryCall} (hC : dispatchAdvances reg c = true)
    (hr : reg.find op = some r) :
    ∃ r', (registry.step reg c).1.find op = some r' ∧
      r'.authority.regresses r.authority = false := by
  obtain ⟨r', hr', heff⟩ := find_step_of_find (c := c) hr
  refine ⟨r', hr', ?_⟩
  rcases heff with rfl | ⟨rfl, heff⟩
  · exact AuthorityEnvelope.regresses_self _
  · rcases heff.authority_eq with hauth | ⟨hcall, hopen, hauth⟩
    · rw [hauth]
      exact AuthorityEnvelope.regresses_self _
    · rw [hcall] at hC
      rw [hauth]
      simpa [dispatchAdvances, hr, hopen] using hC

/-- **Run lemma.** Under the condition no authority regresses over a run. -/
theorem regresses_run {calls : List RegistryCall}
    (hC : registry.Always (fun reg c => dispatchAdvances reg c = true) reg calls)
    (hr : reg.find op = some r) (hr' : (registry.run reg calls).find op = some r') :
    r'.authority.regresses r.authority = false := by
  induction calls generalizing reg r with
  | nil =>
    obtain rfl : r = r' := Option.some.inj (hr.symm.trans hr')
    exact AuthorityEnvelope.regresses_self _
  | cons c calls ih =>
    obtain ⟨r₁, hr₁, hstep⟩ := regresses_step hC.1 hr
    exact AuthorityEnvelope.regresses_trans hstep (ih hC.2 hr₁ hr')

end Advance

/-- **The authority advances.** In a run of the registry, from any state, the authorities never
    regress exactly when every `dispatch` of an operation without a recorded outcome brings an
    envelope that is not older than the current one. -/
theorem authorityAdvances_iff (reg : OperationRegistry) (calls : List RegistryCall) :
    AuthorityAdvances reg calls ↔
      registry.Always (fun reg c => dispatchAdvances reg c = true) reg calls := by
  constructor
  · intro h
    rw [Machine.always_iff]
    rintro pre c post rfl
    cases c with
    | dispatch op e =>
      cases hr : (registry.run reg pre).find op with
      | none => simp [dispatchAdvances, hr]
      | some r =>
        simp only [dispatchAdvances, hr, Bool.or_eq_true, Bool.not_eq_true']
        cases hopen : r.terminalRecorded with
        | true => exact Or.inl rfl
        | false =>
          -- `dispatch` binds the envelope, so the authority after it is the envelope
          right
          obtain ⟨r', hr', rfl⟩ := find_dispatch hr hopen e
          rw [← Machine.run_concat] at hr'
          exact h.monotone pre [.dispatch op _] post op r r' rfl hr hr'
    | create | run | reportCompletion | confirmCompletion | reportFailure | transition
    | recordTerminal => rfl
  · intro hC
    refine ⟨?_, ?_⟩
    · rintro pre mid post op r r' rfl hr hr'
      have hmid := ((Machine.always_append _ _ _ _).mp hC).2
      rw [Machine.run_append] at hr'
      exact regresses_run ((Machine.always_append _ _ _ _).mp hmid).1 hr hr'
    · rintro pre op e post r rfl hr holder
      have hstep := Machine.always_iff.mp hC pre _ post rfl
      have hrec : r.terminalRecorded = true := by
        simpa [dispatchAdvances, hr, holder] using hstep
      have hfound : (registry.run reg pre).find (RegistryCall.dispatch op e).op = some r := hr
      rw [registry_step_result, hfound]
      show (r.dispatch e).2 ≠ .OK
      unfold OperationRuntime.dispatch
      rw [if_pos hrec]
      simp

/-- The operation of the runs below. -/
def boundOp : OperationId := ⟨.ofByte 2⟩

/-- The envelope of the first attempt. -/
def firstAttempt : AuthorityEnvelope where
  coordinatorEpoch := ⟨1⟩
  workerBoot := ⟨.ofByte 8⟩
  attempt := ⟨.ofByte 3⟩
  attemptGeneration := ⟨1⟩
  dispatch := ⟨.ofByte 4⟩
  operationGeneration := ⟨1⟩

/-- The envelope of the attempt that supersedes it. -/
def secondAttempt : AuthorityEnvelope where
  coordinatorEpoch := ⟨1⟩
  workerBoot := ⟨.ofByte 9⟩
  attempt := ⟨.ofByte 5⟩
  attemptGeneration := ⟨2⟩
  dispatch := ⟨.ofByte 6⟩
  operationGeneration := ⟨2⟩

/-- A fresh attempt takes over, and then the `dispatch` of the first one is repeated. -/
def replayedDispatch : List RegistryCall :=
  [.create boundOp firstAttempt, .dispatch boundOp firstAttempt, .dispatch boundOp secondAttempt,
    .dispatch boundOp firstAttempt]

/-- The superseded attempt is authoritative again. -/
theorem superseded_bound_again :
    registry.outputs {} replayedDispatch = [.OK, .OK, .OK, .OK] ∧
      (registry.run {} (replayedDispatch.take 3)).currentAuthority boundOp = secondAttempt ∧
      (registry.run {} replayedDispatch).currentAuthority boundOp = firstAttempt ∧
      ¬ AuthorityAdvances {} replayedDispatch := by
  refine ⟨by decide, by decide, by decide, fun h => ?_⟩
  -- the repeated `dispatch` is older than the current authority, and is accepted
  have hr : (registry.run {} (replayedDispatch.take 3)).find boundOp =
      some { machine := ⟨.DISPATCHED⟩, authority := secondAttempt, attemptCount := 2 } := by
    decide
  exact h.older_refused _ _ _ [] _ rfl hr (by decide) (by decide)

/-! ### Refused calls -/

/-- The call is a `dispatch` that fails after it has bound another envelope: the operation is in a
    terminal state without a recorded outcome. -/
def rebinds (reg : OperationRegistry) : RegistryCall → Bool
  | .dispatch op e =>
    match reg.find op with
    | none => false
    | some r => !r.terminalRecorded && isTerminal r.machine.state && e != r.authority
  | _ => false

section Refused

variable {reg : OperationRegistry} {c : RegistryCall} {r r' : OperationRuntime}
  {res : ApplyResult}

/-- A refused call leaves the runtime that it found as it was, unless it rebinds it. -/
theorem RegistryCall.Effect.refused_eq (h : c.Effect r r' res) (hr : reg.find c.op = some r)
    (hres : res ≠ .OK) (hC : rebinds reg c = false) : r' = r := by
  cases h with
  | refused => rfl
  | repeated | dispatched | advanced | recorded => exact absurd rfl hres
  | rebound hcall hopen hterm =>
    obtain ⟨op, hop⟩ := hcall
    have hfound : reg.find op = some r := by
      rw [hop] at hr
      exact hr
    rw [hop] at hC
    have hsame : c.envelope = r.authority := by
      simpa [rebinds, hfound, hopen, hterm] using hC
    rw [hsame]

/-- A call on an unknown operation that does not return `OK` adds no operation. -/
theorem step_of_unknown (hnone : reg.find c.op = none) (hres : (registry.step reg c).2 ≠ .OK) :
    (registry.step reg c).1 = reg := by
  cases c with
  | create op e =>
    exact absurd ((registry_step_result reg _).trans (by rw [hnone]; rfl)) hres
  | dispatch | run | reportCompletion | confirmCompletion | reportFailure | transition
  | recordTerminal =>
    rw [registry_step_eq reg (by simp), OperationRegistry.withRuntime, hnone]

end Refused

/-- **Refused calls.** In any state of the registry, a call that does not return `OK` leaves every
    runtime as it was exactly when it is no `dispatch` that binds another envelope to an operation
    in a terminal state without a recorded outcome. -/
theorem rejected_unchanged_iff (reg : OperationRegistry) (c : RegistryCall) :
    ((registry.step reg c).2 ≠ .OK → (registry.step reg c).1 = reg) ↔ rebinds reg c = false := by
  constructor
  · intro h
    rw [← Bool.not_eq_true]
    intro hrebinds
    cases c with
    | dispatch op e =>
      cases hr : reg.find op with
      | none => simp [rebinds, hr] at hrebinds
      | some r =>
        simp only [rebinds, hr, Bool.and_eq_true, Bool.not_eq_true', bne_iff_ne, ne_eq]
          at hrebinds
        obtain ⟨⟨hopen, hterm⟩, hne⟩ := hrebinds
        have hfound : reg.find (RegistryCall.dispatch op e).op = some r := hr
        have hres : (registry.step reg (.dispatch op e)).2 ≠ .OK := by
          rw [registry_step_result, hfound]
          show (r.dispatch e).2 ≠ .OK
          unfold OperationRuntime.dispatch
          rw [if_neg (by simp [hopen])]
          dsimp only
          rw [if_pos hterm]
          simp
        obtain ⟨r', hr', hauth⟩ := find_dispatch hr hopen e
        rw [h hres] at hr'
        obtain rfl : r = r' := Option.some.inj (hr.symm.trans hr')
        exact hne hauth.symm
    | create | run | reportCompletion | confirmCompletion | reportFailure | transition
    | recordTerminal => simp [rebinds] at hrebinds
  · intro hC hres
    cases hr : reg.find c.op with
    | none => exact step_of_unknown hr hres
    | some r =>
      refine registry_step_eq_self hr ?_
      rw [registry_step_result, hr] at hres
      exact (c.effect r).refused_eq hr hres hC

/-- The operation fails, and a transition takes it to a terminal state without a record. -/
def cancelledRun : List RegistryCall :=
  [.create boundOp firstAttempt, .dispatch boundOp firstAttempt,
    .reportFailure boundOp firstAttempt false, .transition boundOp .CANCELLED firstAttempt]

/-- A `dispatch` of the cancelled operation fails, and binds its envelope all the same. -/
theorem refused_dispatch_binds :
    (registry.step (registry.run {} cancelledRun) (.dispatch boundOp secondAttempt)).2 =
        .ILLEGAL_TRANSITION ∧
      (registry.run {} cancelledRun).currentAuthority boundOp = firstAttempt ∧
      (registry.run {} (cancelledRun ++
        [.dispatch boundOp secondAttempt])).currentAuthority boundOp = secondAttempt ∧
      ¬ ((registry.step (registry.run {} cancelledRun) (.dispatch boundOp secondAttempt)).2 ≠ .OK →
        (registry.step (registry.run {} cancelledRun) (.dispatch boundOp secondAttempt)).1 =
          registry.run {} cancelledRun) := by
  refine ⟨by decide, by decide, by decide, fun h => ?_⟩
  have hbound := congrArg (·.currentAuthority boundOp) (h (by decide))
  exact absurd hbound (by decide)

end FailureFabric
