import FailureFabric.Binding

namespace FailureFabric

open Library

/-!
# Terminal states and recorded outcomes

Whether an operation has ended is kept twice: as the state of its machine, and as a flag with the
envelope and the outcome text of the call that ended it.  The two are meant to agree.

* `terminalAgrees_iff` — every terminal state is recorded exactly when no call of `transition`
  enters one: `transition` takes any target and sets no record.
* `outcomesAgree_iff` — the text names the state exactly when every `record_terminal` brings a
  text that fits the state in which it finds the operation: the state that it enters depends on
  that state alone.
-/

/-! ### The record of a terminal state -/

/-- The call that took the operation to a terminal state carried the envelope. -/
def EndedBy (calls : List RegistryCall) (op : OperationId) (e : AuthorityEnvelope) : Prop :=
  ∃ pre c post, calls = pre ++ c :: post ∧ c.op = op ∧ c.envelope = e ∧
    isTerminal ((registry.run {} pre).state op) = false ∧
    isTerminal ((registry.run {} (pre ++ [c])).state op) = true

/-- The guarantee for the terminal states of one run that starts empty. -/
structure TerminalAgrees (calls : List RegistryCall) : Prop where
  /-- A terminal state is recorded, with the envelope of the call that entered it. -/
  recorded : ∀ pre post op r, calls = pre ++ post → (registry.run {} pre).find op = some r →
    isTerminal r.machine.state = true → r.terminalRecorded = true ∧ EndedBy pre op r.terminal
  /-- From then on every call but `record_terminal` is answered `ALREADY_TERMINAL`. -/
  answered : ∀ pre post c, calls = pre ++ post →
    isTerminal ((registry.run {} pre).state c.op) = true → (∀ op e o, c ≠ .recordTerminal op e o) →
    (registry.step (registry.run {} pre) c).2 = .ALREADY_TERMINAL

/-- The call is no `transition` that enters a terminal state. -/
def transitionStays (reg : OperationRegistry) : RegistryCall → Bool
  | .transition op dst e =>
    match reg.find op with
    | none => true
    | some r => r.terminalRecorded || !(fenceFailure e r.authority).accepted ||
        !isAllowed r.machine.state dst || !isTerminal dst
  | _ => true

section Terminal

variable {reg : OperationRegistry} {c : RegistryCall} {op : OperationId} {r r' : OperationRuntime}
  {res : ApplyResult}

/-- A call that ends the operation records its envelope, or is a `transition`. -/
theorem RegistryCall.Effect.ends (h : c.Effect r r' res)
    (hlive : isTerminal r.machine.state = false) (hterm : isTerminal r'.machine.state = true) :
    (r'.terminalRecorded = true ∧ r'.terminal = c.envelope) ∨
      ∃ op dst e, c = .transition op dst e ∧ isTerminal dst = true ∧ r.terminalRecorded = false ∧
        isAllowed r.machine.state dst = true ∧ (fenceFailure e r.authority).accepted = true := by
  cases h with
  | refused | repeated | rebound => exact absurd (hlive.symm.trans hterm) (by simp)
  | dispatched => exact absurd hterm (by simp [isTerminal])
  | recorded => exact Or.inl ⟨rfl, rfl⟩
  | advanced dst hevent hopen hfence hallowed htarget hnone =>
    right
    cases c with
    | transition op dst' e =>
      obtain rfl : dst = dst' := List.mem_singleton.mp htarget
      exact ⟨op, dst, e, rfl, hterm, hopen, hallowed, hfence⟩
    | create | dispatch => exact absurd htarget List.not_mem_nil
    | confirmCompletion | recordTerminal => exact absurd hnone (by simp [RegistryCall.outcome])
    | run =>
      obtain rfl := List.mem_singleton.mp htarget
      exact absurd hterm (by simp [isTerminal])
    | reportCompletion _ _ p =>
      obtain rfl := List.mem_singleton.mp htarget
      cases p <;> exact absurd hterm (by simp [isTerminal])
    | reportFailure _ _ a =>
      obtain rfl := List.mem_singleton.mp htarget
      cases a <;> exact absurd hterm (by simp [isTerminal])

/-- **Step lemma.** Under the condition the call that ends an operation records its envelope. -/
theorem ends_step (hC : transitionStays reg c = true)
    (hlive : isTerminal (reg.state op) = false)
    (hterm : isTerminal ((registry.step reg c).1.state op) = true) :
    c.op = op ∧ ∃ r', (registry.step reg c).1.find op = some r' ∧ r'.terminalRecorded = true ∧
      r'.terminal = c.envelope := by
  cases hr' : (registry.step reg c).1.find op with
  | none =>
    rw [OperationRegistry.state, hr'] at hterm
    exact absurd hterm (by decide)
  | some r' =>
    rw [OperationRegistry.state, hr'] at hterm
    rcases find_of_step hr' with hold | ⟨-, e, -, rfl⟩ | ⟨r, hr, rfl, -, heff⟩
    · rw [OperationRegistry.state, hold] at hlive
      exact absurd (hlive.symm.trans hterm) (by simp)
    · -- a created operation is not terminal
      exact absurd hterm (by simp [isTerminal])
    · rw [OperationRegistry.state, hr] at hlive
      rcases heff.ends hlive hterm with ⟨hrec, henv⟩ | ⟨op, dst, e, rfl, hdst, hopen, hok, hfence⟩
      · exact ⟨rfl, r', rfl, hrec, henv⟩
      · have hfound : reg.find op = some r := hr
        simp [transitionStays, hfound, hopen, hok, hfence, hdst] at hC

/-- **Run lemma.** Under the condition a terminal state is recorded, with the envelope of the call
    that entered it. -/
theorem ends_run {calls : List RegistryCall}
    (hC : registry.Always (fun reg c => transitionStays reg c = true) {} calls)
    (hr : (registry.run {} calls).find op = some r) (hterm : isTerminal r.machine.state = true) :
    r.terminalRecorded = true ∧ EndedBy calls op r.terminal := by
  have hstart : ¬ isTerminal (OperationRegistry.state {} op) = true := by
    simp [OperationRegistry.state, OperationRegistry.find, isTerminal]
  have hend : isTerminal ((registry.run {} calls).state op) = true := by
    rw [OperationRegistry.state, hr]
    exact hterm
  obtain ⟨pre, c, post, rfl, hlive, hflip⟩ := Machine.exists_flip (M := registry)
    (P := fun reg => isTerminal (reg.state op) = true) hstart hend
  rw [Bool.not_eq_true] at hlive
  have hstep := hflip
  rw [Machine.run_concat] at hstep
  have hstays := Machine.always_iff.mp hC pre c post rfl
  obtain ⟨hop, r', hr', hrec, henv⟩ := ends_step hstays hlive hstep
  -- what is recorded does not change any more
  have hlast : (registry.run {} (pre ++ c :: post)).find op = some r' := by
    rw [Machine.run_append]
    exact find_run_of_recorded hr' hrec post
  obtain rfl : r = r' := Option.some.inj (hr.symm.trans hlast)
  exact ⟨hrec, pre, c, post, rfl, hop, henv.symm, hlive, hflip⟩

/-- On a recorded operation every call but `record_terminal` is answered `ALREADY_TERMINAL`. -/
theorem result_of_recorded (hr : reg.find c.op = some r) (hrec : r.terminalRecorded = true)
    (hc : ∀ op e o, c ≠ .recordTerminal op e o) :
    (registry.step reg c).2 = .ALREADY_TERMINAL := by
  rw [registry_step_result, hr]
  show (c.onRuntime r).2 = .ALREADY_TERMINAL
  cases c with
  | recordTerminal op e o => exact absurd rfl (hc op e o)
  | create => rfl
  | dispatch op e =>
    show (r.dispatch e).2 = _
    rw [OperationRuntime.dispatch, if_pos hrec]
  | run op e =>
    show (r.run e).2 = _
    rw [OperationRuntime.run, if_pos hrec]
  | reportCompletion op e p =>
    show (r.reportCompletion e p).2 = _
    rw [OperationRuntime.reportCompletion, if_pos hrec]
  | confirmCompletion op e =>
    show (r.confirmCompletion e).2 = _
    rw [OperationRuntime.confirmCompletion, if_pos hrec]
  | reportFailure op e a =>
    show (r.reportFailure e a).2 = _
    rw [OperationRuntime.reportFailure, if_pos hrec]
  | transition op dst e =>
    show (r.transition e dst).2 = _
    rw [OperationRuntime.transition, if_pos hrec]

/-- A `transition` that passes the fence and the table moves the machine and records nothing. -/
theorem transition_moves {dst : OperationState} {e : AuthorityEnvelope}
    (hr : reg.find op = some r) (hopen : r.terminalRecorded = false)
    (hfence : (fenceFailure e r.authority).accepted = true)
    (hallowed : isAllowed r.machine.state dst = true) :
    (registry.step reg (.transition op dst e)).1.find op = some { r with machine := ⟨dst⟩ } := by
  have hbody : (r.transition e dst).1 = { r with machine := ⟨dst⟩ } := by
    unfold OperationRuntime.transition
    rw [if_neg (by simp [hopen]), if_neg (by simp [hfence]), OperationStateMachine.transition,
      if_pos hallowed]
  exact (registry_find_self reg (c := .transition op dst e) hr).trans (congrArg some hbody)

end Terminal

/-- **Terminal states are recorded.** In a run of the registry that starts empty, every terminal
    state is recorded with the envelope of the call that entered it, and answered
    `ALREADY_TERMINAL` from then on, exactly when no `transition` enters one. -/
theorem terminalAgrees_iff (calls : List RegistryCall) :
    TerminalAgrees calls ↔
      registry.Always (fun reg c => transitionStays reg c = true) {} calls := by
  constructor
  · intro h
    rw [Machine.always_iff]
    rintro pre c post rfl
    cases c with
    | transition op dst e =>
      rw [← Bool.not_eq_false]
      intro henters
      cases hr : (registry.run {} pre).find op with
      | none => simp [transitionStays, hr] at henters
      | some r =>
        simp only [transitionStays, hr, Bool.or_eq_false_iff, Bool.not_eq_false'] at henters
        obtain ⟨⟨⟨hopen, hfence⟩, hallowed⟩, hterm⟩ := henters
        have hr' := transition_moves hr hopen hfence hallowed
        rw [← Machine.run_concat] at hr'
        have hsplit : pre ++ .transition op dst e :: post = pre ++ [.transition op dst e] ++ post :=
          by simp
        have hrec := (h.recorded _ post op _ hsplit hr' hterm).1
        exact absurd (hopen.symm.trans hrec) (by simp)
    | create | dispatch | run | reportCompletion | confirmCompletion | reportFailure
    | recordTerminal => rfl
  · intro hC
    have hrecorded : ∀ pre post op r, calls = pre ++ post →
        (registry.run {} pre).find op = some r → isTerminal r.machine.state = true →
        r.terminalRecorded = true ∧ EndedBy pre op r.terminal := by
      rintro pre post op r rfl hr hterm
      exact ends_run ((Machine.always_append _ _ _ _).mp hC).1 hr hterm
    refine ⟨hrecorded, ?_⟩
    intro pre post c hsplit hterm hc
    cases hr : (registry.run {} pre).find c.op with
    | none =>
      rw [OperationRegistry.state, hr] at hterm
      exact absurd hterm (by decide)
    | some r =>
      rw [OperationRegistry.state, hr] at hterm
      exact result_of_recorded hr (hrecorded pre post c.op r hsplit hr hterm).1 hc

/-- The cancelled operation is in a terminal state, its outcome is not recorded, and it never will
    be: `record_terminal` finds no transition. -/
theorem cancelled_not_recorded :
    (registry.run {} cancelledRun).find boundOp =
        some { machine := ⟨.CANCELLED⟩, authority := firstAttempt, attemptCount := 1 } ∧
      (registry.step (registry.run {} cancelledRun)
        (.recordTerminal boundOp firstAttempt (.ofLiteral "CANCELLED"))).2 = .ILLEGAL_TRANSITION ∧
      ¬ TerminalAgrees cancelledRun := by
  have hr : (registry.run {} cancelledRun).find boundOp =
      some { machine := ⟨.CANCELLED⟩, authority := firstAttempt, attemptCount := 1 } := by
    decide
  refine ⟨hr, by decide, fun h => ?_⟩
  have hrec := (h.recorded cancelledRun [] boundOp _ (List.append_nil _).symm hr rfl).1
  exact absurd hrec (by simp)

/-! ### The text of an outcome -/

/-- `to_string(OperationState)`. -/
def OperationState.text : OperationState → Text
  | CREATED => .ofLiteral "CREATED"
  | DISPATCHED => .ofLiteral "DISPATCHED"
  | RUNNING => .ofLiteral "RUNNING"
  | COMPLETION_REPORTED => .ofLiteral "COMPLETION_REPORTED"
  | COMPLETION_CONFIRMED => .ofLiteral "COMPLETION_CONFIRMED"
  | FAILED_KNOWN => .ofLiteral "FAILED_KNOWN"
  | FAILED_AMBIGUOUS => .ofLiteral "FAILED_AMBIGUOUS"
  | PARTIALLY_SUCCEEDED => .ofLiteral "PARTIALLY_SUCCEEDED"
  | RETRY_PENDING => .ofLiteral "RETRY_PENDING"
  | RETRYING => .ofLiteral "RETRYING"
  | ROLLBACK_PENDING => .ofLiteral "ROLLBACK_PENDING"
  | ROLLING_BACK => .ofLiteral "ROLLING_BACK"
  | COMPENSATION_PENDING => .ofLiteral "COMPENSATION_PENDING"
  | COMPENSATING => .ofLiteral "COMPENSATING"
  | RECOVERY_PENDING => .ofLiteral "RECOVERY_PENDING"
  | RECOVERING => .ofLiteral "RECOVERING"
  | RECOVERED => .ofLiteral "RECOVERED"
  | TERMINAL_FAILED => .ofLiteral "TERMINAL_FAILED"
  | CANCELLED => .ofLiteral "CANCELLED"
  | ABANDONED => .ofLiteral "ABANDONED"
  | unnamed .. => .ofLiteral "UNKNOWN"

/-- The text names the terminal state: it is `COMPLETED` for the confirmed state alone, and it is
    the name of no other terminal state. -/
def Names (o : Text) (s : OperationState) : Prop :=
  (o = completedText ↔ s = .COMPLETION_CONFIRMED) ∧
    ∀ s' ∈ [OperationState.TERMINAL_FAILED, .CANCELLED, .RECOVERED, .ABANDONED],
      o = s'.text → s = s'

/-- A recorded outcome names the state of the machine. -/
def OperationRuntime.OutcomeAgrees (r : OperationRuntime) : Prop :=
  r.terminalRecorded = true → Names r.terminalOutcome r.machine.state

/-- The text fits an operation that `record_terminal` finds in the state: it is not the text of
    another ending than the one that the transition table leads to first. -/
def OperationState.fits (s : OperationState) (o : Text) : Bool :=
  match s with
  | COMPLETION_REPORTED => o = completedText
  | DISPATCHED | RUNNING | RETRY_PENDING | RETRYING | ROLLBACK_PENDING | COMPENSATION_PENDING =>
    o ∉ [completedText, TERMINAL_FAILED.text, RECOVERED.text, ABANDONED.text]
  | FAILED_KNOWN | FAILED_AMBIGUOUS | PARTIALLY_SUCCEEDED | ROLLING_BACK | COMPENSATING
  | RECOVERY_PENDING | RECOVERING =>
    o ∉ [completedText, CANCELLED.text, RECOVERED.text, ABANDONED.text]
  | _ => true

/-- A `record_terminal` that may record brings a text that fits. -/
def recordFits (reg : OperationRegistry) : RegistryCall → Bool
  | .recordTerminal op e o =>
    match reg.find op with
    | none => true
    | some r => r.terminalRecorded || !(fenceFailure e r.authority).accepted ||
        r.machine.state.fits o
  | _ => true

/-- The state to which `record_terminal` leads, if it leads to one. -/
def OperationState.ending (s : OperationState) : Option OperationState :=
  [TERMINAL_FAILED, CANCELLED, RECOVERED, ABANDONED, COMPLETION_CONFIRMED].find? (isAllowed s)

theorem names_confirmed (o : Text) : Names o .COMPLETION_CONFIRMED ↔ o = completedText := by
  constructor
  · exact fun h => h.1.mpr rfl
  · rintro rfl
    refine ⟨by simp, fun s' hs' heq => ?_⟩
    simp only [List.mem_cons, List.not_mem_nil, or_false] at hs'
    rcases hs' with rfl | rfl | rfl | rfl <;> exact absurd heq (by decide)

theorem names_cancelled (o : Text) :
    Names o .CANCELLED ↔ o ∉ [completedText, OperationState.TERMINAL_FAILED.text,
      OperationState.RECOVERED.text, OperationState.ABANDONED.text] := by
  simp [Names]

theorem names_failed (o : Text) :
    Names o .TERMINAL_FAILED ↔ o ∉ [completedText, OperationState.CANCELLED.text,
      OperationState.RECOVERED.text, OperationState.ABANDONED.text] := by
  simp [Names]

/-- A code that no enumerator names leads nowhere. -/
theorem isAllowed_unnamed (code : UInt32) (hle : 20 ≤ code) (dst : OperationState) :
    isAllowed (.unnamed code hle) dst = false := by
  have hrange : 20 ≤ code.toNat := UInt32.le_iff_toNat_le.mp hle
  simp [isAllowed, OperationState.code, hrange]

/-- **Table lemma.** A text fits a state exactly when it names the state that `record_terminal`
    leads to. -/
theorem fits_iff {s dst : OperationState} (h : s.ending = some dst) (o : Text) :
    s.fits o = true ↔ Names o dst := by
  cases s with
  | CREATED | COMPLETION_CONFIRMED | RECOVERED | TERMINAL_FAILED | CANCELLED | ABANDONED =>
    exact absurd h (by decide +revert)
  | unnamed code hle =>
    simp [OperationState.ending, isAllowed_unnamed] at h
  | COMPLETION_REPORTED =>
    obtain rfl : OperationState.COMPLETION_CONFIRMED = dst := Option.some.inj h
    rw [names_confirmed, OperationState.fits, decide_eq_true_eq]
  | DISPATCHED | RUNNING | RETRY_PENDING | RETRYING | ROLLBACK_PENDING | COMPENSATION_PENDING =>
    obtain rfl : OperationState.CANCELLED = dst := Option.some.inj h
    rw [names_cancelled, OperationState.fits, decide_eq_true_eq]
  | FAILED_KNOWN | FAILED_AMBIGUOUS | PARTIALLY_SUCCEEDED | ROLLING_BACK | COMPENSATING
  | RECOVERY_PENDING | RECOVERING =>
    obtain rfl : OperationState.TERMINAL_FAILED = dst := Option.some.inj h
    rw [names_failed, OperationState.fits, decide_eq_true_eq]

/-- Where `record_terminal` leads nowhere every text fits. -/
theorem fits_of_ending_none {s : OperationState} (h : s.ending = none) (o : Text) :
    s.fits o = true := by
  cases s with
  | CREATED | COMPLETION_CONFIRMED | RECOVERED | TERMINAL_FAILED | CANCELLED | ABANDONED
  | unnamed => rfl
  | DISPATCHED | RUNNING | COMPLETION_REPORTED | FAILED_KNOWN | FAILED_AMBIGUOUS
  | PARTIALLY_SUCCEEDED | RETRY_PENDING | RETRYING | ROLLBACK_PENDING | ROLLING_BACK
  | COMPENSATION_PENDING | COMPENSATING | RECOVERY_PENDING | RECOVERING =>
    exact absurd h (by decide)

section Record

variable {reg : OperationRegistry} {c : RegistryCall} {op : OperationId} {r r' : OperationRuntime}
  {res : ApplyResult}

/-- What `record_terminal` makes of a runtime without a recorded outcome. -/
theorem recordTerminal_eq (hopen : r.terminalRecorded = false) (e : AuthorityEnvelope) (o : Text) :
    r.recordTerminal e o =
      if (fenceFailure e r.authority).accepted then
        match r.machine.state.ending with
        | none => (r, .ILLEGAL_TRANSITION)
        | some dst => ({ r with machine := ⟨dst⟩, terminalRecorded := true, terminal := e,
                                terminalOutcome := o }, .OK)
      else (r, .STALE_REJECTED) := by
  unfold OperationRuntime.recordTerminal OperationState.ending
  rw [if_neg (by simp [hopen]), OperationStateMachine.firstTransition_eq_find]
  cases (fenceFailure e r.authority).accepted with
  | false => rfl
  | true =>
    rw [if_neg (by simp), if_pos rfl]
    cases List.find? (isAllowed r.machine.state)
      [.TERMINAL_FAILED, .CANCELLED, .RECOVERED, .ABANDONED, .COMPLETION_CONFIRMED] <;> rfl

/-- **Step lemma.** Under the condition a call keeps the text and the state in agreement. -/
theorem outcomeAgrees_onRuntime (hC : recordFits reg c = true) (hr : reg.find c.op = some r)
    (hagrees : r.OutcomeAgrees) : (c.onRuntime r).1.OutcomeAgrees := by
  intro hrec
  cases hopen : r.terminalRecorded with
  | true =>
    have hself := (c.effect r).eq_of_recorded hopen
    rw [hself] at hrec ⊢
    exact hagrees hrec
  | false =>
    cases c with
    | recordTerminal op e o =>
      have hfound : reg.find op = some r := hr
      have hfits : (fenceFailure e r.authority).accepted = true →
          r.machine.state.fits o = true := by
        simpa [recordFits, hfound, hopen, Bool.or_eq_true, imp_iff_not_or] using hC
      change (r.recordTerminal e o).1.terminalRecorded = true at hrec
      show Names (r.recordTerminal e o).1.terminalOutcome (r.recordTerminal e o).1.machine.state
      rw [recordTerminal_eq hopen] at hrec ⊢
      split_ifs at hrec ⊢ with hfence
      · cases hend : r.machine.state.ending with
        | none => simp [hend, hopen] at hrec
        | some dst => exact (fits_iff hend o).mp (hfits hfence)
      · exact absurd (hopen.symm.trans hrec) (by simp)
    | confirmCompletion op e =>
      generalize hrun : (RegistryCall.confirmCompletion op e).onRuntime r = p at hrec ⊢
      have heff := (RegistryCall.confirmCompletion op e).effect r
      rw [hrun] at heff
      obtain ⟨r', res⟩ := p
      cases heff with
      | refused | rebound | dispatched | advanced =>
        exact absurd (hopen.symm.trans hrec) (by simp)
      | repeated hrec' => exact absurd (hopen.symm.trans hrec') (by simp)
      | recorded dst outcome _ _ _ _ _ htarget hsome =>
        obtain rfl : dst = .COMPLETION_CONFIRMED := List.mem_singleton.mp htarget
        obtain rfl : completedText = outcome := Option.some.inj hsome
        exact (names_confirmed _).mpr rfl
    | create | dispatch | run | reportCompletion | reportFailure | transition =>
      -- the other calls record no outcome
      obtain ⟨-, _, -, -, -, hsome⟩ := (RegistryCall.effect r _).records hopen hrec
      exact absurd hsome (by simp [RegistryCall.outcome])

/-- **Run lemma.** Under the condition every recorded outcome names the state. -/
theorem outcomeAgrees_run {calls : List RegistryCall}
    (hC : registry.Always (fun reg c => recordFits reg c = true) {} calls)
    (hr : (registry.run {} calls).find op = some r) : r.OutcomeAgrees := by
  refine Machine.always_induction (M := registry)
    (P := fun reg => ∀ op r, reg.find op = some r → r.OutcomeAgrees) ?_ ?_ hC op r hr
  · intro reg c hC ih op r' hr'
    rcases find_of_step hr' with hold | ⟨-, e, -, rfl⟩ | ⟨r, hr, rfl, rfl, -⟩
    · exact ih op r' hold
    · exact fun hrec => absurd hrec (by simp)
    · exact outcomeAgrees_onRuntime hC hr (ih _ r hr)
  · intro op r hr
    exact absurd hr (by simp [OperationRegistry.find])

end Record

/-- In every state of the run that starts empty, every recorded outcome names the state of its
    operation. -/
def OutcomesAgree (calls : List RegistryCall) : Prop :=
  ∀ pre post op r, calls = pre ++ post → (registry.run {} pre).find op = some r → r.OutcomeAgrees

/-- **The outcome names the state.** In a run of the registry that starts empty, every recorded
    outcome names the state that was reached exactly when every `record_terminal` that passes the
    fence brings a text that fits the state in which it finds the operation. -/
theorem outcomesAgree_iff (calls : List RegistryCall) :
    OutcomesAgree calls ↔ registry.Always (fun reg c => recordFits reg c = true) {} calls := by
  constructor
  · intro h
    rw [Machine.always_iff]
    rintro pre c post rfl
    cases c with
    | recordTerminal op e o =>
      cases hr : (registry.run {} pre).find op with
      | none => simp [recordFits, hr]
      | some r =>
        simp only [recordFits, hr, Bool.or_eq_true, Bool.not_eq_true']
        cases hopen : r.terminalRecorded with
        | true => exact Or.inl (Or.inl rfl)
        | false =>
          cases hfence : (fenceFailure e r.authority).accepted with
          | false => exact Or.inl (Or.inr rfl)
          | true =>
            right
            cases hend : r.machine.state.ending with
            | none => exact fits_of_ending_none hend o
            | some dst =>
              -- the call records the text for the state that it leads to
              have hbody : (r.recordTerminal e o).1 =
                  { r with machine := ⟨dst⟩, terminalRecorded := true, terminal := e,
                           terminalOutcome := o } := by
                rw [recordTerminal_eq hopen, if_pos hfence, hend]
              have hr' := (registry_find_self (registry.run {} pre)
                (c := .recordTerminal op e o) hr).trans (congrArg some hbody)
              have hsplit : pre ++ .recordTerminal op e o :: post =
                  (pre ++ [.recordTerminal op e o]) ++ post := by simp
              rw [← Machine.run_concat] at hr'
              exact (fits_iff hend o).mpr (h _ post op _ hsplit hr' rfl)
    | create | dispatch | run | reportCompletion | confirmCompletion | reportFailure
    | transition => rfl
  · rintro hC pre post op r rfl hr
    exact outcomeAgrees_run ((Machine.always_append _ _ _ _).mp hC).1 hr

/-- The operation fails, and its outcome is then recorded as `COMPLETED`. -/
def completedFailure : List RegistryCall :=
  [.create boundOp firstAttempt, .dispatch boundOp firstAttempt,
    .reportFailure boundOp firstAttempt false, .recordTerminal boundOp firstAttempt completedText]

/-- The text says `COMPLETED`, and the state says that the operation has failed. -/
theorem failure_recorded_completed :
    (registry.run {} completedFailure).find boundOp =
        some { machine := ⟨.TERMINAL_FAILED⟩, authority := firstAttempt, terminal := firstAttempt,
               terminalRecorded := true, attemptCount := 1, terminalOutcome := completedText } ∧
      ¬ OutcomesAgree completedFailure := by
  have hr : (registry.run {} completedFailure).find boundOp =
      some { machine := ⟨.TERMINAL_FAILED⟩, authority := firstAttempt, terminal := firstAttempt,
             terminalRecorded := true, attemptCount := 1, terminalOutcome := completedText } := by
    decide
  refine ⟨hr, fun h => ?_⟩
  have hnames := h completedFailure [] boundOp _ (List.append_nil _).symm hr rfl
  exact absurd (hnames.1.mp rfl) (by decide)

end FailureFabric
