import FailureFabric.Operation
import FailureFabric.Idempotency

namespace FailureFabric

open Library

/-!
# The operation registry

The registry ties the guarded state machine of each operation to authority fencing and records
one terminal outcome.  Every call finds the runtime of its operation and then works on that
runtime alone, so each call is written twice: as a function of the runtime it found (the body of
the source's method) and as the method, which looks the operation up first.

* `OperationRuntime.dispatch`, `.run`, … — the bodies;
* `OperationRegistry.create`, `.dispatch`, `.run`, … — the methods;
* `RegistryCall`, `registry` — the calls as the inputs of one machine;
* `registry_find_step` — a call changes the runtime of its own operation only, by
  `RegistryCall.onFound`;
* `RegistryCall.Effect`, `RegistryCall.effect` — everything a call can do to a runtime it finds.
-/

/-- `ApplyResult`. -/
inductive ApplyResult
  | OK | STALE_REJECTED | ILLEGAL_TRANSITION | ALREADY_TERMINAL
  | CONFLICT | UNKNOWN_OPERATION | FENCED | ALREADY_REPORTED
deriving DecidableEq, Repr

/-- `OperationRuntime`. -/
structure OperationRuntime where
  machine : OperationStateMachine := {}
  /-- The current authoritative attempt envelope. -/
  authority : AuthorityEnvelope := {}
  /-- Set once a terminal outcome is recorded. -/
  terminal : AuthorityEnvelope := {}
  terminalRecorded : Bool := false
  attemptCount : UInt32 := 0
  terminalOutcome : Text := []
  idempotent : Bool := false
  idemKey : IdempotencyKey := {}
deriving DecidableEq

/-- The outcome text of a confirmed completion. -/
def completedText : Text := Text.ofLiteral "COMPLETED"

namespace OperationRuntime

variable (r : OperationRuntime) (attempt : AuthorityEnvelope)

/-- The body of `dispatch`.  The authority is bound before the terminal state is looked at. -/
def dispatch : OperationRuntime × ApplyResult :=
  if r.terminalRecorded then (r, .ALREADY_TERMINAL)
  else
    let bound := { r with authority := attempt }
    let s := r.machine.state
    if isTerminal s then (bound, .ILLEGAL_TRANSITION)
    else
      let reset := if s ≠ .DISPATCHED then { bound with machine := r.machine.reset .DISPATCHED }
        else bound
      ({ reset with attemptCount := r.attemptCount + 1 }, .OK)

/-- The body of `run`. -/
def run : OperationRuntime × ApplyResult :=
  if r.terminalRecorded then (r, .ALREADY_TERMINAL)
  else if !(fenceFailure attempt r.authority).accepted then (r, .STALE_REJECTED)
  else match r.machine.transition .RUNNING with
    | (false, _) => (r, .ILLEGAL_TRANSITION)
    | (true, m) => ({ r with machine := m }, .OK)

/-- The body of `report_completion`. -/
def reportCompletion (partialSuccess : Bool) : OperationRuntime × ApplyResult :=
  if r.terminalRecorded then (r, .ALREADY_TERMINAL)
  else if !(fenceCompletion attempt r.authority r.terminal).accepted then (r, .STALE_REJECTED)
  else if r.machine.state = .COMPLETION_REPORTED || r.machine.state = .COMPLETION_CONFIRMED then
    (r, .ALREADY_REPORTED)
  else match r.machine.transition
      (if partialSuccess then .PARTIALLY_SUCCEEDED else .COMPLETION_REPORTED) with
    | (false, _) => (r, .ILLEGAL_TRANSITION)
    | (true, m) => ({ r with machine := m }, .OK)

/-- The body of `confirm_completion`. -/
def confirmCompletion : OperationRuntime × ApplyResult :=
  if r.terminalRecorded then (r, .ALREADY_TERMINAL)
  else if !(fenceCompletion attempt r.authority r.terminal).accepted then (r, .STALE_REJECTED)
  else match r.machine.transition .COMPLETION_CONFIRMED with
    | (false, _) => (r, .ILLEGAL_TRANSITION)
    | (true, m) =>
      ({ r with machine := m, terminalRecorded := true, terminal := attempt,
                terminalOutcome := completedText }, .OK)

/-- The body of `report_failure`. -/
def reportFailure (ambiguous : Bool) : OperationRuntime × ApplyResult :=
  if r.terminalRecorded then (r, .ALREADY_TERMINAL)
  else if !(fenceFailure attempt r.authority).accepted then (r, .STALE_REJECTED)
  else match r.machine.transition
      (if ambiguous then .FAILED_AMBIGUOUS else .FAILED_KNOWN) with
    | (false, _) => (r, .ILLEGAL_TRANSITION)
    | (true, m) => ({ r with machine := m }, .OK)

/-- The body of `transition`. -/
def transition (dst : OperationState) : OperationRuntime × ApplyResult :=
  if r.terminalRecorded then (r, .ALREADY_TERMINAL)
  else if !(fenceFailure attempt r.authority).accepted then (r, .STALE_REJECTED)
  else match r.machine.transition dst with
    | (false, _) => (r, .ILLEGAL_TRANSITION)
    | (true, m) => ({ r with machine := m }, .OK)

/-- The body of `record_terminal`. -/
def recordTerminal (outcome : Text) : OperationRuntime × ApplyResult :=
  if r.terminalRecorded then
    if r.terminalOutcome = outcome then (r, .OK) else (r, .ALREADY_TERMINAL)
  else if !(fenceFailure attempt r.authority).accepted then (r, .STALE_REJECTED)
  else match r.machine.firstTransition
      [.TERMINAL_FAILED, .CANCELLED, .RECOVERED, .ABANDONED, .COMPLETION_CONFIRMED] with
    | (false, _) => (r, .ILLEGAL_TRANSITION)
    | (true, m) =>
      ({ r with machine := m, terminalRecorded := true, terminal := attempt,
                terminalOutcome := outcome }, .OK)

end OperationRuntime

/-- `OperationRegistry`. -/
structure OperationRegistry where
  ops : UnorderedMap OperationId OperationRuntime := ∅

namespace OperationRegistry

variable (reg : OperationRegistry)

/-- `find`. -/
def find (op : OperationId) : Option OperationRuntime := reg.ops.lookup op

/-- `has`. -/
def has (op : OperationId) : Bool := (reg.find op).isSome

/-- `state`. -/
def state (op : OperationId) : OperationState :=
  match reg.find op with
  | none => .CREATED
  | some r => r.machine.state

/-- `current_authority`. -/
def currentAuthority (op : OperationId) : AuthorityEnvelope :=
  match reg.find op with
  | none => {}
  | some r => r.authority

/-- Find the operation, or answer `UNKNOWN_OPERATION`, and work on its runtime in place. -/
def withRuntime (op : OperationId)
    (body : OperationRuntime → OperationRuntime × ApplyResult) :
    OperationRegistry × ApplyResult :=
  match reg.find op with
  | none => (reg, .UNKNOWN_OPERATION)
  | some r => let (r', result) := body r; (⟨reg.ops.insert op r'⟩, result)

/-- `OperationRegistry::create`. -/
def create (op : OperationId) (initial : AuthorityEnvelope) : OperationRegistry × ApplyResult :=
  match reg.find op with
  | some _ => (reg, .ALREADY_TERMINAL)
  | none => (⟨reg.ops.insert op { authority := initial }⟩, .OK)

/-- `OperationRegistry::dispatch`. -/
def dispatch (op : OperationId) (attempt : AuthorityEnvelope) : OperationRegistry × ApplyResult :=
  reg.withRuntime op (·.dispatch attempt)

/-- `OperationRegistry::run`. -/
def run (op : OperationId) (attempt : AuthorityEnvelope) : OperationRegistry × ApplyResult :=
  reg.withRuntime op (·.run attempt)

/-- `OperationRegistry::report_completion`. -/
def reportCompletion (op : OperationId) (attempt : AuthorityEnvelope) (partialSuccess : Bool) :
    OperationRegistry × ApplyResult :=
  reg.withRuntime op (·.reportCompletion attempt partialSuccess)

/-- `OperationRegistry::confirm_completion`. -/
def confirmCompletion (op : OperationId) (attempt : AuthorityEnvelope) :
    OperationRegistry × ApplyResult :=
  reg.withRuntime op (·.confirmCompletion attempt)

/-- `OperationRegistry::report_failure`. -/
def reportFailure (op : OperationId) (attempt : AuthorityEnvelope) (ambiguous : Bool) :
    OperationRegistry × ApplyResult :=
  reg.withRuntime op (·.reportFailure attempt ambiguous)

/-- `OperationRegistry::transition`. -/
def transition (op : OperationId) (dst : OperationState) (attempt : AuthorityEnvelope) :
    OperationRegistry × ApplyResult :=
  reg.withRuntime op (·.transition attempt dst)

/-- `OperationRegistry::record_terminal`. -/
def recordTerminal (op : OperationId) (attempt : AuthorityEnvelope) (outcome : Text) :
    OperationRegistry × ApplyResult :=
  reg.withRuntime op (·.recordTerminal attempt outcome)

/-- `OperationRegistry::restore`: the result and the registry after the call. -/
def restore (op : OperationId) (rt : OperationRuntime) : OperationRegistry × Bool :=
  match reg.find op with
  | some _ => (reg, false)
  | none => (⟨reg.ops.insert op rt⟩, true)

end OperationRegistry

/-! ### The calls as one machine -/

/-- The calls of a run: every mutating method except `clear` and `restore`. -/
inductive RegistryCall
  | create (op : OperationId) (initial : AuthorityEnvelope)
  | dispatch (op : OperationId) (attempt : AuthorityEnvelope)
  | run (op : OperationId) (attempt : AuthorityEnvelope)
  | reportCompletion (op : OperationId) (attempt : AuthorityEnvelope) (partialSuccess : Bool)
  | confirmCompletion (op : OperationId) (attempt : AuthorityEnvelope)
  | reportFailure (op : OperationId) (attempt : AuthorityEnvelope) (ambiguous : Bool)
  | transition (op : OperationId) (dst : OperationState) (attempt : AuthorityEnvelope)
  | recordTerminal (op : OperationId) (attempt : AuthorityEnvelope) (outcome : Text)
deriving DecidableEq

namespace RegistryCall

/-- The operation of the call. -/
def op : RegistryCall → OperationId
  | create op _ | dispatch op _ | run op _ | reportCompletion op _ _ | confirmCompletion op _
  | reportFailure op _ _ | transition op _ _ | recordTerminal op _ _ => op

/-- The envelope of the call. -/
def envelope : RegistryCall → AuthorityEnvelope
  | create _ e | dispatch _ e | run _ e | reportCompletion _ e _ | confirmCompletion _ e
  | reportFailure _ e _ | transition _ _ e | recordTerminal _ e _ => e

/-- The call is an event: it reports on an attempt and does not bind one. -/
def isEvent : RegistryCall → Bool
  | create .. | dispatch .. => false
  | run .. | reportCompletion .. | confirmCompletion .. | reportFailure .. | transition ..
  | recordTerminal .. => true

/-- What the call does to the runtime it finds. -/
def onRuntime (r : OperationRuntime) : RegistryCall → OperationRuntime × ApplyResult
  | create .. => (r, .ALREADY_TERMINAL)
  | dispatch _ e => r.dispatch e
  | run _ e => r.run e
  | reportCompletion _ e p => r.reportCompletion e p
  | confirmCompletion _ e => r.confirmCompletion e
  | reportFailure _ e a => r.reportFailure e a
  | transition _ dst e => r.transition e dst
  | recordTerminal _ e o => r.recordTerminal e o

/-- What the call does when the operation is unknown. -/
def onUnknown : RegistryCall → Option OperationRuntime × ApplyResult
  | create _ e => (some { authority := e }, .OK)
  | _ => (none, .UNKNOWN_OPERATION)

/-- The runtime of the call's operation after the call, and the result. -/
def onFound (c : RegistryCall) : Option OperationRuntime → Option OperationRuntime × ApplyResult
  | none => c.onUnknown
  | some r => (some (c.onRuntime r).1, (c.onRuntime r).2)

end RegistryCall

/-- The registry as a machine. -/
def registry : Machine OperationRegistry RegistryCall ApplyResult where
  step reg
    | .create op e => reg.create op e
    | .dispatch op e => reg.dispatch op e
    | .run op e => reg.run op e
    | .reportCompletion op e p => reg.reportCompletion op e p
    | .confirmCompletion op e => reg.confirmCompletion op e
    | .reportFailure op e a => reg.reportFailure op e a
    | .transition op dst e => reg.transition op dst e
    | .recordTerminal op e o => reg.recordTerminal op e o

section Step

variable (reg : OperationRegistry)

theorem OperationRegistry.find_withRuntime (op op' : OperationId)
    (body : OperationRuntime → OperationRuntime × ApplyResult) :
    (reg.withRuntime op body).1.find op' =
      if op' = op then (reg.find op).map (fun r => (body r).1) else reg.find op' := by
  unfold OperationRegistry.withRuntime
  cases h : reg.find op with
  | none =>
    by_cases hop : op' = op
    · subst hop; rw [if_pos rfl]; exact h
    · rw [if_neg hop]
  | some r => exact UnorderedMap.lookup_insert' reg.ops op op' _

theorem OperationRegistry.withRuntime_result (op : OperationId)
    (body : OperationRuntime → OperationRuntime × ApplyResult) :
    (reg.withRuntime op body).2 =
      match reg.find op with
      | none => .UNKNOWN_OPERATION
      | some r => (body r).2 := by
  unfold OperationRegistry.withRuntime
  cases reg.find op <;> rfl

theorem OperationRegistry.find_create (op op' : OperationId) (initial : AuthorityEnvelope) :
    (reg.create op initial).1.find op' =
      if op' = op then some ((reg.find op).getD { authority := initial }) else reg.find op' := by
  unfold OperationRegistry.create
  cases h : reg.find op with
  | none => exact UnorderedMap.lookup_insert' reg.ops op op' _
  | some r =>
    by_cases hop : op' = op
    · subst hop; rw [if_pos rfl]; exact h
    · rw [if_neg hop]

theorem OperationRegistry.create_result (op : OperationId) (initial : AuthorityEnvelope) :
    (reg.create op initial).2 = if (reg.find op).isSome then .ALREADY_TERMINAL else .OK := by
  unfold OperationRegistry.create
  cases reg.find op <;> rfl

/-- Every call but `create` works on the runtime it finds. -/
theorem registry_step_eq {c : RegistryCall} (h : ∀ op e, c ≠ .create op e) :
    registry.step reg c = reg.withRuntime c.op (fun r => c.onRuntime r) := by
  cases c
  case create op e => exact absurd rfl (h op e)
  all_goals rfl

theorem RegistryCall.onUnknown_eq {c : RegistryCall} (h : ∀ op e, c ≠ .create op e) :
    c.onUnknown = (none, .UNKNOWN_OPERATION) := by
  cases c
  case create op e => exact absurd rfl (h op e)
  all_goals rfl

/-- **Step lemma.** A call changes the runtime of its own operation by `onFound`, and no other
    runtime. -/
theorem registry_find_step (c : RegistryCall) (op : OperationId) :
    (registry.step reg c).1.find op =
      if op = c.op then (c.onFound (reg.find c.op)).1 else reg.find op := by
  by_cases hc : ∀ op e, c ≠ .create op e
  · rw [registry_step_eq reg hc, OperationRegistry.find_withRuntime]
    cases h : reg.find c.op <;> simp [RegistryCall.onFound, RegistryCall.onUnknown_eq hc]
  · simp only [ne_eq, not_forall, not_not] at hc
    obtain ⟨op', e, rfl⟩ := hc
    refine (OperationRegistry.find_create reg op' op e).trans ?_
    rw [RegistryCall.op]
    cases h : reg.find op' <;> rfl

/-- A call on a known operation leaves what its body makes of the runtime. -/
theorem registry_find_self {c : RegistryCall} {r : OperationRuntime}
    (hr : reg.find c.op = some r) :
    (registry.step reg c).1.find c.op = some (c.onRuntime r).1 := by
  rw [registry_find_step, if_pos rfl, hr]
  rfl

/-- The result of a call is that of `onFound`. -/
theorem registry_step_result (c : RegistryCall) :
    (registry.step reg c).2 = (c.onFound (reg.find c.op)).2 := by
  by_cases hc : ∀ op e, c ≠ .create op e
  · rw [registry_step_eq reg hc, OperationRegistry.withRuntime_result]
    cases h : reg.find c.op <;> simp [RegistryCall.onFound, RegistryCall.onUnknown_eq hc]
  · simp only [ne_eq, not_forall, not_not] at hc
    obtain ⟨op', e, rfl⟩ := hc
    refine (OperationRegistry.create_result reg op' e).trans ?_
    rw [RegistryCall.op]
    cases h : reg.find op' <;> rfl

end Step

/-! ### Everything a call can do to a runtime -/

namespace RegistryCall

/-- The fence that the event passes: completions have their own. -/
def fence (r : OperationRuntime) : RegistryCall → FenceResult
  | reportCompletion _ e _ | confirmCompletion _ e => fenceCompletion e r.authority r.terminal
  | c => fenceFailure c.envelope r.authority

/-- The envelope of the event passes its fence. -/
def Fenced (c : RegistryCall) (r : OperationRuntime) : Prop := (c.fence r).accepted = true

/-- The states that the event may move to. -/
def targets : RegistryCall → List OperationState
  | create .. | dispatch .. => []
  | run .. => [.RUNNING]
  | reportCompletion _ _ p => [if p then .PARTIALLY_SUCCEEDED else .COMPLETION_REPORTED]
  | confirmCompletion .. => [.COMPLETION_CONFIRMED]
  | reportFailure _ _ a => [if a then .FAILED_AMBIGUOUS else .FAILED_KNOWN]
  | transition _ dst _ => [dst]
  | recordTerminal .. =>
    [.TERMINAL_FAILED, .CANCELLED, .RECOVERED, .ABANDONED, .COMPLETION_CONFIRMED]

/-- The outcome text that the event records, if it records one. -/
def outcome : RegistryCall → Option Text
  | confirmCompletion .. => some completedText
  | recordTerminal _ _ o => some o
  | _ => none

/-- What both fences demand: the current attempt, and no older epoch or attempt generation. -/
theorem Fenced.current {c : RegistryCall} {r : OperationRuntime} (h : c.Fenced r) :
    (r.authority.attempt.isNull = false → c.envelope.attempt = r.authority.attempt) ∧
      ¬ c.envelope.coordinatorEpoch < r.authority.coordinatorEpoch ∧
      ¬ c.envelope.attemptGeneration < r.authority.attemptGeneration := by
  cases c with
  | reportCompletion | confirmCompletion =>
    obtain ⟨-, hepoch, hattempt, -, -, hgen, -⟩ := (fenceCompletion_accepted_iff _ _ _).mp h
    exact ⟨hattempt, hepoch, hgen⟩
  | create | dispatch | run | reportFailure | transition | recordTerminal =>
    obtain ⟨-, hepoch, hattempt, hgen, -⟩ := (fenceFailure_accepted_iff _ _).mp h
    exact ⟨hattempt, hepoch, hgen⟩

/-- A fenced call is not stale. -/
theorem Fenced.not_staleFor {c : RegistryCall} {r : OperationRuntime} (h : c.Fenced r) :
    c.envelope.staleFor r.authority = false := by
  obtain ⟨hattempt, hepoch, hgen⟩ := h.current
  rw [← Bool.not_eq_true]
  intro hstale
  simp only [AuthorityEnvelope.staleFor, Bool.or_eq_true, Bool.and_eq_true, decide_eq_true_eq,
    Bool.not_eq_true', bne_iff_ne, ne_eq] at hstale
  tauto

/-- What a call does to a runtime it finds: the new runtime and the result. -/
inductive Effect (c : RegistryCall) (r : OperationRuntime) : OperationRuntime → ApplyResult → Prop
  /-- The call is refused and changes nothing. -/
  | refused (res : ApplyResult) (hres : res ≠ .OK) : Effect c r r res
  /-- `record_terminal` repeats the recorded outcome. -/
  | repeated (hrec : r.terminalRecorded = true)
      (hcall : ∃ op e, c = .recordTerminal op e r.terminalOutcome) : Effect c r r .OK
  /-- `dispatch` binds the authority of a terminal operation without a record, and fails. -/
  | rebound (hcall : ∃ op, c = .dispatch op c.envelope) (hopen : r.terminalRecorded = false)
      (hterm : isTerminal r.machine.state = true) :
      Effect c r { r with authority := c.envelope } .ILLEGAL_TRANSITION
  /-- `dispatch` binds a fresh attempt. -/
  | dispatched (hcall : ∃ op, c = .dispatch op c.envelope) (hopen : r.terminalRecorded = false)
      (hlive : isTerminal r.machine.state = false) :
      Effect c r { r with authority := c.envelope, machine := ⟨.DISPATCHED⟩,
                          attemptCount := r.attemptCount + 1 } .OK
  /-- A fenced event takes an allowed transition. -/
  | advanced (dst : OperationState) (hevent : c.isEvent = true)
      (hopen : r.terminalRecorded = false) (hfence : c.Fenced r)
      (hallowed : isAllowed r.machine.state dst = true) (htarget : dst ∈ c.targets)
      (hnone : c.outcome = none) :
      Effect c r { r with machine := ⟨dst⟩ } .OK
  /-- A fenced event takes an allowed transition to a terminal state and records the outcome. -/
  | recorded (dst : OperationState) (outcome : Text) (hevent : c.isEvent = true)
      (hopen : r.terminalRecorded = false) (hfence : c.Fenced r)
      (hallowed : isAllowed r.machine.state dst = true) (hterm : isTerminal dst = true)
      (htarget : dst ∈ c.targets) (hsome : c.outcome = some outcome) :
      Effect c r { r with machine := ⟨dst⟩, terminalRecorded := true, terminal := c.envelope,
                          terminalOutcome := outcome } .OK

end RegistryCall

namespace RegistryCall

variable (r : OperationRuntime)

/-- The recorded check that the calls share. -/
private theorem effect_unless_recorded {c : RegistryCall} {body : OperationRuntime × ApplyResult}
    (hbody : r.terminalRecorded = false → Effect c r body.1 body.2) :
    Effect c r (if r.terminalRecorded then (r, .ALREADY_TERMINAL) else body).1
      (if r.terminalRecorded then (r, .ALREADY_TERMINAL) else body).2 := by
  cases hrec : r.terminalRecorded with
  | true => exact .refused _ (by simp)
  | false => exact hbody hrec

/-- The fence behind it. -/
private theorem effect_unless_stale {c : RegistryCall} {fence : FenceResult}
    {body : OperationRuntime × ApplyResult}
    (hbody : fence.accepted = true → Effect c r body.1 body.2) :
    Effect c r (if !fence.accepted then (r, .STALE_REJECTED) else body).1
      (if !fence.accepted then (r, .STALE_REJECTED) else body).2 := by
  cases hacc : fence.accepted with
  | true => exact hbody hacc
  | false => exact .refused _ (by simp)

private theorem effect_dispatch (op : OperationId) (e : AuthorityEnvelope) :
    Effect (.dispatch op e) r (r.dispatch e).1 (r.dispatch e).2 := by
  unfold OperationRuntime.dispatch
  refine effect_unless_recorded r (fun hopen => ?_)
  dsimp only
  by_cases hterm : isTerminal r.machine.state = true
  · rw [if_pos hterm]
    exact .rebound (c := .dispatch op e) ⟨op, rfl⟩ hopen hterm
  · have hlive : isTerminal r.machine.state = false := by simpa using hterm
    rw [if_neg hterm]
    have h := Effect.dispatched (c := .dispatch op e) (r := r) ⟨op, rfl⟩ hopen hlive
    by_cases hs : r.machine.state ≠ .DISPATCHED
    · rw [if_pos hs]
      exact h
    · -- the machine is not reset when it is in `DISPATCHED` already
      rw [if_neg hs]
      rw [show (⟨.DISPATCHED⟩ : OperationStateMachine) = r.machine by
        rw [← not_not.mp hs]] at h
      exact h

/-- The shape that four of the events share: the recorded check, a fence, one transition. -/
private theorem effect_guarded {c : RegistryCall} (hevent : c.isEvent = true)
    (dst : OperationState) {fence : FenceResult} (hfence : fence.accepted = true → c.Fenced r)
    (htarget : dst ∈ c.targets) (hnone : c.outcome = none) :
    let body : OperationRuntime × ApplyResult :=
      if r.terminalRecorded then (r, .ALREADY_TERMINAL)
      else if !fence.accepted then (r, .STALE_REJECTED)
      else match r.machine.transition dst with
        | (false, _) => (r, .ILLEGAL_TRANSITION)
        | (true, m) => ({ r with machine := m }, .OK)
    Effect c r body.1 body.2 := by
  refine effect_unless_recorded r (fun hopen => effect_unless_stale r (fun hacc => ?_))
  rcases htr : r.machine.transition dst with ⟨ok, m⟩
  cases ok with
  | false => exact .refused _ (by simp)
  | true =>
    obtain ⟨hallowed, rfl⟩ := OperationStateMachine.transition_true htr
    exact .advanced dst hevent hopen (hfence hacc) hallowed htarget hnone

private theorem effect_reportCompletion (op : OperationId) (e : AuthorityEnvelope) (p : Bool) :
    Effect (.reportCompletion op e p) r (r.reportCompletion e p).1 (r.reportCompletion e p).2 := by
  unfold OperationRuntime.reportCompletion
  by_cases hrep : (decide (r.machine.state = .COMPLETION_REPORTED) ||
      decide (r.machine.state = .COMPLETION_CONFIRMED)) = true
  · rw [if_pos hrep]
    split
    · exact .refused _ (by simp)
    · split <;> exact .refused _ (by simp)
  · rw [if_neg hrep]
    exact effect_guarded r rfl _ (fun h => h) List.mem_cons_self rfl

private theorem effect_confirmCompletion (op : OperationId) (e : AuthorityEnvelope) :
    Effect (.confirmCompletion op e) r (r.confirmCompletion e).1 (r.confirmCompletion e).2 := by
  unfold OperationRuntime.confirmCompletion
  refine effect_unless_recorded r (fun hopen => effect_unless_stale r (fun hacc => ?_))
  rcases htr : r.machine.transition .COMPLETION_CONFIRMED with ⟨ok, m⟩
  cases ok with
  | false => exact .refused _ (by simp)
  | true =>
    obtain ⟨hallowed, rfl⟩ := OperationStateMachine.transition_true htr
    exact .recorded (c := .confirmCompletion op e) _ completedText rfl hopen hacc
      hallowed rfl List.mem_cons_self rfl

private theorem effect_recordTerminal (op : OperationId) (e : AuthorityEnvelope) (o : Text) :
    Effect (.recordTerminal op e o) r (r.recordTerminal e o).1 (r.recordTerminal e o).2 := by
  unfold OperationRuntime.recordTerminal
  by_cases hrec : r.terminalRecorded = true
  · rw [if_pos hrec]
    by_cases ho : r.terminalOutcome = o
    · rw [if_pos ho]
      exact .repeated hrec ⟨op, e, by rw [ho]⟩
    · rw [if_neg ho]
      exact .refused _ (by simp)
  · have hopen : r.terminalRecorded = false := by simpa using hrec
    rw [if_neg hrec]
    refine effect_unless_stale r (fun hacc => ?_)
    rcases htr : r.machine.firstTransition
      [.TERMINAL_FAILED, .CANCELLED, .RECOVERED, .ABANDONED, .COMPLETION_CONFIRMED]
      with ⟨ok, m⟩
    cases ok with
    | false => exact .refused _ (by simp)
    | true =>
      obtain ⟨dst, hmem, hallowed, rfl⟩ := OperationStateMachine.firstTransition_true htr
      have hterm : isTerminal dst = true := by
        have hcases := hmem
        simp only [List.mem_cons, List.not_mem_nil, or_false] at hcases
        rcases hcases with rfl | rfl | rfl | rfl | rfl <;> rfl
      exact .recorded (c := .recordTerminal op e o) dst o rfl hopen hacc hallowed hterm hmem rfl

/-- **Inversion lemma.** Every call has one of the six effects on the runtime it finds. -/
theorem effect (c : RegistryCall) : c.Effect r (c.onRuntime r).1 (c.onRuntime r).2 := by
  cases c with
  | create op e => exact .refused .ALREADY_TERMINAL (by decide)
  | dispatch op e => exact effect_dispatch r op e
  | run op e => exact effect_guarded r rfl _ (fun h => h) List.mem_cons_self rfl
  | reportCompletion op e p => exact effect_reportCompletion r op e p
  | confirmCompletion op e => exact effect_confirmCompletion r op e
  | reportFailure op e a => exact effect_guarded r rfl _ (fun h => h) List.mem_cons_self rfl
  | transition op dst e => exact effect_guarded r rfl _ (fun h => h) List.mem_cons_self rfl
  | recordTerminal op e o => exact effect_recordTerminal r op e o

end RegistryCall

end FailureFabric
