import FailureFabric.Registry

namespace FailureFabric

open Library

/-!
# Runs of the operation registry

Two properties of every run of the registry's calls, in any order and from any clients.

* `TerminalOnce` — an operation reaches one terminal outcome, records it through one call, and
  never changes afterwards.  `registry_terminalOnce` proves it of every run that starts empty.
* `StaleInvisible` — events for superseded attempts are invisible: erasing them changes neither
  the final registry nor any other result.  `registry_staleInvisible` proves it of every run.

Both are read off `RegistryCall.effect`, which says all that a call can do to a runtime.
-/

/-! ### One step, seen from one operation -/

section Step

variable {reg : OperationRegistry} {c : RegistryCall} {op : OperationId}

/-- A known operation stays known; a call of another operation leaves its runtime alone, and a
    call of its own has one of the effects. -/
theorem find_step_of_find {r : OperationRuntime} (hr : reg.find op = some r) :
    ∃ r', (registry.step reg c).1.find op = some r' ∧
      (r' = r ∨ c.op = op ∧ c.Effect r r' (registry.step reg c).2) := by
  by_cases hop : op = c.op
  · subst hop
    refine ⟨(c.onRuntime r).1, ?_, Or.inr ⟨rfl, ?_⟩⟩
    · exact registry_find_self reg hr
    · rw [registry_step_result, hr]
      exact c.effect r
  · exact ⟨r, by rw [registry_find_step, if_neg hop, hr], Or.inl rfl⟩

/-- **Inversion.** A runtime that is there after a call was there before, was created by it, or is
    what it made of the one that it found. -/
theorem find_of_step {r' : OperationRuntime} (h : (registry.step reg c).1.find op = some r') :
    reg.find op = some r' ∨
      (reg.find op = none ∧ ∃ e, c = .create op e ∧ r' = { authority := e }) ∨
      ∃ r, reg.find op = some r ∧ c.op = op ∧ r' = (c.onRuntime r).1 ∧
        c.Effect r r' (registry.step reg c).2 := by
  by_cases hop : op = c.op
  · subst hop
    cases hr : reg.find c.op with
    | none =>
      rw [registry_find_step, if_pos rfl, hr] at h
      cases c with
      | create op e => exact Or.inr (Or.inl ⟨rfl, e, rfl, (Option.some.inj h).symm⟩)
      | dispatch | run | reportCompletion | confirmCompletion | reportFailure | transition
      | recordTerminal => exact absurd h (by simp [RegistryCall.onFound, RegistryCall.onUnknown])
    | some r =>
      rw [registry_find_self reg hr] at h
      obtain rfl := Option.some.inj h
      refine Or.inr (Or.inr ⟨r, rfl, rfl, rfl, ?_⟩)
      rw [registry_step_result, hr]
      exact c.effect r
  · rw [registry_find_step, if_neg hop] at h
    exact Or.inl h

/-- **Invariant rule.** A property of runtimes that a created one has and every effect keeps
    holds of every runtime in every run that starts empty. -/
theorem registry_runtime_induction {P : OperationRuntime → Prop}
    (hcreate : ∀ e, P { authority := e })
    (heffect : ∀ (c : RegistryCall) r r' res, P r → c.Effect r r' res → P r')
    (calls : List RegistryCall) :
    ∀ op r, (registry.run {} calls).find op = some r → P r := by
  refine Machine.run_induction (M := registry)
    (P := fun reg => ∀ op r, reg.find op = some r → P r) ?_ ?_ calls
  · intro reg c ih op r' h
    rcases find_of_step h with hold | ⟨-, e, -, rfl⟩ | ⟨r, hr, -, -, heff⟩
    · exact ih op r' hold
    · exact hcreate e
    · exact heffect c r _ _ (ih op r hr) heff
  · intro op r h
    exact absurd h (by simp [OperationRegistry.find])

end Step

/-! ### One terminal outcome -/

namespace RegistryCall.Effect

variable {c : RegistryCall} {r r' : OperationRuntime} {res : ApplyResult}

/-- No effect leaves a terminal state: the two that change the state need an allowed transition,
    and `dispatch` resets the machine of a live operation only. -/
theorem state_of_isTerminal (h : c.Effect r r' res) (hterm : isTerminal r.machine.state = true) :
    r'.machine.state = r.machine.state := by
  cases h with
  | refused | repeated | rebound => rfl
  | dispatched _ _ hlive => rw [hterm] at hlive; exact absurd hlive (by simp)
  | advanced dst _ _ _ hallowed | recorded dst _ _ _ _ hallowed =>
    rw [isAllowed_of_isTerminal hterm dst] at hallowed
    exact absurd hallowed (by simp)

/-- A recorded runtime does not change in any field. -/
theorem eq_of_recorded (h : c.Effect r r' res) (hrec : r.terminalRecorded = true) : r' = r := by
  cases h with
  | refused | repeated => rfl
  | rebound _ hopen | dispatched _ hopen | advanced _ _ hopen | recorded _ _ _ hopen =>
    rw [hrec] at hopen
    exact absurd hopen (by simp)

/-- The call that records the outcome returns `OK`. -/
theorem ok_of_records (h : c.Effect r r' res) (hopen : r.terminalRecorded = false)
    (hrec : r'.terminalRecorded = true) : res = .OK := by
  cases h with
  | refused | rebound => rw [hopen] at hrec; exact absurd hrec (by simp)
  | repeated | dispatched | advanced | recorded => rfl

/-- A call that records the outcome is a fenced event that carries one and may move to a
    terminal state. -/
theorem records (h : c.Effect r r' res) (hopen : r.terminalRecorded = false)
    (hrec : r'.terminalRecorded = true) :
    c.Fenced r ∧ ∃ dst ∈ c.targets, isAllowed r.machine.state dst = true ∧
      isTerminal dst = true ∧ c.outcome.isSome = true := by
  cases h with
  | refused | rebound | dispatched | advanced => exact absurd (hopen.symm.trans hrec) (by simp)
  | repeated hrec' => exact absurd (hopen.symm.trans hrec') (by simp)
  | recorded dst outcome _ _ hfence hallowed hterm htarget hsome =>
    exact ⟨hfence, dst, htarget, hallowed, hterm, by rw [hsome]; rfl⟩

end RegistryCall.Effect

/-- A recorded outcome belongs to a terminal state and to the current attempt. -/
def OperationRuntime.RecordSound (r : OperationRuntime) : Prop :=
  r.terminalRecorded = true →
    isTerminal r.machine.state = true ∧
    (r.authority.attempt.isNull = false → r.terminal.attempt = r.authority.attempt)

/-- Every effect keeps `RecordSound`: the fences compare the attempt, so the envelope that is
    recorded names the current one. -/
theorem RegistryCall.Effect.recordSound {c : RegistryCall} {r r' : OperationRuntime}
    {res : ApplyResult} (hr : r.RecordSound) (h : c.Effect r r' res) : r'.RecordSound := by
  intro hrec
  cases h with
  | refused | repeated => exact hr hrec
  | rebound _ hopen | dispatched _ hopen | advanced _ _ hopen =>
    exact absurd (hopen.symm.trans hrec) (by simp)
  | recorded dst outcome _ _ hfence _ hterm =>
    refine ⟨hterm, fun hset => ?_⟩
    exact hfence.current.1 hset

/-- The terminal outcome of the operation is recorded. -/
def OperationRegistry.Recorded (reg : OperationRegistry) (op : OperationId) : Prop :=
  ∃ r, reg.find op = some r ∧ r.terminalRecorded = true

instance (reg : OperationRegistry) (op : OperationId) : Decidable (reg.Recorded op) :=
  decidable_of_iff ((reg.find op).any OperationRuntime.terminalRecorded = true)
    (by simp [OperationRegistry.Recorded, Option.any_eq_true])

theorem OperationRegistry.not_recorded {reg : OperationRegistry} {op : OperationId}
    {r : OperationRuntime} (hopen : ¬ reg.Recorded op) (hr : reg.find op = some r) :
    r.terminalRecorded = false := by
  rw [← Bool.not_eq_true]
  exact fun hrec => hopen ⟨r, hr, hrec⟩

/-- **Inversion.** A call that records the outcome of an operation finds it without one: `create`
    does not record. -/
theorem recorded_step {reg : OperationRegistry} {c : RegistryCall} {op : OperationId}
    (hopen : ¬ reg.Recorded op) (h : (registry.step reg c).1.Recorded op) :
    ∃ r r', reg.find op = some r ∧ r.terminalRecorded = false ∧ r'.terminalRecorded = true ∧
      c.op = op ∧ c.Effect r r' (registry.step reg c).2 := by
  obtain ⟨r', hr', hrec⟩ := h
  rcases find_of_step hr' with hold | ⟨-, e, -, rfl⟩ | ⟨r, hr, hop, -, heff⟩
  · exact absurd ⟨r', hold, hrec⟩ hopen
  · exact absurd hrec (by simp)
  · exact ⟨r, r', hr, OperationRegistry.not_recorded hopen hr, hrec, hop, heff⟩

/-- The run that starts empty splits at `c`, and `c` records the outcome of `op`. -/
def RecordsAt (calls : List RegistryCall) (op : OperationId) (pre : List RegistryCall)
    (c : RegistryCall) : Prop :=
  (∃ post, calls = pre ++ c :: post) ∧ ¬ (registry.run {} pre).Recorded op ∧
    (registry.run {} (pre ++ [c])).Recorded op

/-- The guarantee for one operation in one run that starts empty. -/
structure TerminalOnce (calls : List RegistryCall) (op : OperationId) : Prop where
  /-- Once the state is terminal it never changes again. -/
  state_stays : ∀ pre post r, calls = pre ++ post → (registry.run {} pre).find op = some r →
    isTerminal r.machine.state = true →
    ∃ r', (registry.run {} calls).find op = some r' ∧ r'.machine.state = r.machine.state
  /-- Once the outcome is recorded the runtime never changes again. -/
  runtime_stays : ∀ pre post r, calls = pre ++ post → (registry.run {} pre).find op = some r →
    r.terminalRecorded = true → (registry.run {} calls).find op = some r
  /-- A recorded outcome was recorded by a call of the run. -/
  recorded_by : (registry.run {} calls).Recorded op → ∃ pre c, RecordsAt calls op pre c
  /-- No two calls record it. -/
  recorded_once : ∀ pre c pre' c', RecordsAt calls op pre c → RecordsAt calls op pre' c' →
    pre = pre' ∧ c = c'
  /-- The call that records it returns `OK`. -/
  recorded_ok : ∀ pre c, RecordsAt calls op pre c →
    (registry.step (registry.run {} pre) c).2 = .OK
  /-- The record belongs to a terminal state and to the current attempt. -/
  record_sound : ∀ r, (registry.run {} calls).find op = some r → r.RecordSound

section Runs

variable {reg : OperationRegistry} {op : OperationId} {r : OperationRuntime}

theorem state_run_of_isTerminal (hr : reg.find op = some r)
    (hterm : isTerminal r.machine.state = true) (calls : List RegistryCall) :
    ∃ r', (registry.run reg calls).find op = some r' ∧ r'.machine.state = r.machine.state := by
  refine Machine.run_induction (M := registry)
    (P := fun reg => ∃ r', reg.find op = some r' ∧ r'.machine.state = r.machine.state)
    ?_ ⟨r, hr, rfl⟩ calls
  rintro reg c ⟨r₁, hr₁, hstate⟩
  obtain ⟨r₂, hr₂, rfl | ⟨-, heff⟩⟩ := find_step_of_find (c := c) hr₁
  · exact ⟨_, hr₂, hstate⟩
  · exact ⟨r₂, hr₂, (heff.state_of_isTerminal (by rw [hstate]; exact hterm)).trans hstate⟩

theorem find_run_of_recorded (hr : reg.find op = some r) (hrec : r.terminalRecorded = true)
    (calls : List RegistryCall) : (registry.run reg calls).find op = some r := by
  refine Machine.run_induction (M := registry) (P := fun reg => reg.find op = some r)
    ?_ hr calls
  intro reg c hr
  obtain ⟨r', hr', rfl | ⟨-, heff⟩⟩ := find_step_of_find (c := c) hr
  · exact hr'
  · rw [hr', heff.eq_of_recorded hrec]

theorem Recorded.run (h : reg.Recorded op) (calls : List RegistryCall) :
    (registry.run reg calls).Recorded op := by
  obtain ⟨r, hr, hrec⟩ := h
  exact ⟨r, find_run_of_recorded hr hrec calls, hrec⟩

/-- No call takes a record back, so no two calls of a run make it. -/
theorem RecordsAt.unique {calls pre pre' : List RegistryCall} {c c' : RegistryCall}
    (h : RecordsAt calls op pre c) (h' : RecordsAt calls op pre' c') : pre = pre' ∧ c = c' := by
  obtain ⟨⟨post, rfl⟩, hopen, hrec⟩ := h
  obtain ⟨⟨post', hsplit⟩, hopen', hrec'⟩ := h'
  exact Machine.flip_unique (M := registry) (P := fun reg => reg.Recorded op)
    (fun _ c hrec => Recorded.run hrec [c]) hsplit hopen hrec hopen' hrec'

/-- The call that records the outcome returns `OK`. -/
theorem RecordsAt.result {calls pre : List RegistryCall} {c : RegistryCall}
    (h : RecordsAt calls op pre c) : (registry.step (registry.run {} pre) c).2 = .OK := by
  obtain ⟨-, hopen, hrec⟩ := h
  rw [Machine.run_concat] at hrec
  obtain ⟨r, r', -, hopen', hrec', -, heff⟩ := recorded_step hopen hrec
  exact heff.ok_of_records hopen' hrec'

end Runs

/-! ### What every run keeps -/

section Keeps

variable {reg : OperationRegistry} {op : OperationId} {r : OperationRuntime}

/-- A known operation stays known. -/
theorem has_run (h : reg.has op = true) (calls : List RegistryCall) :
    (registry.run reg calls).has op = true := by
  refine Machine.run_induction (M := registry) (P := fun reg => reg.has op = true) ?_ h calls
  intro reg c h
  obtain ⟨r, hr⟩ := Option.isSome_iff_exists.mp h
  obtain ⟨r', hr', -⟩ := find_step_of_find (c := c) hr
  rw [OperationRegistry.has, hr']
  rfl

/-- A terminal state stays. -/
theorem isTerminal_state_run (h : isTerminal (reg.state op) = true) (calls : List RegistryCall) :
    isTerminal ((registry.run reg calls).state op) = true := by
  cases hr : reg.find op with
  | none =>
    rw [OperationRegistry.state, hr] at h
    exact absurd h (by decide)
  | some r =>
    rw [OperationRegistry.state, hr] at h
    obtain ⟨r', hr', hstate⟩ := state_run_of_isTerminal hr h calls
    rw [OperationRegistry.state, hr']
    show isTerminal r'.machine.state = true
    rw [hstate]
    exact h

/-- Calls that record no outcome leave an operation without a recorded one. -/
theorem not_recorded_run {calls : List RegistryCall} (hcalls : ∀ c ∈ calls, c.outcome = none)
    (h : ¬ reg.Recorded op) : ¬ (registry.run reg calls).Recorded op := by
  induction calls generalizing reg with
  | nil => exact h
  | cons c calls ih =>
    refine ih (fun c' hc' => hcalls c' (List.mem_cons_of_mem _ hc')) (fun hrec => ?_)
    obtain ⟨r, r', -, hopen, hrec', -, heff⟩ := recorded_step h hrec
    obtain ⟨-, -, -, -, -, hsome⟩ := heff.records hopen hrec'
    rw [hcalls c List.mem_cons_self] at hsome
    exact absurd hsome (by simp)

/-- `dispatch` grants an operation that is live and has no recorded outcome. -/
theorem dispatch_ok (hr : reg.find op = some r) (hopen : r.terminalRecorded = false)
    (hlive : isTerminal r.machine.state = false) (e : AuthorityEnvelope) :
    (registry.step reg (.dispatch op e)).2 = .OK := by
  have hfound : reg.find (RegistryCall.dispatch op e).op = some r := hr
  rw [registry_step_result, hfound]
  show (r.dispatch e).2 = .OK
  unfold OperationRuntime.dispatch
  rw [if_neg (by simp [hopen])]
  dsimp only
  rw [if_neg (by simp [hlive])]

end Keeps

/-- **One terminal outcome.** In every run of the registry that starts empty, every operation
    keeps its terminal state, records one outcome through one successful call, keeps its whole
    runtime from then on, and records it for the current attempt. -/
theorem registry_terminalOnce (calls : List RegistryCall) (op : OperationId) :
    TerminalOnce calls op where
  state_stays := by
    rintro pre post r rfl hr hterm
    rw [Machine.run_append]
    exact state_run_of_isTerminal hr hterm post
  runtime_stays := by
    rintro pre post r rfl hr hrec
    rw [Machine.run_append]
    exact find_run_of_recorded hr hrec post
  recorded_by := by
    intro hrec
    have hstart : ¬ OperationRegistry.Recorded {} op := by
      rintro ⟨r, hr, -⟩
      exact absurd hr (by simp [OperationRegistry.find])
    obtain ⟨pre, c, post, hsplit, hopen, hflip⟩ :=
      Machine.exists_flip (M := registry) (P := fun reg => reg.Recorded op) hstart hrec
    exact ⟨pre, c, ⟨post, hsplit⟩, hopen, hflip⟩
  recorded_once := fun _ _ _ _ h h' => h.unique h'
  recorded_ok := fun _ _ h => h.result
  record_sound := registry_runtime_induction (P := OperationRuntime.RecordSound)
    (fun e hrec => absurd hrec (by simp))
    (fun c r r' res hr heff => heff.recordSound hr) calls op

/-! ### Stale events are invisible -/

/-- In this registry the call is a stale event: it reports on a superseded attempt of a known
    operation. -/
def staleEvent (reg : OperationRegistry) (c : RegistryCall) : Bool :=
  c.isEvent &&
    match reg.find c.op with
    | none => false
    | some r => c.envelope.staleFor r.authority

/-- The guarantee for the stale events of one run. -/
structure StaleInvisible (reg : OperationRegistry) (calls : List RegistryCall) : Prop where
  /-- Without them the run ends in the same registry. -/
  state : registry.run reg (registry.erase staleEvent reg calls) = registry.run reg calls
  /-- Without them every other call has the same result. -/
  results : registry.outputs reg (registry.erase staleEvent reg calls) =
    registry.keptOutputs staleEvent reg calls
  /-- None returns `OK`, but a `record_terminal` that repeats the recorded outcome. -/
  refused : ∀ pre c post, calls = pre ++ c :: post →
    staleEvent (registry.run reg pre) c = true →
    (registry.step (registry.run reg pre) c).2 = .OK →
    ∃ r op e, (registry.run reg pre).find op = some r ∧ r.terminalRecorded = true ∧
      c = .recordTerminal op e r.terminalOutcome

section Stale

variable {reg : OperationRegistry} {c : RegistryCall}

theorem staleEvent_iff :
    staleEvent reg c = true ↔
      c.isEvent = true ∧ ∃ r, reg.find c.op = some r ∧
        c.envelope.staleFor r.authority = true := by
  unfold staleEvent
  rw [Bool.and_eq_true]
  cases reg.find c.op <;> simp

/-- A stale event does nothing to the runtime it finds: it is refused, or repeats the outcome. -/
theorem RegistryCall.Effect.of_stale {r r' : OperationRuntime} {res : ApplyResult}
    (h : c.Effect r r' res) (hevent : c.isEvent = true)
    (hstale : c.envelope.staleFor r.authority = true) :
    r' = r ∧ (res = .OK → r.terminalRecorded = true ∧
      ∃ op e, c = .recordTerminal op e r.terminalOutcome) := by
  cases h with
  | refused _ hres => exact ⟨rfl, fun h => absurd h hres⟩
  | repeated hrec hcall => exact ⟨rfl, fun _ => ⟨hrec, hcall⟩⟩
  | rebound hcall | dispatched hcall =>
    obtain ⟨op, hc⟩ := hcall
    rw [hc] at hevent
    exact absurd hevent (by simp [RegistryCall.isEvent])
  | advanced _ _ _ hfence | recorded _ _ _ _ hfence =>
    exact absurd (hfence.not_staleFor.symm.trans hstale) (by simp)

/-- A call that leaves the runtime it finds as it is leaves the registry as it is. -/
theorem registry_step_eq_self {r : OperationRuntime} (hr : reg.find c.op = some r)
    (hself : (c.onRuntime r).1 = r) : (registry.step reg c).1 = reg := by
  cases c with
  | create op e =>
    show (reg.create op e).1 = reg
    rw [OperationRegistry.create, show reg.find op = some r from hr]
  | dispatch | run | reportCompletion | confirmCompletion | reportFailure | transition
  | recordTerminal =>
    rw [registry_step_eq reg (by simp), OperationRegistry.withRuntime, hr]
    show (⟨reg.ops.insert _ _⟩ : OperationRegistry) = reg
    rw [hself, UnorderedMap.insert_lookup_self hr]

theorem step_of_staleEvent (h : staleEvent reg c = true) :
    (registry.step reg c).1 = reg ∧
      ((registry.step reg c).2 = .OK → ∃ r op e, reg.find op = some r ∧
        r.terminalRecorded = true ∧ c = .recordTerminal op e r.terminalOutcome) := by
  obtain ⟨hevent, r, hr, hstale⟩ := staleEvent_iff.mp h
  obtain ⟨hself, hok⟩ := (c.effect r).of_stale hevent hstale
  refine ⟨registry_step_eq_self hr hself, ?_⟩
  rw [registry_step_result, hr]
  intro hres
  obtain ⟨hrec, op, e, hc⟩ := hok hres
  refine ⟨r, op, e, ?_, hrec, hc⟩
  rw [hc] at hr
  exact hr

end Stale

/-- **Stale events are invisible.** In every run of the registry, from any state, erasing the
    stale events changes neither the final registry nor any other result. -/
theorem registry_staleInvisible (reg : OperationRegistry) (calls : List RegistryCall) :
    StaleInvisible reg calls where
  state := Machine.run_erase (fun _ _ h => (step_of_staleEvent h).1) reg calls
  results := Machine.outputs_erase (fun _ _ h => (step_of_staleEvent h).1) reg calls
  refused := fun _ _ _ _ hstale => (step_of_staleEvent hstale).2

end FailureFabric
