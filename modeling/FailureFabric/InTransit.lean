import FailureFabric.Handshake

namespace FailureFabric

open Library

/-!
# Work in transit

From the moment an operation is dispatched to the moment its completion is recorded, the work on it
is in one of six places: with the thread that will send it, on its way to a worker, with a worker
that begins, with a worker that works, in a report that is on its way, or with the thread that
confirms the report.  What has to come before is there too: a report of the end finds the operation
running, because the worker has announced that it runs.

* `InTransit` — the six places;
* `Passes`, `InTransit.passes` — a step of the coordinator that leaves the work where it is, or
  moves it on;
* `InTransit.peer` — a step of a worker or of a client.
-/

/-- What a thread has received and not handled yet. -/
def Pc.atHand : Pc → List WireMessage
  | handle m => [m]
  | _ => []

/-- What the coordinator has still to handle of a connection, in order. -/
def Cluster.incoming (s : Cluster) (c : ConnId) : List WireMessage :=
  (s.coord.pc c).atHand ++ s.toCoord c

/-- The message is of the type, and about the operation under the authority. -/
structure WireMessage.Tells (m : WireMessage) (type : ProtocolMessage) (op : OperationId)
    (e : AuthorityEnvelope) : Prop where
  type : m.type = type
  isFor : m.IsFor op e

/-! ### The runtime of an operation that is worked on -/

/-- Nothing is recorded of the operation, and its authority is set. -/
structure OperationRuntime.Open (r : OperationRuntime) : Prop where
  unrecorded : r.terminalRecorded = false
  terminal : r.terminal.isUnset = true
  authority : r.authority.isUnset = false

/-- The operation is dispatched, and maybe running. -/
def OperationRuntime.InWork (r : OperationRuntime) : Prop :=
  r.machine.state = .DISPATCHED ∨ r.machine.state = .RUNNING

section Runtime

variable {r : OperationRuntime} {e : AuthorityEnvelope}

/-- `run` leaves the runtime alone, or the operation runs. -/
theorem OperationRuntime.run_cases (r : OperationRuntime) (e : AuthorityEnvelope) :
    (r.run e).1 = r ∨ (r.run e).1 = { r with machine := ⟨.RUNNING⟩ } ∧
      isAllowed r.machine.state .RUNNING = true := by
  unfold run
  split_ifs
  · exact Or.inl rfl
  · exact Or.inl rfl
  · unfold OperationStateMachine.transition
    split_ifs with hallowed
    · exact Or.inr ⟨rfl, hallowed⟩
    · exact Or.inl rfl

/-- An operation that is worked on runs when its own authority says so. -/
theorem OperationRuntime.Open.run_self (h : r.Open) (hr : r.InWork) :
    (r.run r.authority).1.machine.state = .RUNNING := by
  unfold run
  rw [h.unrecorded, fenceFailure_self h.authority]
  rcases hr with hstate | hstate
  · have hallowed : isAllowed .DISPATCHED .RUNNING = true := by decide
    simp [OperationStateMachine.transition, hstate, hallowed]
  · have hallowed : isAllowed .RUNNING .RUNNING = false := by decide
    simp [OperationStateMachine.transition, hstate, hallowed]

/-- A report of the end is refused and leaves the runtime alone, or it passes the fence and the
    completion is reported. -/
theorem OperationRuntime.reportCompletion_cases (r : OperationRuntime) (e : AuthorityEnvelope) :
    (r.reportCompletion e false).2 ≠ .OK ∧ (r.reportCompletion e false).1 = r ∨
      (r.reportCompletion e false).2 = .OK ∧
        (r.reportCompletion e false).1 = { r with machine := ⟨.COMPLETION_REPORTED⟩ } ∧
        (fenceCompletion e r.authority r.terminal).accepted = true := by
  unfold reportCompletion
  rw [if_neg Bool.false_ne_true]
  split_ifs with hrec hfence hreported
  · exact Or.inl ⟨by simp, rfl⟩
  · exact Or.inl ⟨by simp, rfl⟩
  · exact Or.inl ⟨by simp, rfl⟩
  · unfold OperationStateMachine.transition
    split_ifs
    · exact Or.inr ⟨rfl, rfl, by simpa using hfence⟩
    · exact Or.inl ⟨by simp, rfl⟩

/-- An envelope passes its own completion fence as long as nothing is recorded. -/
theorem OperationRuntime.Open.fence_self (h : r.Open) :
    (fenceCompletion r.authority r.authority r.terminal).accepted = true := by
  have hirrefl : ∀ g : Generation, ¬ g < g := fun g => by
    rw [Generation.lt_iff]
    exact Nat.lt_irrefl _
  rw [fenceCompletion_accepted_iff]
  refine ⟨h.authority, hirrefl _, fun _ => rfl, fun _ => rfl, fun _ => rfl, hirrefl _, hirrefl _,
    fun hset => ?_⟩
  rw [h.terminal] at hset
  cases hset

/-- A running operation accepts the report of the end under its own authority. -/
theorem OperationRuntime.Open.reportCompletion_self (h : r.Open)
    (hstate : r.machine.state = .RUNNING) : (r.reportCompletion r.authority false).2 = .OK := by
  have hallowed : isAllowed .RUNNING .COMPLETION_REPORTED = true := by decide
  unfold reportCompletion
  rw [h.unrecorded, h.fence_self, hstate]
  simp [OperationStateMachine.transition, hstate, hallowed]

/-- A confirmation is refused and leaves the runtime alone, or the completion is recorded. -/
theorem OperationRuntime.confirmCompletion_cases (r : OperationRuntime) (e : AuthorityEnvelope) :
    (r.confirmCompletion e).1 = r ∨
      (r.confirmCompletion e).1.terminalRecorded = true ∧
        (r.confirmCompletion e).1.machine.state = .COMPLETION_CONFIRMED := by
  unfold confirmCompletion
  split_ifs
  · exact Or.inl rfl
  · exact Or.inl rfl
  · unfold OperationStateMachine.transition
    split_ifs
    · exact Or.inr ⟨rfl, rfl⟩
    · exact Or.inl rfl

/-- A reported completion is recorded when it is confirmed under an envelope that passes. -/
theorem OperationRuntime.Open.confirmCompletion_reported (h : r.Open)
    (hfence : (fenceCompletion e r.authority r.terminal).accepted = true)
    (hstate : r.machine.state = .COMPLETION_REPORTED) :
    (r.confirmCompletion e).1.terminalRecorded = true ∧
      (r.confirmCompletion e).1.machine.state = .COMPLETION_CONFIRMED := by
  have hallowed : isAllowed .COMPLETION_REPORTED .COMPLETION_CONFIRMED = true := by decide
  unfold confirmCompletion
  rw [h.unrecorded, hfence]
  simp [OperationStateMachine.transition, hstate, hallowed]

/-- A dispatch binds the authority of an operation that is worked on, and starts it anew. -/
theorem OperationRuntime.dispatch_live (hunrecorded : r.terminalRecorded = false)
    (hlive : isTerminal r.machine.state = false) :
    (r.dispatch e).1.authority = e ∧ (r.dispatch e).1.machine.state = .DISPATCHED ∧
      (r.dispatch e).1.terminalRecorded = false ∧ (r.dispatch e).1.terminal = r.terminal := by
  unfold dispatch
  rw [hunrecorded, if_neg Bool.false_ne_true]
  dsimp only
  rw [hlive, if_neg Bool.false_ne_true]
  by_cases hstate : r.machine.state = .DISPATCHED
  · simp [hstate]
  · simp [hstate, OperationStateMachine.reset]

end Runtime

/-! ### Where the work is -/

/-- The operation runs, or one of the messages will make it run. -/
def OperationRuntime.RunsAfter (r : OperationRuntime) (op : OperationId) (l : List WireMessage) :
    Prop :=
  r.machine.state = .RUNNING ∨ ∃ m ∈ l, m.Tells .RUNNING op r.authority

/-- The work on the operation, under its current authority, is on its way to a completion. -/
inductive InTransit (s : Cluster) (op : OperationId) (r : OperationRuntime) : Prop
  | chosen (c t : ConnId) (hr : r.InWork) (hpc : s.coord.pc c = .dispatchSend op r.authority t)
      (ht : s.worker t ≠ none)
  | sent (c : ConnId) (m : WireMessage) (hr : r.InWork) (hm : m.Tells .DISPATCH op r.authority)
      (hqueue : m ∈ s.toPeer c) (hw : s.worker c ≠ none)
  | taken (c : ConnId) (w : Worker) (m : WireMessage) (hr : r.InWork)
      (hm : m.IsFor op r.authority) (hw : s.worker c = some w) (hpc : w.pc = .starting m)
  | working (c : ConnId) (w : Worker) (m : WireMessage) (hr : r.InWork)
      (hm : m.IsFor op r.authority) (hw : s.worker c = some w)
      (hpc : w.pc = .working m ∨ w.pc = .completing m) (hruns : r.RunsAfter op (s.incoming c))
  | reported (c : ConnId) (pre post : List WireMessage) (m : WireMessage) (hr : r.InWork)
      (hm : m.Tells .COMPLETE op r.authority) (hqueue : s.incoming c = pre ++ m :: post)
      (hruns : r.RunsAfter op pre)
  | confirming (c : ConnId) (e : AuthorityEnvelope)
      (hr : r.machine.state = .COMPLETION_REPORTED) (hpc : s.coord.pc c = .completeConfirm op e)
      (hfence : (fenceCompletion e r.authority r.terminal).accepted = true)

/-- A step of the coordinator leaves the work on the operation where it is, or moves it on: what a
    thread sends arrives, `RUNNING` makes the operation run, and neither a report of the end that
    would be accepted nor a confirmation that would succeed is taken away. -/
structure Passes (s s' : Cluster) (op : OperationId) (r r' : OperationRuntime) : Prop where
  authority : r'.authority = r.authority
  terminal : r'.terminal = r.terminal
  state : r'.machine.state = r.machine.state ∨ r'.machine.state = .RUNNING ∧ r.InWork
  worker : s'.worker = s.worker
  toPeer : ∀ c, ∀ m ∈ s.toPeer c, m ∈ s'.toPeer c
  sends : ∀ c t, s.coord.pc c = .dispatchSend op r.authority t → s'.coord.pc c = s.coord.pc c ∨
    ∃ m ∈ s'.toPeer t, m.Tells .DISPATCH op r.authority
  incoming : ∀ c, s.incoming c = s'.incoming c ∨ ∃ m, s.incoming c = m :: s'.incoming c ∧
    (m.Tells .RUNNING op r.authority → r.InWork → r'.machine.state = .RUNNING) ∧
    (m.Tells .COMPLETE op r.authority → r.machine.state ≠ .RUNNING)
  confirms : ∀ c e, s.coord.pc c = .completeConfirm op e → s'.coord.pc c = s.coord.pc c ∨
    ¬ ((fenceCompletion e r.authority r.terminal).accepted = true ∧
      r.machine.state = .COMPLETION_REPORTED)

/-- While its work is in transit an operation is dispatched, running, or reported as completed. -/
theorem InTransit.state {s : Cluster} {op : OperationId} {r : OperationRuntime}
    (h : InTransit s op r) : r.InWork ∨ r.machine.state = .COMPLETION_REPORTED := by
  cases h with
  | chosen _ _ hr | sent _ _ hr | taken _ _ _ hr | working _ _ _ hr | reported _ _ _ _ hr =>
    exact Or.inl hr
  | confirming _ _ hr => exact Or.inr hr

theorem InTransit.live {s : Cluster} {op : OperationId} {r : OperationRuntime}
    (h : InTransit s op r) : isTerminal r.machine.state = false := by
  rcases h.state with (hstate | hstate) | hstate <;> rw [hstate] <;> rfl

section Steps

variable {s s' : Cluster} {op : OperationId} {r r' : OperationRuntime}

theorem Passes.inWork (h : Passes s s' op r r') (hr : r.InWork) : r'.InWork := by
  rcases h.state with hsame | ⟨hrunning, -⟩
  · unfold OperationRuntime.InWork
    rwa [hsame]
  · exact Or.inr hrunning

/-- What makes the operation run is still there. -/
theorem Passes.runsAfter (h : Passes s s' op r r') {l : List WireMessage}
    (hruns : r.RunsAfter op l) : r'.RunsAfter op l := by
  rcases hruns with hrunning | ⟨m, hm, htells⟩
  · rcases h.state with hsame | ⟨hafter, -⟩
    · exact Or.inl (hsame.trans hrunning)
    · exact Or.inl hafter
  · exact Or.inr ⟨m, hm, by rwa [h.authority]⟩

/-- What makes the operation run is still there, or is handled and makes it run. -/
theorem Passes.runsAfter_cons (h : Passes s s' op r r') {m : WireMessage} {l : List WireMessage}
    (hruns : r.RunsAfter op (m :: l))
    (hm : m.Tells .RUNNING op r.authority → r'.machine.state = .RUNNING) : r'.RunsAfter op l := by
  rcases hruns with hrunning | ⟨m', hm', htells⟩
  · exact h.runsAfter (Or.inl hrunning)
  · rcases List.mem_cons.mp hm' with rfl | hrest
    · exact Or.inl (hm htells)
    · exact h.runsAfter (Or.inr ⟨m', hrest, htells⟩)

/-- **Step lemma, coordinator.** The work stays on its way. -/
theorem InTransit.passes (h : InTransit s op r) (hpasses : Passes s s' op r r') :
    InTransit s' op r' := by
  cases h with
  | chosen c t hr hpc ht =>
    have hr' := hpasses.inWork hr
    rcases hpasses.sends c t hpc with hsame | ⟨m, hm, htells⟩
    · exact .chosen c t hr' (by rw [hsame, hpc, hpasses.authority]) (by rwa [hpasses.worker])
    · exact .sent t m hr' (by rwa [hpasses.authority]) hm (by rwa [hpasses.worker])
  | sent c m hr hm hqueue hw =>
    exact .sent c m (hpasses.inWork hr) (by rwa [hpasses.authority]) (hpasses.toPeer c m hqueue)
      (by rwa [hpasses.worker])
  | taken c w m hr hm hw hpc =>
    exact .taken c w m (hpasses.inWork hr) (by rwa [hpasses.authority]) (by rwa [hpasses.worker])
      hpc
  | working c w m hr hm hw hpc hruns =>
    refine .working c w m (hpasses.inWork hr) (by rwa [hpasses.authority])
      (by rwa [hpasses.worker]) hpc ?_
    rcases hpasses.incoming c with hsame | ⟨m₀, hincoming, hrunning, -⟩
    · rw [hsame] at hruns
      exact hpasses.runsAfter hruns
    · rw [hincoming] at hruns
      exact hpasses.runsAfter_cons hruns fun htells => hrunning htells hr
  | reported c pre post m hr hm hqueue hruns =>
    have hm' : m.Tells .COMPLETE op r'.authority := by rwa [hpasses.authority]
    rcases hpasses.incoming c with hsame | ⟨m₀, hincoming, hrunning, hcomplete⟩
    · exact .reported c pre post m (hpasses.inWork hr) hm' (hsame.symm.trans hqueue)
        (hpasses.runsAfter hruns)
    · rw [hincoming] at hqueue
      cases pre with
      | nil =>
        -- the report itself is handled, so it was not to be accepted
        obtain ⟨rfl, -⟩ := List.cons.inj hqueue
        rcases hruns with hstate | ⟨m', hm', -⟩
        · exact absurd hstate (hcomplete hm)
        · cases hm'
      | cons m₁ pre =>
        obtain ⟨rfl, hrest⟩ := List.cons.inj hqueue
        exact .reported c pre post m (hpasses.inWork hr) hm' hrest
          (hpasses.runsAfter_cons hruns fun htells => hrunning htells hr)
  | confirming c e hr hpc hfence =>
    rcases hpasses.confirms c e hpc with hsame | hno
    · rcases hpasses.state with hstate | ⟨-, hwork⟩
      · exact .confirming c e (hstate.trans hr) (hsame.trans hpc)
          (by rwa [hpasses.authority, hpasses.terminal])
      · rcases hwork with hwork | hwork
        · exact absurd (hwork.symm.trans hr) (by decide)
        · exact absurd (hwork.symm.trans hr) (by decide)
    · exact absurd ⟨hfence, hr⟩ hno

/-- **Step lemma, peer.** A step of a worker or of a client on a connection keeps the work on its
    way if it keeps what is at that connection on its way. -/
theorem InTransit.peer (h : InTransit s op r) {c : ConnId} (hcoord : s'.coord = s.coord)
    (hworker : ∀ c', c' ≠ c → s'.worker c' = s.worker c')
    (hsome : ∀ c', s.worker c' ≠ none → s'.worker c' ≠ none)
    (htoPeer : ∀ c', c' ≠ c → s'.toPeer c' = s.toPeer c')
    (htoCoord : ∀ c', ∃ more, s'.toCoord c' = s.toCoord c' ++ more)
    (hsent : ∀ m ∈ s.toPeer c, m.Tells .DISPATCH op r.authority → s.worker c ≠ none → r.InWork →
      InTransit s' op r)
    (htaken : ∀ w m, s.worker c = some w → w.pc = .starting m → m.IsFor op r.authority →
      r.InWork → InTransit s' op r)
    (hworking : ∀ w m, s.worker c = some w → w.pc = .working m ∨ w.pc = .completing m →
      m.IsFor op r.authority → r.InWork → r.RunsAfter op (s.incoming c) → InTransit s' op r) :
    InTransit s' op r := by
  have hincoming : ∀ c', ∃ more, s'.incoming c' = s.incoming c' ++ more := by
    intro c'
    obtain ⟨more, hmore⟩ := htoCoord c'
    refine ⟨more, ?_⟩
    unfold Cluster.incoming
    rw [hcoord, hmore, List.append_assoc]
  cases h with
  | chosen c' t hr hpc ht => exact .chosen c' t hr (by rwa [hcoord]) (hsome t ht)
  | sent c' m hr hm hqueue hw =>
    by_cases hc : c' = c
    · subst hc
      exact hsent m hqueue hm hw hr
    · exact .sent c' m hr hm (by rwa [htoPeer c' hc]) (hsome c' hw)
  | taken c' w m hr hm hw hpc =>
    by_cases hc : c' = c
    · subst hc
      exact htaken w m hw hpc hm hr
    · exact .taken c' w m hr hm (by rwa [hworker c' hc]) hpc
  | working c' w m hr hm hw hpc hruns =>
    by_cases hc : c' = c
    · subst hc
      exact hworking w m hw hpc hm hr hruns
    · obtain ⟨more, hmore⟩ := hincoming c'
      refine .working c' w m hr hm (by rwa [hworker c' hc]) hpc ?_
      rw [hmore]
      exact hruns.imp_right fun ⟨m', hm', htells⟩ => ⟨m', List.mem_append_left _ hm', htells⟩
  | reported c' pre post m hr hm hqueue hruns =>
    obtain ⟨more, hmore⟩ := hincoming c'
    exact .reported c' pre (post ++ more) m hr hm (by rw [hmore, hqueue]; simp) hruns
  | confirming c' e hr hpc hfence => exact .confirming c' e hr (by rwa [hcoord]) hfence

end Steps

end FailureFabric
