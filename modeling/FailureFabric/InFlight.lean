import FailureFabric.Executions
import FailureFabric.Pending

namespace FailureFabric

open Library

/-!
# Operations in flight

An operation is in flight while it is `DISPATCHED` or `RUNNING`.  The coordinator brings an
operation there by a binding only: of the calls that it makes, `run` alone has such a target, and
starts from `DISPATCHED` or from `RETRYING`, which no operation that it dispatched ever is in.

* `lastSent`, `sentOps` — the connection that an operation was sent on last, and the operations that
  were sent;
* `Coord.Settled` — what a binding leaves, and every later step keeps;
* `Coord.Moves.inFlight_of` — an operation that is in flight was so before, or the step binds it.
-/

/-- The operation is with a worker, as far as the registry knows. -/
def OperationState.inFlight : OperationState → Bool
  | DISPATCHED | RUNNING => true
  | _ => false

theorem OperationState.live_of_inFlight {s : OperationState} (h : s.inFlight = true) :
    isTerminal s = false := by
  cases s with
  | DISPATCHED | RUNNING => rfl
  | _ => exact absurd h (by simp [inFlight])

/-- The connection that a `DISPATCH` of the operation was sent on last. -/
def lastSent (t : List Event) (op : OperationId) : Option ConnId :=
  (t.filterMap fun
    | .sent c m => if m.type = .DISPATCH ∧ m.op = op then some c else none
    | _ => none).getLast?

/-- Events without a `DISPATCH` of the operation leave its last connection alone. -/
theorem lastSent_of_not_sent {t evs : List Event} {op : OperationId}
    (h : ∀ c m, .sent c m ∈ evs → m.type = .DISPATCH → m.op ≠ op) :
    lastSent (t ++ evs) op = lastSent t op := by
  have hnone : evs.filterMap (fun
      | .sent c m => if m.type = .DISPATCH ∧ m.op = op then some c else none
      | _ => none) = [] := by
    rw [List.filterMap_eq_nil_iff]
    intro ev hev
    cases ev with
    | sent c m => exact if_neg (fun hm => h c m hev hm.1 hm.2)
    | received | applied | transferred | appended => rfl
  rw [lastSent, List.filterMap_append, hnone, List.append_nil]
  rfl

theorem lastSent_sent {t : List Event} {c : ConnId} {m : WireMessage} (hm : m.type = .DISPATCH) :
    lastSent (t ++ [.sent c m]) m.op = some c := by
  simp [lastSent, hm]

/-- The operations that were sent, in order. -/
def sentOps (t : List Event) : List OperationId :=
  t.filterMap fun
    | .sent _ m => if m.type = .DISPATCH then some m.op else none
    | _ => none

theorem mem_sentOps_of_lastSent {t : List Event} {op : OperationId} {c : ConnId}
    (h : lastSent t op = some c) : op ∈ sentOps t := by
  obtain ⟨ev, hev, hsome⟩ := List.mem_filterMap.mp (List.mem_of_getLast? h)
  cases ev with
  | sent c' m =>
    dsimp only at hsome
    split_ifs at hsome with hm
    obtain ⟨htype, rfl⟩ := hm
    exact List.mem_filterMap.mpr ⟨_, hev, if_pos htype⟩
  | received | applied | transferred | appended => cases hsome

/-! ### States and calls -/

/-- A call that the coordinator makes: its targets are known. -/
def RegistryCall.plain : RegistryCall → Bool
  | transition .. | recordTerminal .. => false
  | create .. | dispatch .. | run .. | reportCompletion .. | confirmCompletion ..
  | reportFailure .. => true

/-- The operation may be in flight after a call that does not dispatch it. -/
def OperationState.restless (s : OperationState) : Bool := s.inFlight || s = .RETRYING

/-- Of the targets of a plain call, only `RUNNING` is restless. -/
theorem RegistryCall.restless_target {c : RegistryCall} (hc : c.plain = true)
    {dst : OperationState} (hdst : dst ∈ c.targets) (h : dst.restless = true) :
    dst = .RUNNING := by
  cases c with
  | transition | recordTerminal => exact absurd hc (by simp [plain])
  | create | dispatch => exact absurd hdst List.not_mem_nil
  | run | confirmCompletion | reportCompletion _ _ p | reportFailure _ _ p =>
    obtain rfl := List.mem_singleton.mp hdst
    revert h
    first | decide | (cases p <;> decide)

/-- A plain call that does not dispatch the operation makes it neither restless nor `RETRYING`. -/
theorem RegistryCall.Effect.restless_of {c : RegistryCall} {r r' : OperationRuntime}
    {res : ApplyResult} (h : c.Effect r r' res) (hc : c.plain = true)
    (hnone : ∀ op, c ≠ .dispatch op c.envelope) :
    (r'.machine.state.restless = true → r.machine.state.restless = true) ∧
      (r'.machine.state = .RETRYING → r.machine.state = .RETRYING) := by
  cases h with
  | refused | repeated => exact ⟨id, id⟩
  | rebound hcall | dispatched hcall =>
    obtain ⟨op, hop⟩ := hcall
    exact absurd hop (hnone op)
  | advanced dst _ _ _ hallowed htarget | recorded dst _ _ _ _ hallowed _ htarget =>
    refine ⟨fun hdst => ?_, fun hdst => ?_⟩
    · obtain rfl := RegistryCall.restless_target hc htarget hdst
      rcases isAllowed_running hallowed with hfrom | hfrom <;> rw [hfrom] <;> rfl
    · obtain rfl : dst = .RETRYING := hdst
      exact absurd (RegistryCall.restless_target hc htarget rfl) (by simp)

/-- **Invariant rule.** What every plain call that does not dispatch an operation preserves of its
    runtime, a run of such calls preserves. -/
theorem plain_run {P : OperationRuntime → Prop}
    (hstep : ∀ {c : RegistryCall} {r r' : OperationRuntime} {res : ApplyResult},
      c.Effect r r' res → c.plain = true → (∀ op, c ≠ .dispatch op c.envelope) → P r → P r')
    {reg : OperationRegistry} {op : OperationId} {r : OperationRuntime} {calls : List RegistryCall}
    (hr : reg.find op = some r) (hP : P r) (hplain : ∀ c ∈ calls, c.plain = true)
    (hnone : ∀ e, .dispatch op e ∉ calls) :
    ∃ r', (registry.run reg calls).find op = some r' ∧ P r' := by
  induction calls generalizing reg r with
  | nil => exact ⟨r, hr, hP⟩
  | cons c calls ih =>
    obtain ⟨r₁, hr₁, heff⟩ := find_step_of_find (c := c) hr
    have hP₁ : P r₁ := by
      rcases heff with rfl | ⟨rfl, heff⟩
      · exact hP
      · refine hstep heff (hplain c List.mem_cons_self) (fun op' hop' => ?_) hP
        have hop : c.op = op' := by
          rw [hop']
          rfl
        exact hnone c.envelope (by rw [hop, ← hop']; exact List.mem_cons_self)
    exact ih hr₁ hP₁ (fun c' hc' => hplain c' (List.mem_cons_of_mem c hc'))
      (fun e he => hnone e (List.mem_cons_of_mem c he))

/-- A run of such calls makes an operation neither restless nor `RETRYING`. -/
theorem restless_run {reg : OperationRegistry} {op : OperationId} {r : OperationRuntime}
    {calls : List RegistryCall} (hr : reg.find op = some r) (hplain : ∀ c ∈ calls, c.plain = true)
    (hnone : ∀ e, .dispatch op e ∉ calls) :
    ∃ r', (registry.run reg calls).find op = some r' ∧
      (r'.machine.state.restless = true → r.machine.state.restless = true) ∧
      (r'.machine.state = .RETRYING → r.machine.state = .RETRYING) := by
  refine plain_run (P := fun r' => (r'.machine.state.restless = true →
      r.machine.state.restless = true) ∧ (r'.machine.state = .RETRYING →
        r.machine.state = .RETRYING)) ?_ hr ⟨id, id⟩ hplain hnone
  intro c r₁ r₂ res heff hc hdispatch hr₁
  obtain ⟨hrest, hretry⟩ := heff.restless_of hc hdispatch
  exact ⟨fun h => hr₁.1 (hrest h), fun h => hr₁.2 (hretry h)⟩

/-- The coordinator makes plain calls only. -/
theorem Coord.Moves.plain {s s' : Coord} {c : ConnId} {a : Action} {evs : List Event}
    (h : s.Moves c a s' evs) : ∀ rc ∈ (callsIn evs).map Prod.fst, rc.plain = true := by
  cases h with
  | localStep a new evs h =>
    generalize s.pc c = pc at h
    cases h <;> simp [callsIn]
  | callStep ch rc new h =>
    generalize s.pc c = pc at h
    generalize hres : (s.call rc).2 = res at h
    cases h <;> simp [callsIn, RegistryCall.plain]
  | idle | register | dispatchLock | marked | markedAgain | lost | saveStart | saveItem | saveEnd
  | transferred | recorded => simp [callsIn, lostTransfer, lostReport, RegistryCall.plain]

/-! ### Settled operations -/

/-- The runtime is recorded, or has been bound: it is under an envelope, and in no retry. -/
def OperationRuntime.Settled (r : OperationRuntime) : Prop :=
  r.terminalRecorded = true ∨ r.machine.state ≠ .RETRYING ∧ r.authority.isUnset = false

/-- The operation is known and settled. -/
def Coord.Settled (s : Coord) (op : OperationId) : Prop :=
  ∃ r, s.store.ops.find op = some r ∧ r.Settled

/-- `dispatch` settles, when the envelope is not unset. -/
theorem OperationRuntime.settled_dispatch (r : OperationRuntime) {auth : AuthorityEnvelope}
    (hauth : auth.isUnset = false) : (r.dispatch auth).1.Settled := by
  unfold OperationRuntime.dispatch
  by_cases hrec : r.terminalRecorded = true
  · rw [if_pos hrec]
    exact Or.inl hrec
  · rw [if_neg hrec]
    dsimp only
    by_cases hterm : isTerminal r.machine.state = true
    · rw [if_pos hterm]
      refine Or.inr ⟨fun hretry => ?_, hauth⟩
      have hstate : r.machine.state = .RETRYING := hretry
      rw [hstate] at hterm
      exact absurd hterm (by decide)
    · rw [if_neg hterm]
      by_cases hstate : r.machine.state ≠ .DISPATCHED
      · rw [if_pos hstate]
        exact Or.inr ⟨by simp [OperationStateMachine.reset], hauth⟩
      · rw [if_neg hstate]
        refine Or.inr ⟨fun hretry => ?_, hauth⟩
        exact absurd ((not_not.mp hstate).symm.trans hretry) (by simp)

section Settled

variable {s s' : Coord} {c : ConnId} {a : Action} {evs : List Event} {op : OperationId}
  {auth : AuthorityEnvelope} {target : ConnId} {calls : List RegistryCall}

/-- The envelopes of bindings are not unset. -/
theorem Coord.Binds.isUnset (h : s.Binds c a op auth target calls)
    (hclient : ∀ op auth, s.pc c = .dispatchLock op auth → auth.isUnset = false) :
    auth.isUnset = false := by
  cases h with
  | client _ _ _ _ _ _ hold => exact hclient op auth hold
  | recovery => simp [AuthorityEnvelope.isUnset, Coord.newAttempt]

/-- **Inversion.** A step leaves a known operation less restless than it was, unless it binds it. -/
theorem Coord.Moves.restless_of {r : OperationRuntime} (h : s.Moves c a s' evs)
    (hr : s.store.ops.find op = some r) :
    (∃ auth target calls, s.Binds c a op auth target calls ∧
        s'.store.ops = registry.run s.store.ops calls ∧
        (isTerminal (s'.store.ops.state op) = false →
          s'.pending c = some (op, auth, target))) ∨
      ∃ r', s'.store.ops.find op = some r' ∧ r'.authority = r.authority ∧
        (r'.machine.state.restless = true → r.machine.state.restless = true) ∧
        (r'.machine.state = .RETRYING → r.machine.state = .RETRYING) := by
  by_cases hsome : ∃ e, .dispatch op e ∈ (callsIn evs).map Prod.fst
  · obtain ⟨e, he⟩ := hsome
    obtain ⟨target, calls, hbinds⟩ := h.binds_of_dispatch he
    exact Or.inl ⟨e, target, calls, hbinds⟩
  · right
    have hnone : ∀ e, .dispatch op e ∉ (callsIn evs).map Prod.fst := fun e he => hsome ⟨e, he⟩
    obtain ⟨r₁, hr₁, hauth⟩ := authority_run hr hnone
    obtain ⟨r₂, hr₂, hrest, hretry⟩ := restless_run hr h.plain hnone
    obtain rfl : r₁ = r₂ := Option.some.inj (hr₁.symm.trans hr₂)
    rw [← h.ops_eq.1] at hr₁
    exact ⟨r₁, hr₁, hauth, hrest, hretry⟩

/-- A binding settles its operation. -/
theorem Coord.Binds.settles (h : s.Binds c a op auth target calls) (htracked : s.Tracked)
    (hasked : ∀ op auth, s.pc c = .dispatchLock op auth → auth.isUnset = false)
    (hops : s'.store.ops = registry.run s.store.ops calls) : s'.Settled op := by
  obtain ⟨r, -, hafter⟩ := h.find htracked
  exact ⟨_, by rw [hops]; exact hafter, r.settled_dispatch (h.isUnset hasked)⟩

/-- A settled operation stays settled. -/
theorem Coord.Moves.settled_stays (h : s.Moves c a s' evs) (htracked : s.Tracked)
    (hasked : ∀ op auth, s.pc c = .dispatchLock op auth → auth.isUnset = false)
    (hop : s.Settled op) : s'.Settled op := by
  obtain ⟨r, hr, hsettled⟩ := hop
  rcases hsettled with hrec | ⟨hstate, hauth⟩
  · exact ⟨r, h.find_of_recorded hr hrec, Or.inl hrec⟩
  · rcases h.restless_of hr with
      ⟨auth, target, calls, hbinds, hops, -⟩ | ⟨r', hr', hauth', -, hretry⟩
    · exact hbinds.settles htracked hasked hops
    · exact ⟨r', hr', Or.inr ⟨fun hstate' => hstate (hretry hstate'), by rw [hauth']; exact hauth⟩⟩

/-- **Inversion.** A settled operation that is in flight was so before, or the step binds it for a
    send. -/
theorem Coord.Moves.inFlight_of (h : s.Moves c a s' evs) (hop : s.Settled op)
    (hflight : (s'.store.ops.state op).inFlight = true) :
    (s.store.ops.state op).inFlight = true ∨ ∃ auth target calls,
      s.Binds c a op auth target calls ∧ s'.pending c = some (op, auth, target) := by
  obtain ⟨r, hr, hsettled⟩ := hop
  rcases hsettled with hrec | ⟨hstate, -⟩
  · left
    have hr' := h.find_of_recorded hr hrec
    rw [OperationRegistry.state, hr'] at hflight
    rw [OperationRegistry.state, hr]
    exact hflight
  · rcases h.restless_of hr with
      ⟨auth, target, calls, hbinds, -, hpending⟩ | ⟨r', hr', -, hrest, -⟩
    · exact Or.inr ⟨auth, target, calls, hbinds, hpending (OperationState.live_of_inFlight hflight)⟩
    · left
      rw [OperationRegistry.state, hr'] at hflight
      have hrestless : r.machine.state.restless = true :=
        hrest (by rw [OperationState.restless, Bool.or_eq_true]; exact Or.inl hflight)
      rw [OperationState.restless, Bool.or_eq_true, decide_eq_true_eq] at hrestless
      rw [OperationRegistry.state, hr]
      exact hrestless.resolve_right hstate

end Settled

/-- What was sent, and what is pending, is settled. -/
structure SettledInv (s : Coord) (t : List Event) : Prop where
  tracked : s.Tracked
  asked : ∀ c op auth, s.pc c = .dispatchLock op auth → auth.isUnset = false
  pending : ∀ c op auth target, s.pending c = some (op, auth, target) → s.Settled op
  sent : ∀ op c, lastSent t op = some c → s.Settled op

section Invariant

variable {s s' : Coord} {c : ConnId} {a : Action} {evs : List Event} {t : List Event}

/-- The envelope of a client's request is not unset. -/
theorem SettledInv.asked_step (inv : SettledInv s t) (h : s.Moves c a s' evs) (c' : ConnId)
    (op : OperationId) (auth : AuthorityEnvelope) (hpc : s'.pc c' = .dispatchLock op auth) :
    auth.isUnset = false := by
  by_cases hc : c' = c
  · subst hc
    cases h with
    | idle => exact inv.asked c' op auth hpc
    | localStep a new evs h =>
      rw [Coord.goto_pc_self] at hpc
      subst hpc
      generalize s.pc c' = pc at h
      cases h with
      | asked m drawn => simp [AuthorityEnvelope.isUnset, Coord.clientAuthority]
    | callStep ch rc new h =>
      rw [Coord.goto_pc_self] at hpc
      subst hpc
      generalize s.pc c' = pc at h
      generalize (s.call rc).2 = res at h
      cases h
    | register | dispatchLock | marked | markedAgain | lost | saveStart | saveItem | saveEnd =>
      rw [Coord.goto_pc_self] at hpc
      cases hpc
    | transferred | recorded => exact absurd hpc (by simp [Coord.lostTransfer, Coord.lostReport])
  · rw [h.pc_of_ne hc] at hpc
    exact inv.asked c' op auth hpc

/-- **Step lemma.** Every step keeps what was sent and what is pending settled, when no recovery
    loses the operation that it chose a replacement for. -/
theorem SettledInv.step (inv : SettledInv s t) (h : s.Moves c a s' evs)
    (hcur : ∀ c', (s.pc c').redispatches = true → s'.currentOp = s.currentOp) :
    SettledInv s' (t ++ evs) where
  tracked := inv.tracked.step h
  asked := inv.asked_step h
  pending := by
    intro c' op auth target hp
    rcases h.pending_of (hcur c') hp with hold | ⟨rfl, calls, hbinds, hops, -⟩
    · exact h.settled_stays inv.tracked (inv.asked c) (inv.pending c' op auth target hold)
    · exact hbinds.settles inv.tracked (inv.asked _) hops
  sent := by
    intro op c' hsent
    refine h.settled_stays inv.tracked (inv.asked c) ?_
    by_cases hnew : ∃ x m, .sent x m ∈ evs ∧ m.type = .DISPATCH ∧ m.op = op
    · obtain ⟨x, m, hev, htype, rfl⟩ := hnew
      exact inv.pending c m.op m.authority x (h.sent_pending hev htype)
    · rw [lastSent_of_not_sent (fun x m hev htype hop => hnew ⟨x, m, hev, htype, hop⟩)] at hsent
      exact inv.sent op c' hsent

theorem settledInv_boot (file : Option (List UInt8)) : SettledInv (Coord.boot file) [] where
  tracked := tracked_boot file
  asked := fun _ _ _ h => by cases h
  pending := fun _ _ _ _ h => by cases h
  sent := fun _ _ h => by cases h

end Invariant

end FailureFabric
