import FailureFabric.Acknowledge

namespace FailureFabric

open Library

/-!
# Dispatched work

The coordinator sends a `DISPATCH` on two paths: for a client that asks for an operation, and for
an operation whose worker was lost.  Both call `dispatch` on the registry first and ignore its
result, so a client that repeats its request has a finished operation sent again
(`repeated_request_sent`).

* `grantStands` — the condition on a step under which neither path sends what the registry did
  not grant;
* `Coord.Tracked` — the current operation is known whenever a recovery works on it;
* `GrantInv` — what a thread is about to send was granted, and is not recorded;
* `work_authorised` — every run whose steps meet the condition sends granted work only.
-/

/-- The registry granted the operation under the envelope: `dispatch` returned `OK`. -/
def Granted (t : List Event) (op : OperationId) (auth : AuthorityEnvelope) : Prop :=
  .applied (.dispatch op auth) .OK ∈ t

theorem Granted.append {t : List Event} {op : OperationId} {auth : AuthorityEnvelope}
    (h : Granted t op auth) (evs : List Event) : Granted (t ++ evs) op auth :=
  List.mem_append_left evs h

/-- The operation is unknown, or live and without a recorded outcome. -/
def OperationRegistry.Open (reg : OperationRegistry) (op : OperationId) : Prop :=
  ∀ r, reg.find op = some r → r.terminalRecorded = false ∧ isTerminal r.machine.state = false

/-- The thread recovers a lost worker: it works on `g_current_op`. -/
def Pc.recovers : Pc → Bool
  | lostCheck | lostTransfer | lostBuild _ | lostReport .. | lostChoose _ | lostVerify ..
  | lostSend .. | lostMark _ => true
  | _ => false

/-- The thread has chosen a replacement and has not sent to it yet. -/
def Pc.redispatches : Pc → Bool
  | lostVerify _ (some _) | lostSend .. => true
  | _ => false

/-- The operation of a client that the thread has dispatched and not marked yet. -/
def Pc.dispatching : Pc → Option OperationId
  | dispatchSend op .. | dispatchMark op .. => some op
  | _ => none

/-- The operation that the next step of the thread of `c` sends, if it sends one. -/
def Coord.aboutToSend (s : Coord) (c : ConnId) : Option OperationId :=
  match s.pc c with
  | .dispatchSend op _ _ => some op
  | .lostSend _ _ => some s.currentOp
  | _ => none

/-- The step keeps what is sent within what the registry granted. -/
def grantStands (s : Coord) : Action → Prop
  | .proceed c ch =>
    match s.pc c with
    -- a client asks for an operation that may be dispatched
    | .dispatchLock op _ => s.workers ≠ [] → s.store.ops.Open op
    -- a recorded outcome belongs to a terminal state: only a loaded one may not
    | .lostChoose _ => s.replacement.isSome = true → ∀ r,
        s.store.ops.find s.currentOp = some r → r.terminalRecorded = true →
        isTerminal r.machine.state = true
    -- no recovery loses the operation that it chose a replacement for
    | .dispatchMark op _ _ => op = s.currentOp ∨ ∀ c', (s.pc c').redispatches = false
    -- no completion is confirmed while the operation is about to be sent
    | .completeConfirm op _ =>
      confirmStands s (.proceed c ch) = true → ∀ c', s.aboutToSend c' ≠ some op
    | _ => True
  | _ => True

/-! ### How a thread gets where -/

namespace Coord.Moves

variable {s s' : Coord} {c : ConnId} {a : Action} {evs : List Event}

/-- A thread is about to send for a client because it has called `create` and `dispatch`. -/
theorem to_dispatchSend {op : OperationId} {auth : AuthorityEnvelope} {target : ConnId}
    (h : s.Moves c a s' evs) (hpc : s'.pc c = .dispatchSend op auth target) :
    (s' = s ∧ evs = []) ∨ ∃ ch, a = .proceed c ch ∧ s.pc c = .dispatchLock op auth ∧
      s.workers ≠ [] ∧
      s'.store.ops = registry.run s.store.ops [.create op auth, .dispatch op auth] ∧
      .applied (.dispatch op auth)
        (registry.step (registry.step s.store.ops (.create op auth)).1 (.dispatch op auth)).2
          ∈ evs := by
  cases h with
  | idle => exact Or.inl ⟨rfl, rfl⟩
  | localStep a new evs h =>
    rw [goto_pc_self] at hpc
    subst hpc
    generalize s.pc c = pc at h
    cases h
  | callStep ch rc new h =>
    rw [goto_pc_self] at hpc
    subst hpc
    generalize s.pc c = pc at h
    generalize (s.call rc).2 = res at h
    cases h
  | dispatchLock ch op' auth' wid target' rest hold hworkers =>
    rw [goto_pc_self] at hpc
    cases hpc
    exact Or.inr ⟨ch, rfl, hold, by simp [hworkers], rfl,
      List.mem_cons_of_mem _ List.mem_cons_self⟩
  | register | marked | markedAgain | lost | saveStart | saveItem | saveEnd =>
    rw [goto_pc_self] at hpc; cases hpc
  | transferred | recorded => exact absurd hpc (by simp [lostTransfer, lostReport])

/-- A thread has chosen a replacement because it has called `dispatch`. -/
theorem to_lostVerify {fresh : AuthorityEnvelope} {r : ConnId}
    (h : s.Moves c a s' evs) (hpc : s'.pc c = .lostVerify fresh (some r)) :
    (s' = s ∧ evs = []) ∨ ∃ ch cur, a = .proceed c ch ∧ s.pc c = .lostChoose cur ∧
      s.replacement = some r ∧
      s' = (s.call (.dispatch s.currentOp fresh)).1.goto c (.lostVerify fresh (some r)) ∧
      evs = [.applied (.dispatch s.currentOp fresh)
        (s.call (.dispatch s.currentOp fresh)).2] := by
  have harrives := h.arrives (by rw [hpc]; rfl)
  rw [hpc] at harrives
  rcases harrives with hidle | ⟨hlocal, -⟩ | ⟨ch, rc, ha, hcall, hs', hevs⟩
  · exact Or.inl hidle
  · generalize s.pc c = pc at hlocal
    cases hlocal
  · right
    generalize hold : s.pc c = pc at hcall
    generalize (s.call rc).2 = res at hcall
    cases hcall with
    | redispatch cur drawn _ _ hr => exact ⟨ch, cur, ha, rfl, hr, hs', hevs⟩

/-- A thread is about to send to a replacement because it found the operation live. -/
theorem to_lostSend {fresh : AuthorityEnvelope} {r : ConnId} (h : s.Moves c a s' evs)
    (hpc : s'.pc c = .lostSend fresh r) :
    (s' = s ∧ evs = []) ∨ s.pc c = .lostVerify fresh (some r) ∧
      isTerminal (s.store.ops.state s.currentOp) = false ∧ s' = s.goto c (.lostSend fresh r) := by
  have harrives := h.arrives (by rw [hpc]; rfl)
  rw [hpc] at harrives
  rcases harrives with hidle | ⟨hlocal, hs'⟩ | ⟨ch, rc, -, hcall, -⟩
  · exact Or.inl hidle
  · generalize hold : s.pc c = pc at hlocal
    cases hlocal with
    | verified _ _ hlive => exact Or.inr ⟨rfl, hlive, hs'⟩
  · generalize s.pc c = pc at hcall
    generalize (s.call rc).2 = res at hcall
    cases hcall

/-- A `DISPATCH` is sent on one of two paths, and the send changes nothing but where the thread
    stands. -/
theorem sent_dispatch {target : ConnId} {m : WireMessage} (h : s.Moves c a s' evs)
    (hev : .sent target m ∈ evs) (htype : m.type = .DISPATCH) :
    evs = [.sent target m] ∧ ∃ new, s' = s.goto c new ∧
      (s.pc c = .dispatchSend m.op m.authority target ∨
        s.pc c = .lostSend m.authority target ∧ m.op = s.currentOp) := by
  cases h with
  | localStep a new evs h =>
    generalize hold : s.pc c = pc at h
    cases h with
    | sentDispatch op auth target' =>
      simp only [List.mem_singleton, Event.sent.injEq] at hev
      obtain ⟨rfl, rfl⟩ := hev
      exact ⟨rfl, _, rfl, Or.inl rfl⟩
    | sentAgain fresh r =>
      simp only [List.mem_singleton, Event.sent.injEq] at hev
      obtain ⟨rfl, rfl⟩ := hev
      exact ⟨rfl, _, rfl, Or.inr ⟨rfl, rfl⟩⟩
    | sentAck | sentFence =>
      simp only [List.mem_singleton, Event.sent.injEq] at hev
      obtain ⟨rfl, rfl⟩ := hev
      exact absurd htype (by simp)
    | receive | accept | disconnect | asked | ignored | noWorkers | notRunning | allDone | recover
    | built | noReplacement | gaveUp | verified => simp at hev
  | register =>
    simp only [List.mem_singleton, Event.sent.injEq] at hev
    obtain ⟨rfl, rfl⟩ := hev
    exact absurd htype (by simp)
  | idle | callStep | dispatchLock | marked | markedAgain | lost | saveStart | saveItem
  | saveEnd => simp at hev
  | transferred a ch => simp [lostTransfer] at hev
  | recorded a ch cur b => simp [lostReport] at hev

/-- Only a client's dispatch changes the current operation. -/
theorem currentOp_eq (h : s.Moves c a s' evs) :
    s'.currentOp = s.currentOp ∨ ∃ ch auth target, a = .proceed c ch ∧
      s.pc c = .dispatchMark s'.currentOp auth target := by
  cases h with
  | marked ch op auth target hold => exact Or.inr ⟨ch, auth, target, rfl, hold⟩
  | idle | localStep | callStep | register | dispatchLock | markedAgain | lost | transferred
  | recorded | saveStart | saveItem | saveEnd => exact Or.inl rfl

/-- Only the confirmation of a completion records an outcome. -/
theorem outcome_eq_none (h : s.Moves c a s' evs) :
    (∀ rc ∈ (callsIn evs).map Prod.fst, rc.outcome = none) ∨ ∃ ch op e, a = .proceed c ch ∧
      s.pc c = .completeConfirm op e ∧
      s'.store.ops = (registry.step s.store.ops (.confirmCompletion op e)).1 := by
  cases h with
  | idle | register | marked | markedAgain | lost | saveStart | saveItem | saveEnd
  | transferred => exact Or.inl (by simp [callsIn, lostTransfer])
  | localStep a new evs h =>
    generalize s.pc c = pc at h
    cases h <;> exact Or.inl (by simp [callsIn])
  | callStep ch rc new h =>
    generalize hold : s.pc c = pc at h
    generalize hres : (s.call rc).2 = res at h
    cases h with
    | confirm op e => exact Or.inr ⟨ch, op, e, rfl, rfl, rfl⟩
    | running | failure | reported | notReported | started | redispatch =>
      exact Or.inl (by simp [callsIn, RegistryCall.outcome])
  | dispatchLock => exact Or.inl (by simp [callsIn, RegistryCall.outcome])
  | recorded => exact Or.inl (by simp [callsIn, lostReport, RegistryCall.outcome])

/-- A step that records the outcome of `op` confirms a completion of it, and ends in a terminal
    state. -/
theorem records {op : OperationId} (h : s.Moves c a s' evs) (hnot : ¬ s.store.ops.Recorded op)
    (hrec : s'.store.ops.Recorded op) :
    confirmStands s a = true ∧ isTerminal (s'.store.ops.state op) = true ∧
      ∃ ch e, a = .proceed c ch ∧ s.pc c = .completeConfirm op e := by
  rcases h.outcome_eq_none with hnone | ⟨ch, op', e, rfl, hold, hops⟩
  · rw [h.ops_eq.1] at hrec
    exact absurd hrec (not_recorded_run hnone hnot)
  · rw [hops] at hrec
    obtain ⟨r, r', hr, hopen, hrec', hop, heff⟩ := recorded_step hnot hrec
    obtain rfl : op' = op := hop
    obtain ⟨hfence, dst, htarget, hallowed, -⟩ := heff.records hopen hrec'
    obtain rfl : dst = .COMPLETION_CONFIRMED := List.mem_singleton.mp htarget
    have hstate : r.machine.state = .COMPLETION_REPORTED := isAllowed_confirmed hallowed
    have hC : confirmStands s (.proceed c ch) = true := by
      unfold confirmStands
      simp only [hold, hr, hstate, hopen, decide_true, Bool.not_false, Bool.and_self,
        Bool.true_and]
      exact hfence
    refine ⟨hC, ?_, ch, e, rfl, hold⟩
    obtain ⟨r₁, hr₁, -, hconf, -⟩ := (confirms_of_confirmStands hold hC).2
    rw [hops, OperationRegistry.state]
    rw [call_ops] at hr₁
    rw [hr₁]
    show isTerminal r₁.machine.state = true
    rw [hconf]
    rfl

end Coord.Moves

/-- A `DISPATCH` is sent by a thread that proceeds from one of the two sends. -/
theorem Coord.proceeds_of_sent {s : Coord} {a : Action} {target : ConnId} {m : WireMessage}
    (hev : .sent target m ∈ (s.step a).2) (htype : m.type = .DISPATCH) :
    ∃ ch, a = .proceed a.conn ch ∧ (s.pc a.conn = .dispatchSend m.op m.authority target ∨
      s.pc a.conn = .lostSend m.authority target) := by
  obtain ⟨-, new, -, hpc⟩ := (s.step_moves a).sent_dispatch hev htype
  have hstarted : s.pc a.conn ≠ .unborn ∧ s.pc a.conn ≠ .reading := by
    rcases hpc with hold | ⟨hold, -⟩ <;> simp [hold]
  rcases step_of_started hstarted with hidle | ⟨ch, ha, -⟩
  · rw [hidle] at hev
    cases hev
  · exact ⟨ch, ha, hpc.imp_right And.left⟩

/-! ### The current operation -/

/-- A recovery, and a worker that runs, have a current operation that the registry knows; so has
    a thread that dispatches for a client. -/
structure Coord.Tracked (s : Coord) : Prop where
  dispatching : ∀ c op, (s.pc c).dispatching = some op → s.store.ops.has op = true
  current : s.store.ops.has s.currentOp = true ∨
    s.runningConn = none ∧ ∀ c, (s.pc c).recovers = false

section Tracked

variable {s s' : Coord} {c : ConnId} {a : Action} {evs : List Event}

/-- After `create` the operation is known. -/
theorem has_create (reg : OperationRegistry) (op : OperationId) (e : AuthorityEnvelope) :
    (reg.create op e).1.has op = true := by
  rw [OperationRegistry.has, OperationRegistry.find_create, if_pos rfl]
  rfl

theorem Coord.Tracked.dispatching_step (inv : s.Tracked) (h : s.Moves c a s' evs) (c' : ConnId)
    (op : OperationId) (hpc : (s'.pc c').dispatching = some op) :
    s'.store.ops.has op = true := by
  by_cases hold : (s.pc c').dispatching = some op
  · exact h.has_stays (inv.dispatching c' op hold)
  · -- the thread has just dispatched
    obtain rfl : c' = c := h.mover (fun heq => hold (by rw [← heq]; exact hpc))
    cases h with
    | idle => exact absurd hpc hold
    | localStep a new evs h =>
      rw [goto_pc_self] at hpc
      generalize s.pc c' = pc at h hold
      cases h <;> exact absurd hpc hold
    | callStep ch rc new h =>
      rw [goto_pc_self] at hpc
      generalize s.pc c' = pc at h
      generalize (s.call rc).2 = res at h
      cases h <;> exact absurd hpc (by simp [Pc.dispatching])
    | dispatchLock ch op' auth =>
      rw [goto_pc_self] at hpc
      obtain rfl : op' = op := Option.some.inj hpc
      exact has_run (has_create s.store.ops op' auth) [.dispatch op' auth]
    | register | marked | markedAgain | lost | saveStart | saveItem | saveEnd =>
      rw [goto_pc_self] at hpc
      exact absurd hpc (by simp [Pc.dispatching])
    | transferred | recorded =>
      exact absurd hpc (by simp [lostTransfer, lostReport, Pc.dispatching])

/-- A thread starts to recover only when its worker was running. -/
theorem Coord.Moves.recovers (h : s.Moves c a s' evs) (hpc : (s'.pc c).recovers = true) :
    (s.pc c).recovers = true ∨ s.runningConn = some c := by
  cases h with
  | idle => exact Or.inl hpc
  | localStep a new evs h =>
    rw [goto_pc_self] at hpc
    generalize s.pc c = pc at h
    cases h <;> first | exact Or.inl rfl | exact absurd hpc (by simp [Pc.recovers])
  | callStep ch rc new h =>
    rw [goto_pc_self] at hpc
    generalize s.pc c = pc at h
    generalize (s.call rc).2 = res at h
    cases h <;> first | exact Or.inl rfl | exact absurd hpc (by simp [Pc.recovers])
  | lost a hold hrun => exact Or.inr hrun
  | transferred a ch hold => rw [hold]; exact Or.inl rfl
  | recorded a ch cur b hold => rw [hold]; exact Or.inl rfl
  | register | dispatchLock | marked | markedAgain | saveStart | saveItem | saveEnd =>
    rw [goto_pc_self] at hpc
    exact absurd hpc (by simp [Pc.recovers])

/-- A worker starts to run when a thread marks it. -/
theorem Coord.Moves.running (h : s.Moves c a s' evs) (hrun : s.runningConn = none) :
    s'.runningConn = none ∨ (s.pc c).dispatching = some s'.currentOp ∨
      (s.pc c).recovers = true := by
  cases h with
  | marked ch op auth target hold => rw [hold]; exact Or.inr (Or.inl rfl)
  | markedAgain a r hold => rw [hold]; exact Or.inr (Or.inr rfl)
  | lost => exact Or.inl rfl
  | idle | localStep | callStep | register | dispatchLock | transferred | recorded | saveStart
  | saveItem | saveEnd => exact Or.inl hrun

theorem Coord.Tracked.current_step (inv : s.Tracked) (h : s.Moves c a s' evs) :
    s'.store.ops.has s'.currentOp = true ∨
      s'.runningConn = none ∧ ∀ c', (s'.pc c').recovers = false := by
  rcases h.currentOp_eq with heq | ⟨ch, auth, target, -, hold⟩
  · rcases inv.current with hknown | ⟨hrun, hnone⟩
    · rw [heq]
      exact Or.inl (h.has_stays hknown)
    · rcases h.running hrun with hrun' | hdisp | hrec
      · refine Or.inr ⟨hrun', fun c' => ?_⟩
        by_cases hc : c' = c
        · subst hc
          rw [← Bool.not_eq_true]
          intro hpc
          rcases h.recovers hpc with hrec | hsome
          · exact absurd (hrec.symm.trans (hnone c')) (by simp)
          · exact absurd (hsome.symm.trans hrun) (by simp)
        · rw [h.pc_of_ne hc]
          exact hnone c'
      · exact Or.inl (h.has_stays (inv.dispatching c _ hdisp))
      · exact absurd (hrec.symm.trans (hnone c)) (by simp)
  · exact Or.inl (h.has_stays (inv.dispatching c _ (by rw [hold]; rfl)))

/-- **Step lemma.** Every step keeps track of the current operation. -/
theorem Coord.Tracked.step (inv : s.Tracked) (h : s.Moves c a s' evs) : s'.Tracked where
  dispatching := inv.dispatching_step h
  current := inv.current_step h

theorem tracked_boot (file : Option (List UInt8)) : (Coord.boot file).Tracked where
  dispatching := fun _ _ h => by cases h
  current := Or.inr ⟨rfl, fun _ => rfl⟩

end Tracked

/-! ### What is about to be sent -/

/-- What a thread is about to send was granted and is not recorded.  A replacement that was
    chosen may be for an operation that has ended since: the next test will tell. -/
structure GrantInv (s : Coord) (t : List Event) : Prop where
  tracked : s.Tracked
  sending : ∀ c op auth target, s.pc c = .dispatchSend op auth target →
    Granted t op auth ∧ ¬ s.store.ops.Recorded op
  chosen : ∀ c fresh r, s.pc c = .lostVerify fresh (some r) →
    isTerminal (s.store.ops.state s.currentOp) = true ∨
      Granted t s.currentOp fresh ∧ ¬ s.store.ops.Recorded s.currentOp
  resending : ∀ c fresh r, s.pc c = .lostSend fresh r →
    Granted t s.currentOp fresh ∧ ¬ s.store.ops.Recorded s.currentOp

section Invariant

variable {s s' : Coord} {c : ConnId} {a : Action} {evs : List Event} {t : List Event}

/-- Under the condition a recovery keeps the operation that it chose a replacement for. -/
theorem currentOp_of_redispatches {c' : ConnId} (h : s.Moves c a s' evs) (hC : grantStands s a)
    (hpc : (s.pc c').redispatches = true) : s'.currentOp = s.currentOp := by
  rcases h.currentOp_eq with heq | ⟨ch, auth, target, rfl, hold⟩
  · exact heq
  · unfold grantStands at hC
    simp only [hold] at hC
    rcases hC with heq | hnone
    · exact heq
    · exact absurd (hpc.symm.trans (hnone c')) (by simp)

/-- Under the condition nothing is recorded while it is about to be sent. -/
theorem not_recorded_of_aboutToSend {c' : ConnId} {op : OperationId} (h : s.Moves c a s' evs)
    (hC : grantStands s a) (hsend : s.aboutToSend c' = some op)
    (hnot : ¬ s.store.ops.Recorded op) : ¬ s'.store.ops.Recorded op := by
  intro hrec
  obtain ⟨hstands, -, ch, e, rfl, hold⟩ := h.records hnot hrec
  unfold grantStands at hC
  simp only [hold] at hC
  exact hC hstands c' hsend

/-- `create` and `dispatch` grant an operation that may be dispatched, and record nothing. -/
theorem dispatch_of_open {reg : OperationRegistry} {op : OperationId} (hopen : reg.Open op)
    (auth : AuthorityEnvelope) :
    (registry.step (registry.step reg (.create op auth)).1 (.dispatch op auth)).2 = .OK ∧
      ¬ (registry.run reg [.create op auth, .dispatch op auth]).Recorded op := by
  have hnot : ¬ reg.Recorded op := by
    rintro ⟨r, hr, hrec⟩
    exact absurd ((hopen r hr).1.symm.trans hrec) (by simp)
  have hcreated : (registry.step reg (.create op auth)).1.find op =
      some ((reg.find op).getD { authority := auth }) :=
    (OperationRegistry.find_create reg op op auth).trans (if_pos rfl)
  refine ⟨?_, not_recorded_run (by simp [RegistryCall.outcome]) hnot⟩
  cases hr : reg.find op with
  | none =>
    rw [hr] at hcreated
    exact dispatch_ok hcreated rfl rfl auth
  | some r =>
    rw [hr] at hcreated
    exact dispatch_ok hcreated (hopen r hr).1 (hopen r hr).2 auth

theorem GrantInv.sending_step (inv : GrantInv s t) (h : s.Moves c a s' evs)
    (hC : grantStands s a) (c' : ConnId) (op : OperationId) (auth : AuthorityEnvelope)
    (target : ConnId) (hpc : s'.pc c' = .dispatchSend op auth target) :
    Granted (t ++ evs) op auth ∧ ¬ s'.store.ops.Recorded op := by
  by_cases hold : s.pc c' = .dispatchSend op auth target
  · obtain ⟨hgrant, hnot⟩ := inv.sending c' op auth target hold
    have hsend : s.aboutToSend c' = some op := by rw [Coord.aboutToSend, hold]
    exact ⟨hgrant.append evs, not_recorded_of_aboutToSend h hC hsend hnot⟩
  · obtain rfl : c' = c := h.mover (fun heq => hold (heq.symm.trans hpc))
    rcases h.to_dispatchSend hpc with ⟨rfl, -⟩ | ⟨ch, rfl, hlock, hworkers, hops, hev⟩
    · exact absurd hpc hold
    · unfold grantStands at hC
      simp only [hlock] at hC
      obtain ⟨hok, hnot⟩ := dispatch_of_open (hC hworkers) auth
      rw [hok] at hev
      refine ⟨List.mem_append_right t hev, ?_⟩
      rw [hops]
      exact hnot

/-- The recovery path: `dispatch` is granted unless the operation has ended. -/
theorem GrantInv.chosen_new {ch : Choice} {cur : AuthorityEnvelope} {r : ConnId}
    (inv : GrantInv s t) (fresh : AuthorityEnvelope) (hC : grantStands s (.proceed c ch))
    (hpc : s.pc c = .lostChoose cur)
    (hr : s.replacement = some r) :
    isTerminal ((registry.step s.store.ops (.dispatch s.currentOp fresh)).1.state
        s.currentOp) = true ∨
      (registry.step s.store.ops (.dispatch s.currentOp fresh)).2 = .OK ∧
      ¬ (registry.step s.store.ops (.dispatch s.currentOp fresh)).1.Recorded s.currentOp := by
  have hknown : s.store.ops.has s.currentOp = true := by
    refine inv.tracked.current.resolve_right (fun hnone => ?_)
    have hrec := hnone.2 c
    rw [hpc] at hrec
    exact absurd hrec (by simp [Pc.recovers])
  obtain ⟨rt, hrt⟩ := Option.isSome_iff_exists.mp hknown
  unfold grantStands at hC
  simp only [hpc, hr, Option.isSome_some, forall_const] at hC
  by_cases hterm : isTerminal rt.machine.state = true
  · left
    have hstate : isTerminal (s.store.ops.state s.currentOp) = true := by
      rw [OperationRegistry.state, hrt]
      exact hterm
    exact isTerminal_state_run hstate [.dispatch s.currentOp fresh]
  · right
    have hopen : rt.terminalRecorded = false := by
      rw [← Bool.not_eq_true]
      exact fun hrec => hterm (hC rt hrt hrec)
    refine ⟨dispatch_ok hrt hopen (by simpa using hterm) fresh, ?_⟩
    have hnot : ¬ s.store.ops.Recorded s.currentOp := by
      rintro ⟨rt', hrt', hrec⟩
      obtain rfl : rt = rt' := Option.some.inj (hrt.symm.trans hrt')
      exact absurd (hopen.symm.trans hrec) (by simp)
    have hnone : ∀ c ∈ [RegistryCall.dispatch s.currentOp fresh], c.outcome = none := by
      simp [RegistryCall.outcome]
    exact not_recorded_run hnone hnot

theorem GrantInv.chosen_step (inv : GrantInv s t) (h : s.Moves c a s' evs)
    (hC : grantStands s a) (c' : ConnId) (fresh : AuthorityEnvelope) (r : ConnId)
    (hpc : s'.pc c' = .lostVerify fresh (some r)) :
    isTerminal (s'.store.ops.state s'.currentOp) = true ∨
      Granted (t ++ evs) s'.currentOp fresh ∧ ¬ s'.store.ops.Recorded s'.currentOp := by
  by_cases hold : s.pc c' = .lostVerify fresh (some r)
  · have hre : (s.pc c').redispatches = true := by rw [hold]; rfl
    rw [currentOp_of_redispatches h hC hre]
    rcases inv.chosen c' fresh r hold with hterm | ⟨hgrant, hnot⟩
    · exact Or.inl (h.isTerminal_stays hterm)
    · -- a confirmation that comes now ends the operation
      by_cases hrec : s'.store.ops.Recorded s.currentOp
      · exact Or.inl (h.records hnot hrec).2.1
      · exact Or.inr ⟨hgrant.append evs, hrec⟩
  · obtain rfl : c' = c := h.mover (fun heq => hold (heq.symm.trans hpc))
    rcases h.to_lostVerify hpc with ⟨rfl, -⟩ | ⟨ch, cur, rfl, hchoose, hr, hs', rfl⟩
    · exact absurd hpc hold
    · rw [hs']
      refine (inv.chosen_new fresh hC hchoose hr).imp id (fun ⟨hok, hnot⟩ => ?_)
      refine ⟨List.mem_append_right t ?_, hnot⟩
      rw [List.mem_singleton, Coord.call_result, hok]
      rfl

theorem GrantInv.resending_step (inv : GrantInv s t) (h : s.Moves c a s' evs)
    (hC : grantStands s a) (c' : ConnId) (fresh : AuthorityEnvelope) (r : ConnId)
    (hpc : s'.pc c' = .lostSend fresh r) :
    Granted (t ++ evs) s'.currentOp fresh ∧ ¬ s'.store.ops.Recorded s'.currentOp := by
  by_cases hold : s.pc c' = .lostSend fresh r
  · have hre : (s.pc c').redispatches = true := by rw [hold]; rfl
    rw [currentOp_of_redispatches h hC hre]
    obtain ⟨hgrant, hnot⟩ := inv.resending c' fresh r hold
    have hsend : s.aboutToSend c' = some s.currentOp := by rw [Coord.aboutToSend, hold]
    exact ⟨hgrant.append evs, not_recorded_of_aboutToSend h hC hsend hnot⟩
  · obtain rfl : c' = c := h.mover (fun heq => hold (heq.symm.trans hpc))
    rcases h.to_lostSend hpc with ⟨rfl, -⟩ | ⟨hverify, hlive, hs'⟩
    · exact absurd hpc hold
    · -- the test excludes that the operation has ended since
      rcases inv.chosen c' fresh r hverify with hterm | ⟨hgrant, hnot⟩
      · exact absurd (hlive.symm.trans hterm) (by simp)
      · rw [hs']
        exact ⟨hgrant.append evs, hnot⟩

/-- **Step lemma.** A step under the condition keeps the invariant. -/
theorem GrantInv.step (inv : GrantInv s t) (h : s.Moves c a s' evs) (hC : grantStands s a) :
    GrantInv s' (t ++ evs) where
  tracked := inv.tracked.step h
  sending := inv.sending_step h hC
  chosen := inv.chosen_step h hC
  resending := inv.resending_step h hC

theorem grantInv_boot (file : Option (List UInt8)) : GrantInv (Coord.boot file) [] where
  tracked := tracked_boot file
  sending := fun _ _ _ _ h => by cases h
  chosen := fun _ _ _ h => by cases h
  resending := fun _ _ _ h => by cases h

/-- **Run lemma.** The invariant holds after every run whose steps meet the condition. -/
theorem grantInv_run (file : Option (List UInt8)) {acts : List Action}
    (hC : coordinator.Always grantStands (.boot file) acts) :
    GrantInv (coordinator.run (.boot file) acts) ((Coord.boot file).trace acts) := by
  exact Machine.trace_induction (M := coordinator) (P := GrantInv)
    (fun s a _ hC inv => inv.step (s.step_moves a) hC) (grantInv_boot file) hC

end Invariant

/-- Every `DISPATCH` of the run carries an operation and an envelope that the registry granted,
    and no operation is sent once its outcome is recorded. -/
structure WorkAuthorised (s₀ : Coord) (acts : List Action) : Prop where
  granted : ∀ pre a post, acts = pre ++ a :: post → ∀ c m,
    .sent c m ∈ ((coordinator.run s₀ pre).step a).2 → m.type = .DISPATCH →
    Granted (s₀.trace pre) m.op m.authority
  unrecorded : ∀ pre mid a post, acts = pre ++ (mid ++ a :: post) → ∀ c m,
    .sent c m ∈ ((coordinator.run (coordinator.run s₀ pre) mid).step a).2 →
    m.type = .DISPATCH → ¬ (coordinator.run s₀ pre).store.ops.Recorded m.op

theorem WorkAuthorised.not_sent {s₀ : Coord} {acts : List Action} {a : Action} {c : ConnId}
    {m : WireMessage} (h : WorkAuthorised s₀ (acts ++ [a]))
    (hrec : (coordinator.run s₀ acts).store.ops.Recorded m.op) (htype : m.type = .DISPATCH) :
    .sent c m ∉ ((coordinator.run s₀ acts).step a).2 :=
  fun hsent => h.unrecorded acts [] a [] rfl c m hsent htype hrec

/-- What is sent was about to be sent. -/
theorem GrantInv.sent {s : Coord} {t : List Event} {a : Action} {c : ConnId} {m : WireMessage}
    (inv : GrantInv s t) (hsent : .sent c m ∈ (s.step a).2) (htype : m.type = .DISPATCH) :
    Granted t m.op m.authority ∧ ¬ s.store.ops.Recorded m.op := by
  obtain ⟨-, new, -, hpc | ⟨hpc, hop⟩⟩ := (s.step_moves a).sent_dispatch hsent htype
  · exact inv.sending _ _ _ _ hpc
  · rw [hop]
    exact inv.resending _ _ _ hpc

/-- What is recorded stays recorded in every run. -/
theorem recorded_run {s : Coord} {op : OperationId} (h : s.store.ops.Recorded op)
    (acts : List Action) : (coordinator.run s acts).store.ops.Recorded op :=
  Machine.run_induction (M := coordinator) (P := fun s => s.store.ops.Recorded op)
    (fun s a h => (s.step_moves a).recorded_stays h) h acts

/-- **Only granted work is sent.** In every run of the coordinator whose steps meet the
    condition, every `DISPATCH` was granted by the registry, and a recorded operation is never
    sent again. -/
theorem work_authorised (file : Option (List UInt8)) (acts : List Action)
    (hC : coordinator.Always grantStands (.boot file) acts) :
    WorkAuthorised (.boot file) acts where
  granted := by
    rintro pre a post rfl c m hsent htype
    have inv := grantInv_run file ((Machine.always_append _ _ _ _).mp hC).1
    exact (inv.sent hsent htype).1
  unrecorded := by
    rintro pre mid a post rfl c m hsent htype hrec
    rw [← List.append_assoc] at hC
    have inv := grantInv_run file ((Machine.always_append _ _ _ _).mp hC).1
    rw [Machine.run_append] at inv
    exact (inv.sent hsent htype).2 (recorded_run hrec mid)

theorem work_authorised_dispatchedRun : WorkAuthorised (.boot none) dispatchedRun := by
  refine work_authorised none dispatchedRun ?_
  refine ⟨trivial, trivial, trivial, trivial, trivial, trivial, ?_, trivial, ?_, trivial, trivial⟩
  · -- the operation is unknown when the client asks for it
    have hnone : (coordinator.run (.boot none) (dispatchedRun.take 6)).store.ops.find sampleOp =
        none := by decide
    exact fun _ r hr => absurd (hnone.symm.trans hr) (by simp)
  · -- nothing recovers when it is marked
    exact Or.inr (fun c' => match c' with
      | 0 => rfl
      | 1 => rfl
      | _ + 2 => rfl)

/-- The worker's completion is confirmed, and the client asks for the operation again. -/
def repeatedRun : List Action :=
  reportedRun ++ [.proceed 0 {},
    .receive 1 { type := .DISPATCH, op := sampleOp }, .proceed 1 { drawn := .ofByte 9 },
    .proceed 1 {}]

/-- The finished operation is sent to the worker again. -/
theorem repeated_request_sent :
    (coordinator.run (.boot none) repeatedRun).store.ops.Recorded sampleOp ∧
      .sent 0 { type := .DISPATCH, op := sampleOp, attempt := .generate (.ofByte 9),
                authority := { sampleAuthority with attempt := .generate (.ofByte 9) },
                worker := ⟨.ofByte 7⟩ } ∈
        ((coordinator.run (.boot none) repeatedRun).step (.proceed 1 {})).2 ∧
      ¬ WorkAuthorised (.boot none) (repeatedRun ++ [.proceed 1 {}]) := by
  have hrec : (coordinator.run (.boot none) repeatedRun).store.ops.Recorded sampleOp := by
    have hfind : ((coordinator.run (.boot none) repeatedRun).store.ops.find sampleOp).map
        (·.terminalRecorded) = some true := by decide
    obtain ⟨r, hr, hrec⟩ := Option.map_eq_some_iff.mp hfind
    exact ⟨r, hr, hrec⟩
  have hsent : .sent 0 { type := .DISPATCH, op := sampleOp, attempt := .generate (.ofByte 9),
                         authority := { sampleAuthority with attempt := .generate (.ofByte 9) },
                         worker := ⟨.ofByte 7⟩ } ∈
      ((coordinator.run (.boot none) repeatedRun).step (.proceed 1 {})).2 := by
    decide
  exact ⟨hrec, hsent, fun h => h.not_sent hrec rfl hsent⟩

end FailureFabric
