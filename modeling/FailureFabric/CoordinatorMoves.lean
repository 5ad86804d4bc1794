import FailureFabric.Coordinator
import FailureFabric.RegistryRuns

namespace FailureFabric

open Library

/-!
# The moves of the coordinator

Everything a step of the coordinator can do, as a relation with one rule for each kind of step.
The invariants of the coordinator are proved by cases on it and never unfold the step function.

* `Coord.Local` — the steps of a thread that change nothing but where it stands;
* `Coord.Calls` — the steps that make one call on the registry and nothing else;
* `Coord.Moves` — all steps; `Coord.step_moves` says that the step function takes one of them;
* `Coord.Moves.ops_eq` — the coordinator refines the registry: the registry after a step is the run
  of the calls among its events, with the results that the events show.
-/

/-- The steps of the thread of `c` that change nothing shared: from where to where, and the
    events. -/
inductive Coord.Local (s : Coord) (c : ConnId) : Pc → Pc → List Event → Prop
  | accept : Local s c .unborn .reading []
  | receive (m : WireMessage) : Local s c .reading (.handle m) [.received c m]
  | disconnect : Local s c .reading .lostLock []
  | asked (m : WireMessage) (drawn : Uuid128) :
      Local s c (.handle m) (.dispatchLock m.op (s.clientAuthority drawn)) []
  | ignored (m : WireMessage) : Local s c (.handle m) .reading []
  | noWorkers (op : OperationId) (auth : AuthorityEnvelope) :
      Local s c (.dispatchLock op auth) .reading []
  | sentDispatch (op : OperationId) (auth : AuthorityEnvelope) (target : ConnId) :
      Local s c (.dispatchSend op auth target) (.dispatchMark op auth target)
        [.sent target (s.dispatchMessage target op auth)]
  | sentAck (op : OperationId) (e : AuthorityEnvelope) :
      Local s c (.completeAck op e) (.completeSave op)
        [.sent c { type := .ACK, flag := true, op := op }]
  | sentFence (op : OperationId) :
      Local s c (.completeFence op) .reading
        [.sent c { type := .FENCE, flag := false, op := op,
                   text := Text.ofLiteral "stale completion rejected" }]
  | notRunning : Local s c .lostLock .ended []
  | allDone : Local s c .lostCheck .ended []
  | recover : Local s c .lostCheck .lostTransfer []
  | built (cur : AuthorityEnvelope) (now : UInt64) :
      Local s c (.lostBuild cur) (.lostReport cur (s.lossRecord cur now)) []
  | noReplacement (cur : AuthorityEnvelope) (drawn : Uuid128) :
      Local s c (.lostChoose cur) (.lostVerify (Coord.newAttempt cur drawn) none) []
  | gaveUp (fresh : AuthorityEnvelope) (replacement : Option ConnId) :
      Local s c (.lostVerify fresh replacement) .ended []
  | verified (fresh : AuthorityEnvelope) (r : ConnId)
      (hlive : isTerminal (s.store.ops.state s.currentOp) = false) :
      Local s c (.lostVerify fresh (some r)) (.lostSend fresh r) []
  | sentAgain (fresh : AuthorityEnvelope) (r : ConnId) :
      Local s c (.lostSend fresh r) (.lostMark r)
        [.sent r (s.dispatchMessage r s.currentOp fresh)]

/-- The steps of a thread that make one call on the registry: from where, the call, its result,
    and to where. -/
inductive Coord.Calls (s : Coord) : Pc → RegistryCall → ApplyResult → Pc → Prop
  | running (m : WireMessage) (res : ApplyResult) :
      Calls s (.handle m) (.run m.op m.authority) res .reading
  | failure (m : WireMessage) (res : ApplyResult) :
      Calls s (.handle m) (.reportFailure m.op m.authority m.flag) res .reading
  | reported (m : WireMessage) (hm : m.type = .COMPLETE) :
      Calls s (.handle m) (.reportCompletion m.op m.authority false) .OK
        (.completeConfirm m.op m.authority)
  | notReported (m : WireMessage) (res : ApplyResult) (hres : res ≠ .OK) :
      Calls s (.handle m) (.reportCompletion m.op m.authority false) res (.completeFence m.op)
  | started (op : OperationId) (auth : AuthorityEnvelope) (res : ApplyResult) :
      Calls s (.dispatchRun op auth) (.run op auth) res .reading
  | confirm (op : OperationId) (e : AuthorityEnvelope) (res : ApplyResult) :
      Calls s (.completeConfirm op e) (.confirmCompletion op e) res (.completeAck op e)
  | redispatch (cur : AuthorityEnvelope) (drawn : Uuid128) (r : ConnId) (res : ApplyResult)
      (hr : s.replacement = some r) :
      Calls s (.lostChoose cur) (.dispatch s.currentOp (Coord.newAttempt cur drawn)) res
        (.lostVerify (Coord.newAttempt cur drawn) (some r))

/-- The steps of the coordinator, by the thread of `c`. -/
inductive Coord.Moves (s : Coord) (c : ConnId) : Action → Coord → List Event → Prop
  | idle (a : Action) : Moves s c a s []
  | localStep (a : Action) (new : Pc) (evs : List Event) (h : s.Local c (s.pc c) new evs) :
      Moves s c a (s.goto c new) evs
  | callStep (ch : Choice) (rc : RegistryCall) (new : Pc)
      (h : s.Calls (s.pc c) rc (s.call rc).2 new) :
      Moves s c (.proceed c ch) ((s.call rc).1.goto c new) [.applied rc (s.call rc).2]
  | register (a : Action) (m : WireMessage) (wid : WorkerId) (order : List (WorkerId × ConnId))
      (h : s.pc c = .handle m) :
      Moves s c a
        ({ s with
            conn := Function.update s.conn c { s.conn c with worker := true, wid, boot := m.boot }
            workers := s.setWorker c wid order
            regOrder := s.regOrder ++ [c] }.goto c .reading)
        [.sent c { type := .REGISTER_ACK, worker := wid }]
  | dispatchLock (ch : Choice) (op : OperationId) (auth : AuthorityEnvelope) (wid : WorkerId)
      (target : ConnId) (rest : List (WorkerId × ConnId)) (h : s.pc c = .dispatchLock op auth)
      (hworkers : s.workers = (wid, target) :: rest) (hfree : s.holder = none) :
      Moves s c (.proceed c ch)
        (((s.call (.create op auth)).1.call (.dispatch op auth)).1.goto c
          (.dispatchSend op auth target))
        [.applied (.create op auth) (s.call (.create op auth)).2,
          .applied (.dispatch op auth) ((s.call (.create op auth)).1.call (.dispatch op auth)).2]
  | marked (ch : Choice) (op : OperationId) (auth : AuthorityEnvelope) (target : ConnId)
      (h : s.pc c = .dispatchMark op auth target) :
      Moves s c (.proceed c ch) ((s.mark target op).goto c (.dispatchRun op auth)) []
  | markedAgain (a : Action) (r : ConnId) (h : s.pc c = .lostMark r) :
      Moves s c a ((s.mark r s.currentOp).goto c .ended) []
  | lost (a : Action) (h : s.pc c = .lostLock) (hrun : s.runningConn = some c) :
      Moves s c a
        ({ s with
            workers := s.workers.filter (·.1 ≠ (s.conn c).wid)
            runningConn := none }.goto c .lostCheck) []
  | transferred (a : Action) (ch : Choice) (h : s.pc c = .lostTransfer)
      (hfree : s.holder = none) :
      Moves s c a (s.lostTransfer c ch).1 (s.lostTransfer c ch).2
  | recorded (a : Action) (ch : Choice) (cur : AuthorityEnvelope) (b : FailureRecordBuilder)
      (h : s.pc c = .lostReport cur b) (hfree : s.holder = none) :
      Moves s c a (s.lostReport c cur b ch).1 (s.lostReport c cur b ch).2
  | saveStart (ch : Choice) (op : OperationId) (o : s.store.Orders)
      (h : s.pc c = .completeSave op) (hfree : s.holder = none) :
      Moves s c (.proceed c ch)
        ({ s with finished := true, disk := some [], holder := some c }.goto c
          (.saving (s.store.savePlan o))) []
  | saveItem (a : Action) (item : SaveItem) (todo : List SaveItem)
      (h : s.pc c = .saving (item :: todo)) :
      Moves s c a
        ({ s with disk := s.disk.map (· ++ s.store.write item) }.goto c (.saving todo)) []
  | saveEnd (a : Action) (h : s.pc c = .saving []) :
      Moves s c a ({ s with holder := none }.goto c .reading) []

/-- The thread stands inside the handling of a message, where only local steps and single calls
    lead, or between the choice of a replacement and the send to it. -/
def Pc.inside : Pc → Bool
  | handle _ | completeConfirm .. | completeAck .. | lostVerify .. | lostSend .. => true
  | _ => false

namespace Coord

variable {s : Coord}

/-- A critical section starts with the lock free. -/
private theorem holder_of_needsLock {c : ConnId} {pc : Pc} (hpc : s.pc c = pc)
    (hlock : ¬ ((s.pc c).needsLock && s.holder.isSome) = true) (hneeds : pc.needsLock = true) :
    s.holder = none := by
  rw [hpc, hneeds, Bool.true_and, Option.not_isSome_iff_eq_none] at hlock
  exact hlock

/-- The branch of every kind of message is one of the moves. -/
private theorem handleMessage_moves {c : ConnId} {m : WireMessage} (h : s.pc c = .handle m)
    (ch : Choice) :
    s.Moves c (.proceed c ch) (s.handleMessage c m ch).1 (s.handleMessage c m ch).2 := by
  unfold handleMessage
  split
  · exact .register _ m _ _ h
  · exact .localStep _ _ _ (by rw [h]; exact .asked m _)
  · exact .callStep ch _ _ (by rw [h]; exact .running m _)
  · next hm =>
    dsimp only
    refine .callStep ch (.reportCompletion m.op m.authority false) _ ?_
    rw [h]
    split
    · next hok => rw [hok]; exact .reported m hm
    · next hres => exact .notReported m _ hres
  · exact .callStep ch _ _ (by rw [h]; exact .failure m _)
  · exact .localStep _ _ _ (by rw [h]; exact .ignored m)

/-- So is every stop of a thread that has the lock it needs. -/
private theorem advance_moves (c : ConnId) (ch : Choice)
    (hlock : ¬ ((s.pc c).needsLock && s.holder.isSome) = true) :
    s.Moves c (.proceed c ch) (s.advance c ch).1 (s.advance c ch).2 := by
  unfold advance
  cases h : s.pc c with
  | unborn | reading | ended => exact .idle _
  | handle m => exact handleMessage_moves h ch
  | dispatchLock op auth =>
    dsimp only
    unfold Coord.dispatchLock
    split
    · exact .localStep _ _ _ (by rw [h]; exact .noWorkers op auth)
    · next hworkers =>
      exact .dispatchLock ch op auth _ _ _ h hworkers (holder_of_needsLock h hlock rfl)
  | dispatchSend op auth target =>
    exact .localStep _ _ _ (by rw [h]; exact .sentDispatch op auth target)
  | dispatchMark op auth target => exact .marked ch op auth target h
  | dispatchRun op auth => exact .callStep ch _ _ (by rw [h]; exact .started op auth _)
  | completeConfirm op e => exact .callStep ch _ _ (by rw [h]; exact .confirm op e _)
  | completeAck op e => exact .localStep _ _ _ (by rw [h]; exact .sentAck op e)
  | completeFence op => exact .localStep _ _ _ (by rw [h]; exact .sentFence op)
  | completeSave op =>
    dsimp only
    split
    · exact .idle _
    · next o _ => exact .saveStart ch op o h (holder_of_needsLock h hlock rfl)
  | saving todo =>
    cases todo with
    | nil => exact .saveEnd _ h
    | cons item todo => exact .saveItem _ item todo h
  | lostLock =>
    dsimp only
    unfold Coord.lostLock
    split
    · next hrun => exact .lost _ h hrun
    · exact .localStep _ _ _ (by rw [h]; exact .notRunning)
  | lostCheck =>
    refine .localStep _ _ _ ?_
    rw [h]
    split
    · exact .allDone
    · exact .recover
  | lostTransfer => exact .transferred _ ch h (holder_of_needsLock h hlock rfl)
  | lostBuild cur => exact .localStep _ _ _ (by rw [h]; exact .built cur _)
  | lostReport cur b => exact .recorded _ ch cur b h (holder_of_needsLock h hlock rfl)
  | lostChoose cur =>
    dsimp only
    unfold Coord.lostChoose
    dsimp only
    split
    · exact .localStep _ _ _ (by rw [h]; exact .noReplacement cur _)
    · next r hr => exact .callStep ch _ _ (by rw [h]; exact .redispatch cur _ r _ hr)
  | lostVerify fresh replacement =>
    cases replacement with
    | none => exact .localStep _ _ _ (by rw [h]; exact .gaveUp fresh none)
    | some r =>
      dsimp only
      split
      · exact .localStep _ _ _ (by rw [h]; exact .gaveUp fresh (some r))
      · next hlive =>
        exact .localStep _ _ _ (by rw [h]; exact .verified fresh r (by simpa using hlive))
  | lostSend fresh r => exact .localStep _ _ _ (by rw [h]; exact .sentAgain fresh r)
  | lostMark r => exact .markedAgain _ r h

/-- **Inversion.** Every step of the coordinator is one of the moves. -/
theorem step_moves (s : Coord) (a : Action) : s.Moves a.conn a (s.step a).1 (s.step a).2 := by
  unfold step
  split <;> dsimp only [Action.conn]
  · next c =>
    split
    · next h => exact .localStep _ _ _ (by rw [h]; exact .accept)
    · exact .idle _
  · next c m =>
    split
    · next h => exact .localStep _ _ _ (by rw [h]; exact .receive m)
    · exact .idle _
  · next c =>
    split
    · next h => exact .localStep _ _ _ (by rw [h]; exact .disconnect)
    · exact .idle _
  · next c ch =>
    split
    · exact .idle _
    · next hlock => exact advance_moves c ch hlock

/-- A thread that is neither unborn nor reading takes its next step, or none. -/
theorem step_of_started {a : Action}
    (h : s.pc a.conn ≠ .unborn ∧ s.pc a.conn ≠ .reading) :
    s.step a = (s, []) ∨ ∃ ch, a = .proceed a.conn ch ∧ s.step a = s.advance a.conn ch := by
  obtain ⟨hunborn, hreading⟩ := h
  cases a with
  | accept c | receive c m | disconnect c =>
    left
    dsimp only [step]
    split
    · contradiction
    · rfl
  | proceed c ch =>
    dsimp only [step]
    split
    · exact Or.inl rfl
    · exact Or.inr ⟨ch, rfl, rfl⟩

/-- A thread that needs the lock takes its next step with the lock free, or none. -/
theorem step_of_needsLock {a : Action} (hneeds : (s.pc a.conn).needsLock = true) :
    s.step a = (s, []) ∨
      s.holder = none ∧ ∃ ch, a = .proceed a.conn ch ∧ s.step a = s.advance a.conn ch := by
  have hstarted : s.pc a.conn ≠ .unborn ∧ s.pc a.conn ≠ .reading := by
    constructor <;>
    · intro hpc
      rw [hpc] at hneeds
      cases hneeds
  rcases step_of_started hstarted with hidle | ⟨ch, ha, hstep⟩
  · exact Or.inl hidle
  · by_cases hlock : ((s.pc a.conn).needsLock && s.holder.isSome) = true
    · left
      rw [ha]
      exact if_pos hlock
    · exact Or.inr ⟨holder_of_needsLock rfl hlock hneeds, ch, ha, hstep⟩

/-! ### What a step leaves alone -/

section Frame

variable {c c' : ConnId} {a : Action} {s' : Coord} {evs : List Event}

/-- The thread that moves is where it moves to. -/
@[simp] theorem goto_pc_self (s : Coord) (c : ConnId) (pc : Pc) : (s.goto c pc).pc c = pc :=
  Function.update_self ..

/-- The others stay where they are. -/
@[simp] theorem goto_pc_of_ne (s : Coord) (pc : Pc) (h : c' ≠ c) :
    (s.goto c pc).pc c' = s.pc c' :=
  Function.update_of_ne h ..

/-- Moving leaves the store. -/
@[simp] theorem goto_store (s : Coord) (c : ConnId) (pc : Pc) : (s.goto c pc).store = s.store :=
  rfl

/-- A call takes one step of the registry. -/
@[simp] theorem call_ops (s : Coord) (rc : RegistryCall) :
    (s.call rc).1.store.ops = (registry.step s.store.ops rc).1 := rfl

/-- Its answer is that of the registry. -/
@[simp] theorem call_result (s : Coord) (rc : RegistryCall) :
    (s.call rc).2 = (registry.step s.store.ops rc).2 := rfl

/-- A step leaves the other threads where they stand. -/
theorem Moves.pc_of_ne (h : s.Moves c a s' evs) (hne : c' ≠ c) : s'.pc c' = s.pc c' := by
  cases h with
  | idle => rfl
  | transferred a ch => exact goto_pc_of_ne _ _ hne
  | recorded a ch cur b => exact goto_pc_of_ne _ _ hne
  | localStep | callStep | register | dispatchLock | marked | markedAgain | lost | saveStart
  | saveItem | saveEnd => exact goto_pc_of_ne _ _ hne

/-- A thread that stands elsewhere after the step is the one that took it. -/
theorem Moves.mover (h : s.Moves c a s' evs) (hne : s'.pc c' ≠ s.pc c') : c' = c := by
  by_contra hc
  exact hne (h.pc_of_ne hc)

/-- A thread that stands inside the handling of a message, or between the choice of a replacement
    and the send to it, got there by a local step or by a single call. -/
theorem Moves.arrives (h : s.Moves c a s' evs) (hpc : (s'.pc c).inside = true) :
    (s' = s ∧ evs = []) ∨
    (s.Local c (s.pc c) (s'.pc c) evs ∧ s' = s.goto c (s'.pc c)) ∨
    ∃ ch rc, a = .proceed c ch ∧ s.Calls (s.pc c) rc (s.call rc).2 (s'.pc c) ∧
      s' = (s.call rc).1.goto c (s'.pc c) ∧ evs = [.applied rc (s.call rc).2] := by
  cases h with
  | idle => exact Or.inl ⟨rfl, rfl⟩
  | localStep a new evs h =>
    rw [goto_pc_self]
    exact Or.inr (Or.inl ⟨h, rfl⟩)
  | callStep ch rc new h =>
    rw [goto_pc_self]
    exact Or.inr (Or.inr ⟨ch, rc, rfl, h, rfl, rfl⟩)
  | register | dispatchLock | marked | markedAgain | lost | saveStart | saveItem | saveEnd =>
    rw [goto_pc_self] at hpc
    exact absurd hpc (by simp [Pc.inside])
  | transferred | recorded =>
    exact absurd hpc (by simp [lostTransfer, lostReport, Pc.inside])

/-- The calls among the events, with their results. -/
def callsIn (evs : List Event) : List (RegistryCall × ApplyResult) :=
  evs.filterMap fun
    | .applied rc res => some (rc, res)
    | _ => none

/-- **Refinement.** The registry after a step is the run of the calls among the events of the
    step, and their results are those of that run. -/
theorem Moves.ops_eq (h : s.Moves c a s' evs) :
    s'.store.ops = registry.run s.store.ops ((callsIn evs).map Prod.fst) ∧
      registry.outputs s.store.ops ((callsIn evs).map Prod.fst) = (callsIn evs).map Prod.snd := by
  cases h with
  | idle | register | marked | markedAgain | lost | saveStart | saveItem | saveEnd =>
    exact ⟨rfl, rfl⟩
  | localStep a new evs h =>
    generalize s.pc c = pc at h
    cases h <;> exact ⟨rfl, rfl⟩
  | callStep | dispatchLock | transferred => exact ⟨rfl, rfl⟩
  | recorded a ch cur b =>
    have hops : (s.store.appendFailure (b.build ch.drawn)).1.ops = s.store.ops := by
      rw [FailureStore.appendFailure_eq]
    have hcall : ∀ rc, ({ s with store := (s.store.appendFailure (b.build ch.drawn)).1 }.call
        rc).2 = (registry.step s.store.ops rc).2 := by
      intro rc
      rw [call_result, hops]
    refine ⟨?_, ?_⟩
    · show (registry.step (s.store.appendFailure (b.build ch.drawn)).1.ops
        (.reportFailure s.currentOp cur true)).1 = _
      rw [hops]
      rfl
    · show [(registry.step s.store.ops (.reportFailure s.currentOp cur true)).2] = [_]
      rw [hcall]

end Frame

end Coord

end FailureFabric
