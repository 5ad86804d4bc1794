import FailureFabric.Store
import FailureFabric.Protocol

namespace FailureFabric

open Library

/-!
# The coordinator

The process that accepts workers and clients, dispatches operations, and recovers them when a
worker is lost.  Each connection has a thread.  The threads share the store, the table of
workers and the current operation, and run in turns: one step of a thread is one critical section
under `g_mu`, or one registry call, one read of a shared variable or one send outside of it.  Only
`save_state` takes more than one step while it holds `g_mu`, one for each frame that it writes: the
fields of a frame are read with no registry call in between, although `save` reads a runtime through
a pointer, without the lock of the registry.

A send is a step that is taken.  Whatever is safe with it is safe with a send that takes longer or
does not return; that the peer may not read matters for the progress of the threads only, where a
thread may stand in its send and keep `g_mu`.

* `Pc` — where a thread stands;
* `Coord` — the state of the process, with the bytes of its state file;
* `Action` — what can happen next, with the draws and the iteration orders of the step;
* `Event` — what a step does that can be seen: messages, registry calls, failure records;
* `coordinator` — the machine.  A step that is not enabled changes nothing.
-/

/-- A connection, numbered by whoever accepts it. -/
abbrev ConnId := Nat

/-- `Conn`, without the socket. -/
structure Conn where
  worker : Bool := false
  wid : WorkerId := {}
  boot : WorkerBootId := {}
  runningOp : Bool := false

/-- Where the thread of a connection stands: the step it takes next. -/
inductive Pc
  /-- The connection is not accepted yet. -/
  | unborn
  /-- `recv`. -/
  | reading
  /-- `handle_message`. -/
  | handle (m : WireMessage)
  /-- `DISPATCH`: the critical section that creates and dispatches. -/
  | dispatchLock (op : OperationId) (auth : AuthorityEnvelope)
  /-- `DISPATCH`: the send of `dispatch_to`. -/
  | dispatchSend (op : OperationId) (auth : AuthorityEnvelope) (target : ConnId)
  /-- `DISPATCH`: the critical section of `dispatch_to`. -/
  | dispatchMark (op : OperationId) (auth : AuthorityEnvelope) (target : ConnId)
  /-- `DISPATCH`: the call of `run`. -/
  | dispatchRun (op : OperationId) (auth : AuthorityEnvelope)
  /-- `COMPLETE`: the report was accepted; the call of `confirm_completion`. -/
  | completeConfirm (op : OperationId) (e : AuthorityEnvelope)
  /-- `COMPLETE`: the send of the acknowledgement. -/
  | completeAck (op : OperationId) (e : AuthorityEnvelope)
  /-- `COMPLETE`: the report was not accepted; the send of the refusal. -/
  | completeFence (op : OperationId)
  /-- `COMPLETE`: the critical section that saves, before it starts. -/
  | completeSave (op : OperationId)
  /-- `COMPLETE`: inside `save`, with the writes still to do, each of a whole frame. -/
  | saving (todo : List SaveItem)
  /-- The connection ended; the critical section that forgets the worker. -/
  | lostLock
  /-- The lost worker was running; the test of `g_finished`. -/
  | lostCheck
  /-- The critical section that transfers the ownership. -/
  | lostTransfer
  /-- The failure record is begun. -/
  | lostBuild (cur : AuthorityEnvelope)
  /-- The critical section that appends it and reports the failure. -/
  | lostReport (cur : AuthorityEnvelope) (b : FailureRecordBuilder)
  /-- The critical section that chooses a replacement and dispatches. -/
  | lostChoose (cur : AuthorityEnvelope)
  /-- The test for a replacement and a terminal state. -/
  | lostVerify (fresh : AuthorityEnvelope) (replacement : Option ConnId)
  /-- The send of `dispatch_to`. -/
  | lostSend (fresh : AuthorityEnvelope) (replacement : ConnId)
  /-- The critical section of `dispatch_to`. -/
  | lostMark (replacement : ConnId)
  /-- The thread has returned. -/
  | ended

/-- The next step is a critical section under `g_mu`. -/
def Pc.needsLock : Pc → Bool
  | handle m => m.type = .REGISTER || m.type = .RUNNING || m.type = .FAILURE
  | dispatchLock .. | dispatchMark .. | completeSave _ | lostLock | lostTransfer
  | lostReport .. | lostChoose _ | lostMark _ => true
  | _ => false

/-- The coordinator process and its state file. -/
structure Coord where
  store : FailureStore := {}
  /-- `g_workers`, in the order in which it is iterated. -/
  workers : List (WorkerId × ConnId) := []
  /-- `g_reg_order`. -/
  regOrder : List ConnId := []
  /-- `g_running_conn`. -/
  runningConn : Option ConnId := none
  /-- `g_current_op`. -/
  currentOp : OperationId := {}
  /-- `g_finished`. -/
  finished : Bool := false
  /-- The thread that holds `g_mu` from one step to the next. -/
  holder : Option ConnId := none
  conn : ConnId → Conn := fun _ => {}
  pc : ConnId → Pc := fun _ => .unborn
  /-- The bytes written to the state file since it was truncated, if there is a file. -/
  disk : Option (List UInt8) := none

/-- What the environment decides in a step: the random draw, the clock, the order in which
    `g_workers` is iterated after an insertion, and the orders in which `save` iterates. -/
structure Choice where
  drawn : Uuid128 := Uuid128.zero
  now : UInt64 := 0
  workers : List (WorkerId × ConnId) := []
  failures : List (Entry FailureId FailureRecord) := []
  ops : List (Entry OperationId OperationRuntime) := []
  idem : List (Entry PairKey IdempotencyEntry) := []

/-- What can happen next. -/
inductive Action
  /-- A connection is accepted. -/
  | accept (c : ConnId)
  /-- A message arrives on a connection whose thread is reading. -/
  | receive (c : ConnId) (m : WireMessage)
  /-- A connection ends while its thread is reading. -/
  | disconnect (c : ConnId)
  /-- The thread of a connection takes its next step. -/
  | proceed (c : ConnId) (ch : Choice)

/-- The connection whose thread takes the step. -/
def Action.conn : Action → ConnId
  | accept c | receive c _ | disconnect c | proceed c _ => c

/-- What can be seen of a step. -/
inductive Event
  | received (c : ConnId) (m : WireMessage)
  | sent (c : ConnId) (m : WireMessage)
  | applied (call : RegistryCall) (result : ApplyResult)
  | transferred (gen : Generation) (ok : Bool)
  | appended (rec : FailureRecord) (ok : Bool)
deriving DecidableEq

instance {κ α : Type} [DecidableEq κ] [DecidableEq α] (l : List (Entry κ α))
    (m : UnorderedMap κ α) : Decidable (UnorderedMap.Iterates l m) :=
  inferInstanceAs (Decidable ((l : Multiset (Entry κ α)) = m.entries))

/-- The iteration orders of a choice, when they are orders of the store's maps. -/
def Choice.orders (ch : Choice) (s : FailureStore) : Option s.Orders :=
  if h : UnorderedMap.Iterates ch.failures s.failures ∧ UnorderedMap.Iterates ch.ops s.ops.ops ∧
      UnorderedMap.Iterates ch.idem s.idem.entries then
    some ⟨ch.failures, ch.ops, ch.idem, h.1, h.2.1, h.2.2⟩
  else none

namespace Coord

variable (s : Coord) (c : ConnId)

/-- The thread of `c` goes on at `pc`. -/
def goto (pc : Pc) : Coord := { s with pc := Function.update s.pc c pc }

/-- One call on the registry of the store, and its result. -/
def call (rc : RegistryCall) : Coord × ApplyResult :=
  let (ops, result) := registry.step s.store.ops rc
  ({ s with store := { s.store with ops := ops } }, result)

/-- `g_workers[wid] = c`: in place when the worker is known, else anywhere. -/
def setWorker (wid : WorkerId) (order : List (WorkerId × ConnId)) : List (WorkerId × ConnId) :=
  if s.workers.any (·.1 = wid) then
    s.workers.map (fun p => if p.1 = wid then (wid, c) else p)
  else if order.Perm (s.workers ++ [(wid, c)]) then order
  else s.workers ++ [(wid, c)]

/-- `new_attempt`. -/
def newAttempt (cur : AuthorityEnvelope) (drawn : Uuid128) : AuthorityEnvelope :=
  { cur with
    attempt := Id.generate drawn
    attemptGeneration := cur.attemptGeneration.next
    operationGeneration := cur.operationGeneration.next
    failureGeneration := cur.failureGeneration.next
    recoveryGeneration := cur.recoveryGeneration.next }

/-- The message that `dispatch_to` sends. -/
def dispatchMessage (target : ConnId) (op : OperationId) (authority : AuthorityEnvelope) :
    WireMessage :=
  { type := .DISPATCH, op := op, attempt := authority.attempt, authority := authority,
    worker := (s.conn target).wid }

/-- The critical section of `dispatch_to`. -/
def mark (target : ConnId) (op : OperationId) : Coord :=
  { s with
    conn := Function.update s.conn target { s.conn target with runningOp := true }
    runningConn := some target
    currentOp := op }

/-- The authority that a client's `DISPATCH` is given.  The boot is read without the lock. -/
def clientAuthority (drawn : Uuid128) : AuthorityEnvelope where
  coordinatorEpoch := ⟨1⟩
  attempt := Id.generate drawn
  attemptGeneration := ⟨1⟩
  operationGeneration := ⟨1⟩
  workerBoot := match s.workers with
    | [] => {}
    | (_, w) :: _ => (s.conn w).boot

/-- The first step of `handle_message`. -/
def handleMessage (m : WireMessage) (ch : Choice) : Coord × List Event :=
  match m.type with
  | .REGISTER =>
    let wid := if m.worker.isNull then Id.generate ch.drawn else m.worker
    let s' : Coord :=
      { s with
        conn := Function.update s.conn c { s.conn c with worker := true, wid, boot := m.boot }
        workers := s.setWorker c wid ch.workers
        regOrder := s.regOrder ++ [c] }
    (s'.goto c .reading, [.sent c { type := .REGISTER_ACK, worker := wid }])
  | .DISPATCH => (s.goto c (.dispatchLock m.op (s.clientAuthority ch.drawn)), [])
  | .RUNNING =>
    let (s', res) := s.call (.run m.op m.authority)
    (s'.goto c .reading, [.applied (.run m.op m.authority) res])
  | .COMPLETE =>
    let (s', fr) := s.call (.reportCompletion m.op m.authority false)
    (s'.goto c (if fr = .OK then .completeConfirm m.op m.authority else .completeFence m.op),
      [.applied (.reportCompletion m.op m.authority false) fr])
  | .FAILURE =>
    let (s', res) := s.call (.reportFailure m.op m.authority m.flag)
    (s'.goto c .reading, [.applied (.reportFailure m.op m.authority m.flag) res])
  | _ => (s.goto c .reading, [])

/-- The critical section of a client's `DISPATCH`.  Both results are ignored. -/
def dispatchLock (op : OperationId) (auth : AuthorityEnvelope) : Coord × List Event :=
  match s.workers with
  | [] => (s.goto c .reading, [])
  | (_, target) :: _ =>
    let (s₁, res₁) := s.call (.create op auth)
    let (s₂, res₂) := s₁.call (.dispatch op auth)
    (s₂.goto c (.dispatchSend op auth target),
      [.applied (.create op auth) res₁, .applied (.dispatch op auth) res₂])

/-- The critical section after the end of a connection. -/
def lostLock : Coord × List Event :=
  if s.runningConn = some c then
    ({ s with
        workers := s.workers.filter (·.1 ≠ (s.conn c).wid)
        runningConn := none }.goto c .lostCheck, [])
  else (s.goto c .ended, [])

/-- The critical section that transfers the ownership. -/
def lostTransfer (ch : Choice) : Coord × List Event :=
  let cur := s.store.ops.currentAuthority s.currentOp
  let gen := cur.recoveryGeneration.next
  let (own, ok) := s.store.ownership.transfer .REPLACEMENT_WORKER gen (Id.generate ch.drawn) cur
  ({ s with store := { s.store with ownership := own } }.goto c (.lostBuild cur),
    [.transferred gen ok])

/-- The record of the loss, as far as it is known before it is appended. -/
def lossRecord (cur : AuthorityEnvelope) (now : UInt64) : FailureRecordBuilder where
  r := { failureClass := .AMBIGUOUS, operation := s.currentOp, attempt := cur.attempt,
         origin := .WORKER, phase := .ACK, completion := .AMBIGUOUS,
         sideEffectState := .MAY_OCCURRED, unknownSideEffects := 1, authority := cur,
         timestampMs := now }

/-- The critical section that appends the record and reports the failure. -/
def lostReport (cur : AuthorityEnvelope) (b : FailureRecordBuilder) (ch : Choice) :
    Coord × List Event :=
  let rec' := b.build ch.drawn
  let appended := s.store.appendFailure rec'
  let called := { s with store := appended.1 }.call (.reportFailure s.currentOp cur true)
  (called.1.goto c (.lostChoose cur),
    [.appended rec' appended.2, .applied (.reportFailure s.currentOp cur true) called.2])

/-- The connection that gets the work of a lost worker: the first one that registered, or else
    the first one in the table. -/
def replacement : Option ConnId :=
  match s.workers, s.regOrder with
  | [], _ | _, [] => none
  | (_, w) :: _, r :: _ => if s.workers.any (·.1 = (s.conn r).wid) then some r else some w

/-- The critical section that chooses a replacement and dispatches.  The result is ignored. -/
def lostChoose (cur : AuthorityEnvelope) (ch : Choice) : Coord × List Event :=
  let fresh := newAttempt cur ch.drawn
  match s.replacement with
  | none => (s.goto c (.lostVerify fresh none), [])
  | some r =>
    let (s', res) := s.call (.dispatch s.currentOp fresh)
    (s'.goto c (.lostVerify fresh (some r)), [.applied (.dispatch s.currentOp fresh) res])

/-- The next step of a thread that is not reading and may run.  A send in it returns. -/
def advance (ch : Choice) : Coord × List Event :=
  match s.pc c with
  | .unborn | .reading | .ended => (s, [])
  | .handle m => s.handleMessage c m ch
  | .dispatchLock op auth => s.dispatchLock c op auth
  | .dispatchSend op auth target =>
    (s.goto c (.dispatchMark op auth target), [.sent target (s.dispatchMessage target op auth)])
  | .dispatchMark op auth target => ((s.mark target op).goto c (.dispatchRun op auth), [])
  | .dispatchRun op auth =>
    let (s', res) := s.call (.run op auth)
    (s'.goto c .reading, [.applied (.run op auth) res])
  | .completeConfirm op e =>
    -- the result is ignored
    let (s', res) := s.call (.confirmCompletion op e)
    (s'.goto c (.completeAck op e), [.applied (.confirmCompletion op e) res])
  | .completeAck op _ =>
    (s.goto c (.completeSave op), [.sent c { type := .ACK, flag := true, op := op }])
  | .completeFence op =>
    (s.goto c .reading, [.sent c { type := .FENCE, flag := false, op := op,
                                   text := Text.ofLiteral "stale completion rejected" }])
  | .completeSave _ =>
    match ch.orders s.store with
    | none => (s, [])
    | some o =>
      ({ s with finished := true, disk := some [], holder := some c }.goto c
        (.saving (s.store.savePlan o)), [])
  | .saving [] => ({ s with holder := none }.goto c .reading, [])
  | .saving (item :: todo) =>
    ({ s with disk := s.disk.map (· ++ s.store.write item) }.goto c (.saving todo), [])
  | .lostLock => s.lostLock c
  | .lostCheck => (s.goto c (if s.finished then .ended else .lostTransfer), [])
  | .lostTransfer => s.lostTransfer c ch
  | .lostBuild cur => (s.goto c (.lostReport cur (s.lossRecord cur ch.now)), [])
  | .lostReport cur b => s.lostReport c cur b ch
  | .lostChoose cur => s.lostChoose c cur ch
  | .lostVerify fresh replacement =>
    match replacement with
    | none => (s.goto c .ended, [])
    | some r =>
      if isTerminal (s.store.ops.state s.currentOp) then (s.goto c .ended, [])
      else (s.goto c (.lostSend fresh r), [])
  | .lostSend fresh r =>
    -- the operation is a reference to `g_current_op`, read now
    (s.goto c (.lostMark r), [.sent r (s.dispatchMessage r s.currentOp fresh)])
  | .lostMark r => ((s.mark r s.currentOp).goto c .ended, [])

/-- One step of the process. -/
def step : Action → Coord × List Event
  | .accept c =>
    match s.pc c with
    | .unborn => (s.goto c .reading, [])
    | _ => (s, [])
  | .receive c m =>
    match s.pc c with
    | .reading => (s.goto c (.handle m), [.received c m])
    | _ => (s, [])
  | .disconnect c =>
    match s.pc c with
    | .reading => (s.goto c .lostLock, [])
    | _ => (s, [])
  | .proceed c ch =>
    if (s.pc c).needsLock && s.holder.isSome then (s, []) else s.advance c ch

/-- The process at its start, with what it loads of a state file. -/
def boot (file : Option (List UInt8)) : Coord where
  store := (({} : FailureStore).load file).1
  disk := file

end Coord

/-- The coordinator as a machine. -/
def coordinator : Machine Coord Action (List Event) where
  step := Coord.step

/-! ### A run that the later modules evaluate -/

/-- The operation of the run. -/
def sampleOp : OperationId := ⟨.ofByte 2⟩

/-- The authority that the operation is dispatched under. -/
def sampleAuthority : AuthorityEnvelope where
  coordinatorEpoch := ⟨1⟩
  workerBoot := ⟨.ofByte 8⟩
  attempt := .generate (.ofByte 5)
  attemptGeneration := ⟨1⟩
  operationGeneration := ⟨1⟩

/-- A client on connection 1 asks for the operation. -/
def askedRun : List Action :=
  [.accept 1, .receive 1 { type := .DISPATCH, op := sampleOp },
    .proceed 1 { drawn := .ofByte 5 }, .proceed 1 {}, .proceed 1 {}, .proceed 1 {}, .proceed 1 {}]

/-- A worker registers on connection 0 and is sent the operation. -/
def dispatchedRun : List Action :=
  [.accept 0, .receive 0 { type := .REGISTER, worker := ⟨.ofByte 7⟩, boot := ⟨.ofByte 8⟩ },
    .proceed 0 {}] ++ askedRun

/-- The worker's completion is reported, and not yet confirmed. -/
def reportedRun : List Action :=
  dispatchedRun ++
    [.receive 0 { type := .COMPLETE, op := sampleOp, authority := sampleAuthority },
      .proceed 0 {}]

end FailureFabric
