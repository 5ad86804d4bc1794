import FailureFabric.CoordinatorMoves
import FailureFabric.Worker

namespace FailureFabric

open Library

/-!
# The cluster

The coordinator, its workers and its clients, and the connections between them.  At the other end
of a connection is a worker process, or a client that may send anything.  A connection keeps what
is sent on it in order until it is received.  A worker may be killed at any time, and a connection
may end at any time.

* `Cluster` — the processes, and what is on its way between them;
* `ClusterAction` — what can happen next: a step of the coordinator, of a worker or of a client;
* `ClusterEvent` — what can be seen of it;
* `cluster` — the machine.  The coordinator receives what was sent to it and nothing else;
* `Worker.Moves`, `Cluster.Moves` — everything a step can do.
-/

/-- The processes and the messages between them. -/
structure Cluster where
  coord : Coord
  /-- The worker at the other end of a connection, if it is one. -/
  worker : ConnId → Option Worker := fun _ => none
  /-- What was sent to the coordinator on a connection and is not received yet. -/
  toCoord : ConnId → List WireMessage := fun _ => []
  /-- What the coordinator has sent on a connection and is not received yet. -/
  toPeer : ConnId → List WireMessage := fun _ => []

/-- What can happen next. -/
inductive ClusterAction
  /-- A step of the coordinator. -/
  | coord (a : Action)
  /-- A worker process is started, and connects. -/
  | start (c : ConnId) (workdir mode : Text) (wid : WorkerId) (boot : WorkerBootId)
  /-- A worker takes its own next step; `ok` as in `Worker.proceed`. -/
  | proceed (c : ConnId) (ok : Bool)
  /-- A worker receives the next message. -/
  | deliver (c : ConnId)
  /-- A worker's connection ends while it waits. -/
  | lose (c : ConnId)
  /-- A worker is killed. -/
  | kill (c : ConnId)
  /-- A client sends a message. -/
  | client (c : ConnId) (m : WireMessage)

/-- The connection of the action. -/
def ClusterAction.conn : ClusterAction → ConnId
  | coord a => a.conn
  | start c .. | proceed c _ | deliver c | lose c | kill c | client c _ => c

/-- What can be seen of a step. -/
inductive ClusterEvent
  | coord (ev : Event)
  | worker (c : ConnId) (ev : WorkerEvent)
deriving DecidableEq

/-- What the coordinator sends on a connection, among its events. -/
def sentTo (c : ConnId) (evs : List Event) : List WireMessage :=
  evs.filterMap fun
    | .sent c' m => if c' = c then some m else none
    | _ => none

/-- What a worker sends, among its events. -/
def WorkerEvent.posted : WorkerEvent → Option WireMessage
  | sent m => some m
  | effect .. => none

namespace Cluster

variable (s : Cluster) (c : ConnId)

/-- A step of the coordinator; what it sends is on its way. -/
def coordStep (a : Action) : Cluster × List ClusterEvent :=
  let (coord, evs) := s.coord.step a
  ({ s with coord, toPeer := fun c => s.toPeer c ++ sentTo c evs }, evs.map .coord)

/-- The worker on a connection becomes `w`, with these events. -/
def workerStep (w : Worker) (evs : List WorkerEvent) : Cluster × List ClusterEvent :=
  ({ s with
      worker := Function.update s.worker c (some w)
      toCoord := Function.update s.toCoord c
        (s.toCoord c ++ evs.filterMap WorkerEvent.posted) },
    evs.map (.worker c))

/-- The connection is new: nobody has used it. -/
def isFresh : Bool :=
  match s.coord.pc c, s.worker c, s.toCoord c with
  | .unborn, none, [] => true
  | _, _, _ => false

/-- One step. -/
def step : ClusterAction → Cluster × List ClusterEvent
  | .coord (.receive c m) =>
    match s.coord.pc c, s.toCoord c with
    | .reading, m' :: rest =>
      if m = m' then
        coordStep { s with toCoord := Function.update s.toCoord c rest } (.receive c m)
      else (s, [])
    | _, _ => (s, [])
  | .coord a => s.coordStep a
  | .start c workdir mode wid boot =>
    if s.isFresh c then s.workerStep c { workdir, mode, wid, boot } [] else (s, [])
  | .proceed c ok =>
    match s.worker c with
    | none => (s, [])
    | some w => s.workerStep c (w.proceed ok).1 (w.proceed ok).2
  | .deliver c =>
    match s.worker c, s.toPeer c with
    | some w, m :: rest =>
      if w.receives then
        workerStep { s with toPeer := Function.update s.toPeer c rest } c (w.receive m) []
      else (s, [])
    | _, _ => (s, [])
  | .lose c =>
    match s.worker c with
    | none => (s, [])
    | some w => s.workerStep c w.lose []
  | .kill c =>
    match s.worker c with
    | none => (s, [])
    | some w => s.workerStep c { w with pc := .exited } []
  | .client c m =>
    match s.worker c with
    | none => ({ s with toCoord := Function.update s.toCoord c (s.toCoord c ++ [m]) }, [])
    | some _ => (s, [])

/-- The cluster when the coordinator has started. -/
def boot (file : Option (List UInt8)) : Cluster where
  coord := .boot file

end Cluster

/-- The cluster as a machine. -/
def cluster : Machine Cluster ClusterAction (List ClusterEvent) where
  step := Cluster.step

/-- Everything a step of the cluster can do. -/
inductive Cluster.Moves (s : Cluster) : ClusterAction → Cluster → List ClusterEvent → Prop
  | idle (a : ClusterAction) : Moves s a s []
  | received (c : ConnId) (m : WireMessage) (rest : List WireMessage)
      (hpc : s.coord.pc c = .reading) (hqueue : s.toCoord c = m :: rest) :
      Moves s (.coord (.receive c m))
        (coordStep { s with toCoord := Function.update s.toCoord c rest } (.receive c m)).1
        (coordStep { s with toCoord := Function.update s.toCoord c rest } (.receive c m)).2
  | coord (a : Action) (ha : ∀ c m, a ≠ .receive c m) :
      Moves s (.coord a) (s.coordStep a).1 (s.coordStep a).2
  | start (c : ConnId) (workdir mode : Text) (wid : WorkerId) (boot : WorkerBootId)
      (hfresh : s.isFresh c = true) :
      Moves s (.start c workdir mode wid boot) (s.workerStep c { workdir, mode, wid, boot } []).1 []
  | own (a : ClusterAction) (c : ConnId) (w : Worker) (pc : WorkerPc) (evs : List WorkerEvent)
      (hw : s.worker c = some w) (hmove : w.Moves pc none evs) (hconn : a.conn = c)
      (ha : ∀ b, a ≠ .coord b) :
      Moves s a (s.workerStep c { w with pc } evs).1 (s.workerStep c { w with pc } evs).2
  | deliver (c : ConnId) (w : Worker) (pc : WorkerPc) (m : WireMessage) (rest : List WireMessage)
      (hw : s.worker c = some w) (hqueue : s.toPeer c = m :: rest)
      (hmove : w.Moves pc (some m) []) :
      Moves s (.deliver c)
        (workerStep { s with toPeer := Function.update s.toPeer c rest } c { w with pc } []).1 []
  | client (c : ConnId) (m : WireMessage) (hw : s.worker c = none) :
      Moves s (.client c m)
        { s with toCoord := Function.update s.toCoord c (s.toCoord c ++ [m]) } []

/-- **Inversion.** Every step of the cluster is one of the moves. -/
theorem Cluster.step_moves (s : Cluster) (a : ClusterAction) :
    s.Moves a (s.step a).1 (s.step a).2 := by
  unfold step
  split
  · next c m =>
    split
    · next m' rest hpc hqueue =>
      split_ifs with hm
      · subst hm
        exact .received c m rest hpc hqueue
      · exact .idle _
    · exact .idle _
  · next a ha => exact .coord a ha
  · next c workdir mode wid boot =>
    split_ifs with hfresh
    · exact .start c workdir mode wid boot hfresh
    · exact .idle _
  · next c ok =>
    split
    · exact .idle _
    · next w hw =>
      obtain ⟨pc, hw', hmove⟩ := w.proceed_moves ok
      rw [hw']
      exact .own _ c w pc _ hw hmove rfl (fun _ h => by cases h)
  · next c =>
    split
    · next w m rest hw hqueue =>
      split_ifs with hreceives
      · obtain ⟨pc, hw', hmove⟩ := w.receive_moves m hreceives
        rw [hw']
        exact .deliver c w pc m rest hw hqueue hmove
      · exact .idle _
    · exact .idle _
  · next c =>
    split
    · exact .idle _
    · next w hw =>
      obtain ⟨pc, hw', hmove⟩ := w.lose_moves
      rw [hw']
      exact .own _ c w pc _ hw hmove rfl (fun _ h => by cases h)
  · next c =>
    split
    · exact .idle _
    · next w hw => exact .own _ c w .exited _ hw .giveUp rfl (fun _ h => by cases h)
  · next c m =>
    split
    · next hw => exact .client c m hw
    · exact .idle _

/-! ### What a step leaves alone -/

namespace Cluster

variable {s : Cluster} {c c' : ConnId} {w : Worker} {evs : List WorkerEvent}

/-- A step of the coordinator is one of its own machine. -/
@[simp] theorem coordStep_coord (a : Action) :
    (s.coordStep a).1.coord = (s.coord.step a).1 := rfl

/-- It leaves the workers. -/
@[simp] theorem coordStep_worker (a : Action) : (s.coordStep a).1.worker = s.worker := rfl

/-- It leaves what was sent to the coordinator. -/
@[simp] theorem coordStep_toCoord (a : Action) : (s.coordStep a).1.toCoord = s.toCoord := rfl

/-- What it sends joins what is on the way. -/
@[simp] theorem coordStep_toPeer (a : Action) (c : ConnId) :
    (s.coordStep a).1.toPeer c = s.toPeer c ++ sentTo c (s.coord.step a).2 := rfl

/-- A step of a worker leaves the coordinator. -/
@[simp] theorem workerStep_coord : (s.workerStep c w evs).1.coord = s.coord := rfl

/-- It leaves what the coordinator has sent. -/
@[simp] theorem workerStep_toPeer : (s.workerStep c w evs).1.toPeer = s.toPeer := rfl

/-- The worker is what the step makes of it. -/
@[simp] theorem workerStep_worker : (s.workerStep c w evs).1.worker c = some w :=
  Function.update_self ..

/-- The other workers stay. -/
@[simp] theorem workerStep_worker_of_ne (hc : c' ≠ c) :
    (s.workerStep c w evs).1.worker c' = s.worker c' :=
  Function.update_of_ne hc ..

/-- What it sends joins what is on the way to the coordinator. -/
@[simp] theorem workerStep_toCoord :
    (s.workerStep c w evs).1.toCoord c = s.toCoord c ++ evs.filterMap WorkerEvent.posted :=
  Function.update_self ..

/-- It sends on its own connection only. -/
@[simp] theorem workerStep_toCoord_of_ne (hc : c' ≠ c) :
    (s.workerStep c w evs).1.toCoord c' = s.toCoord c' :=
  Function.update_of_ne hc ..

/-- A connection whose worker moves has a worker before and after. -/
theorem worker_ne_none_of_workerStep {w' : Worker} (hw : s.worker c = some w')
    (h : (s.workerStep c w evs).1.worker c' ≠ none) : s.worker c' ≠ none := by
  by_cases hc : c' = c
  · rw [hc, hw]
    exact Option.some_ne_none w'
  · rwa [workerStep_worker_of_ne hc] at h

/-- On a new connection nothing is on its way, and no thread handles anything. -/
theorem of_isFresh (h : s.isFresh c = true) :
    s.coord.pc c = .unborn ∧ s.worker c = none ∧ s.toCoord c = [] := by
  unfold isFresh at h
  split at h
  · next hpc hw hqueue => exact ⟨hpc, hw, hqueue⟩
  · cases h

end Cluster

/-! ### A run that the later modules evaluate -/

/-- A worker starts on connection 0 and registers. -/
def workerJoins : List ClusterAction :=
  [.start 0 [] (Text.ofLiteral "normal") ⟨.ofByte 7⟩ ⟨.ofByte 8⟩, .proceed 0 true,
    .coord (.accept 0),
    .coord (.receive 0 { type := .REGISTER, worker := ⟨.ofByte 7⟩, boot := ⟨.ofByte 8⟩ }),
    .coord (.proceed 0 {}), .deliver 0]

/-- A client on connection 1 asks for the operation, and the worker is sent it. -/
def clientAsks : List ClusterAction :=
  .client 1 { type := .DISPATCH, op := sampleOp } :: askedRun.map .coord

/-- The worker announces itself, goes through its side effect and reports; the coordinator
    confirms. -/
def workerWorks : List ClusterAction :=
  let report (type : ProtocolMessage) (text : Text) : WireMessage :=
    { type, op := sampleOp, attempt := sampleAuthority.attempt, worker := ⟨.ofByte 7⟩,
      boot := ⟨.ofByte 8⟩, authority := sampleAuthority, text }
  [.deliver 0, .proceed 0 true, .proceed 0 true, .proceed 0 true,
    .coord (.receive 0 (report .RUNNING [])), .coord (.proceed 0 {}),
    .coord (.receive 0 (report .COMPLETE (Text.ofLiteral "result=done"))), .coord (.proceed 0 {}),
    .coord (.proceed 0 {})]

/-- The run of all three. -/
def workedRun : List ClusterAction := workerJoins ++ clientAsks ++ workerWorks

end FailureFabric
