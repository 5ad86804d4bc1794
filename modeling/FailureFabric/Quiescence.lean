import FailureFabric.Handshake
import FailureFabric.Settling

namespace FailureFabric

open Library

/-!
# The cluster settles

When no client asks for anything more, no worker is started and nothing fails any more, the
processes finish what is on its way between them.  A worker that has done its work exits, and the
coordinator notices that its connection has ended, which may come before what was sent on it is
received; and where a connection has ended already, both sides notice that.  Workers and threads may
take their steps in any order: they cannot go on forever, and they stop only where every message is
received, every end is noticed, every worker waits or has exited, and every thread of the
coordinator has nothing at hand or waits for a peer that does not read.

A worker sends three messages at most, to a thread that may be waiting for another peer, and they
fit what its connection can hold: a worker's own sends return.

* `Cluster.Inner`, `ClusterAction.notices` — the steps of the processes themselves;
* `Cluster.attempt`, `Cluster.Advances` — how far they get, as the sends of the coordinator return;
* `Cluster.rankAt`, `Cluster.writesAt` — the measure, connection by connection: a message that is
  received costs less than it was worth in the queue, the end of a connection is noticed once, and a
  report costs less than the worker's step to it;
* `Cluster.AtRestBut`, `cluster_settles` — the result, for any peers that do not read and any
  connections that have ended.
-/

/-- Somebody has connected. -/
def Cluster.Used (s : Cluster) (c : ConnId) : Prop := s.worker c ≠ none ∨ s.toCoord c ≠ []

/-- The worker of the connection has exited. -/
def Cluster.Gone (s : Cluster) (c : ConnId) : Prop := ∃ w, s.worker c = some w ∧ w.pc = .exited

/-- The action is a step of a process: nobody asks for anything, nothing is started, and nothing
    fails.  The connection of a worker that has exited has ended. -/
def Cluster.Inner (s : Cluster) : ClusterAction → Prop
  | .coord (.accept c) => s.Used c
  | .coord (.disconnect c) => s.Gone c
  | .coord (.receive ..) | .coord (.proceed ..) | .deliver _ => True
  | .proceed _ ok => ok = true
  | .start .. | .lose _ | .kill _ | .client .. => False

/-- The end of a connection that has ended is noticed: by the coordinator, by a worker that waits
    for a message, or by one whose send fails. -/
def ClusterAction.notices (ended : ConnId → Bool) : ClusterAction → Prop
  | coord (.disconnect c) | lose c | proceed c _ => ended c = true
  | _ => False

/-- A step is taken as far as it gets: a thread of the coordinator may stand in its send. -/
def Cluster.attempt (s : Cluster) (reads : ConnId → Bool) : ClusterAction → Cluster
  | .coord (.proceed c ch) =>
    if (s.coord.pc c).stalls reads c then { s with coord := s.coord.attempt reads c ch }
    else (s.step (.coord (.proceed c ch))).1
  | a => (s.step a).1

/-- Some process takes a step, as far as it gets, and something changes. -/
def Cluster.Advances (reads ended : ConnId → Bool) (s s' : Cluster) : Prop :=
  ∃ a, (s.Inner a ∨ a.notices ended) ∧ s' = s.attempt reads a ∧ s' ≠ s

/-! ### What a step changes -/

section Frame

variable {s : Cluster} {c c' : ConnId} {a : ClusterAction}

/-- What belongs to a connection, apart from what is on its way to its peer. -/
structure Cluster.SameAt (s s' : Cluster) (c : ConnId) : Prop where
  pc : s'.coord.pc c = s.coord.pc c
  worker : s'.worker c = s.worker c
  toCoord : s'.toCoord c = s.toCoord c

theorem Cluster.coordStep_sameAt (s : Cluster) {a : Action} (hc : c' ≠ a.conn) :
    s.SameAt (s.coordStep a).1 c' :=
  ⟨(s.coord.step_moves a).pc_of_ne hc, rfl, rfl⟩

theorem Cluster.workerStep_sameAt (s : Cluster) {w : Worker} {evs : List WorkerEvent}
    (hc : c' ≠ c) : s.SameAt (s.workerStep c w evs).1 c' :=
  ⟨rfl, workerStep_worker_of_ne hc, workerStep_toCoord_of_ne hc⟩

/-- A step leaves the other connections as they are. -/
theorem Cluster.step_sameAt (s : Cluster) (hc : c ≠ a.conn) : s.SameAt (s.step a).1 c := by
  have hidle : s.SameAt s c := ⟨rfl, rfl, rfl⟩
  unfold step
  split
  · next c' m =>
    split
    · next m' rest hpc hqueue =>
      split_ifs
      · have hstep := coordStep_sameAt
          { s with toCoord := Function.update s.toCoord c' rest } (a := .receive c' m) hc
        exact ⟨hstep.pc, hstep.worker, hstep.toCoord.trans (Function.update_of_ne hc ..)⟩
      · exact hidle
    · exact hidle
  · exact s.coordStep_sameAt hc
  · next c' workdir mode wid boot =>
    split_ifs
    · exact s.workerStep_sameAt hc
    · exact hidle
  · next c' ok =>
    split
    · exact hidle
    · exact s.workerStep_sameAt hc
  · next c' =>
    split
    · next w m rest hw hqueue =>
      split_ifs
      · exact ⟨rfl, workerStep_worker_of_ne hc, workerStep_toCoord_of_ne hc⟩
      · exact hidle
    · exact hidle
  · next c' =>
    split
    · exact hidle
    · exact s.workerStep_sameAt hc
  · next c' =>
    split
    · exact hidle
    · exact s.workerStep_sameAt hc
  · next c' m =>
    split
    · exact ⟨rfl, rfl, Function.update_of_ne hc ..⟩
    · exact hidle

/-- A step of the coordinator that does nothing leaves the cluster as it is. -/
theorem Cluster.coordStep_idle {a : Action} (h : s.coord.step a = (s.coord, [])) :
    (s.coordStep a).1 = s := by
  unfold coordStep
  rw [h]
  simp [sentTo]

/-- A worker that stays where it is and does nothing leaves the cluster as it is. -/
theorem Cluster.workerStep_idle {w : Worker} (hw : s.worker c = some w) :
    (s.workerStep c w []).1 = s := by
  unfold workerStep
  simp [← hw]

end Frame

/-! ### The measure -/

/-- How many steps a worker is from its end, at most, the messages apart that it ignores. -/
def WorkerPc.rank : WorkerPc → Nat
  | register => 6
  | registering => 5
  | waiting => 4
  | starting _ => 3
  | working _ => 2
  | failing _ | completing _ => 1
  | exited => 0

/-- The connection is still to be accepted. -/
def Pc.unaccepted : Pc → Nat
  | unborn => 1
  | _ => 0

/-- The end of the connection is still to be noticed. -/
def Pc.connected : Pc → Nat
  | lostLock | lostCheck | lostTransfer | lostBuild _ | lostReport .. | lostChoose _ | lostVerify ..
  | lostSend .. | lostMark _ | ended => 0
  | _ => 1

/-- What is still to be done for a connection.  The handling of a message takes nine steps, and so
    does that of a loss: a message on its way is worth ten, and so is the end of a connection. -/
def Cluster.rankAt (s : Cluster) (c : ConnId) : Nat :=
  20 * (match s.worker c with | none => 0 | some w => w.pc.rank) +
    10 * ((s.toCoord c).length + (s.coord.pc c).unaccepted + (s.coord.pc c).connected) +
    (s.coord.pc c).rank

/-- What is still to be written for a connection, or to be received from the coordinator, and the
    lock that may still be taken for a send. -/
def Cluster.writesAt (s : Cluster) (c : ConnId) : Nat :=
  s.coord.writesAt c + (s.toPeer c).length

section Measure

variable {s s' : Cluster} {c : ConnId} {w : Worker} {pc : WorkerPc} {evs : List WorkerEvent}
  {reads ended : ConnId → Bool}

/-- A worker's own step does nothing, or brings it nearer to its end. -/
theorem Worker.Moves.rank_lt (h : w.Moves pc none evs) :
    (pc = w.pc ∧ evs = []) ∨ pc.rank < w.pc.rank ∧ evs.length ≤ 1 := by
  cases h with
  | stay => exact Or.inl ⟨rfl, rfl⟩
  | giveUp =>
    cases hpc : w.pc with
    | exited => exact Or.inl ⟨rfl, rfl⟩
    | register | registering | waiting | starting | working | failing | completing =>
      exact Or.inr ⟨by simp [WorkerPc.rank], by simp⟩
  | registered hpc | started m hpc | failed m text hpc | completed m text hpc =>
    right
    rw [hpc]
    exact ⟨by simp [WorkerPc.rank], by simp⟩
  | worked m pc ok hpc hnext =>
    right
    rw [hpc]
    refine ⟨?_, by simp⟩
    rcases hnext with rfl | rfl <;> simp [WorkerPc.rank]

/-- A worker that receives a message is no farther from its end. -/
theorem Worker.Moves.rank_le {m : WireMessage} (h : w.Moves pc (some m) evs) :
    pc.rank ≤ w.pc.rank := by
  cases h with
  | acknowledged hpc | refused hpc | dispatched hpc | shutDown hpc | ignored hpc =>
    simp [*, WorkerPc.rank]

/-- A thread that has something at hand is accepted, before its step and after it. -/
theorem Coord.Moves.accepted {k k' : Coord} {a : Action} {evs : List Event}
    (h : k.Moves c a k' evs) (hbusy : (k.pc c).resting = false) :
    (k.pc c).unaccepted = 0 ∧ (k'.pc c).unaccepted = 0 := by
  have hbefore : k.pc c ≠ .unborn := by
    intro hpc
    rw [hpc] at hbusy
    cases hbusy
  have hafter : k'.pc c ≠ .unborn := by
    intro hpc
    rw [(h.of_unborn hpc).1] at hpc
    exact hbefore hpc
  have hzero : ∀ pc : Pc, pc ≠ .unborn → pc.unaccepted = 0 := by
    intro pc hpc
    unfold Pc.unaccepted
    split
    · exact absurd rfl hpc
    · rfl
  exact ⟨hzero _ hbefore, hzero _ hafter⟩

/-- The end of a connection is noticed once. -/
theorem Coord.Moves.connected_le {k k' : Coord} {a : Action} {evs : List Event}
    (h : k.Moves c a k' evs) : (k'.pc c).connected ≤ (k.pc c).connected := by
  cases h with
  | idle => exact Nat.le_refl _
  | localStep a new evs hlocal =>
    rw [goto_pc_self]
    generalize k.pc c = pc at hlocal
    cases hlocal <;> simp [Pc.connected]
  | callStep ch rc new hcall =>
    rw [goto_pc_self]
    generalize k.pc c = pc at hcall
    generalize (k.call rc).2 = res at hcall
    cases hcall <;> simp [Pc.connected]
  | register a m wid order hpc | dispatchLock ch op auth wid target rest hpc
  | marked ch op auth target hpc | markedAgain a r hpc | lost a hpc | saveStart ch op o hpc
  | saveItem a item todo hpc | saveEnd a hpc =>
    rw [goto_pc_self, hpc]
    simp [Pc.connected]
  | transferred a ch hpc | recorded a ch cur b hpc =>
    rw [hpc]
    simp [lostTransfer, lostReport, Pc.connected]

/-- Where the end of a connection is noticed, its thread was reading. -/
theorem Cluster.reading_of_disconnect (hne : (s.step (.coord (.disconnect c))).1 ≠ s) :
    s.coord.pc c = .reading ∧
      (s.step (.coord (.disconnect c))).1.coord.pc c = .lostLock := by
  have hreading : s.coord.pc c = .reading := by
    by_contra hnot
    refine hne (Cluster.coordStep_idle ?_)
    dsimp only [Coord.step]
    split
    · contradiction
    · rfl
  refine ⟨hreading, ?_⟩
  show (s.coordStep (.disconnect c)).1.coord.pc c = .lostLock
  simp [Coord.step, hreading]

/-- A step brings the processes nearer to their end, or writes, or receives what the coordinator has
    sent. -/
structure Cluster.Nearer (s s' : Cluster) (c : ConnId) : Prop where
  elsewhere : ∀ c', c' ≠ c → s'.rankAt c' = s.rankAt c'
  here : s'.rankAt c < s.rankAt c ∨
    s'.rankAt c = s.rankAt c ∧ (∀ c', c' ≠ c → s'.writesAt c' = s.writesAt c') ∧
      s'.writesAt c < s.writesAt c

theorem Cluster.SameAt.rankAt (h : s.SameAt s' c) : s'.rankAt c = s.rankAt c := by
  unfold Cluster.rankAt
  rw [h.pc, h.worker, h.toCoord]

/-- A step of a thread of the coordinator that changes something brings the end nearer. -/
theorem Cluster.coord_nearer {ch : Choice} (hne : (s.coordStep (.proceed c ch)).1 ≠ s) :
    (s.coordStep (.proceed c ch)).1.rankAt c < s.rankAt c ∨
      (s.coordStep (.proceed c ch)).1.rankAt c = s.rankAt c ∧
        (∀ c', c' ≠ c → (s.coordStep (.proceed c ch)).1.writesAt c' = s.writesAt c') ∧
        (s.coordStep (.proceed c ch)).1.writesAt c < s.writesAt c := by
  have hmoves := s.coord.step_moves (.proceed c ch)
  dsimp only [Action.conn] at hmoves
  cases hbusy : (s.coord.pc c).resting with
  | true => exact absurd (s.coordStep_idle (Coord.proceed_idle hbusy ch)) hne
  | false =>
    obtain ⟨hbefore, hafter⟩ := hmoves.accepted hbusy
    have hconnected := hmoves.connected_le
    rcases hmoves.rank_lt hbusy with hidle | hrank | ⟨hrank, hwrites, hholder, hevs⟩
    · exact absurd (s.coordStep_idle (Prod.ext hidle.1 hidle.2)) hne
    · -- the thread is nearer to its end, and there is nothing new to accept or to notice
      left
      dsimp only [rankAt, coordStep]
      omega
    · -- a write of a save, which sends nothing
      have hsent : ∀ c', sentTo c' (s.coord.step (.proceed c ch)).2 = [] := by
        rw [hevs]
        exact fun _ => rfl
      dsimp only [rankAt, writesAt, Coord.writesAt, coordStep]
      rcases Nat.lt_or_eq_of_le hconnected with hless | hsame
      · left
        omega
      · right
        refine ⟨by omega, fun c' hc => ?_, ?_⟩
        · rw [hmoves.pc_of_ne hc, hsent, hholder, List.append_nil]
        · rw [hsent, hholder, List.append_nil]
          omega

/-- **Step lemma.** Every step of a process that changes something brings the end nearer. -/
theorem Cluster.step_nearer {a : ClusterAction} (ha : s.Inner a ∨ a.notices ended)
    (hne : (s.step a).1 ≠ s) : s.Nearer (s.step a).1 a.conn := by
  have hmoves := s.step_moves a
  refine ⟨fun c' hc => (s.step_sameAt hc).rankAt, ?_⟩
  by_cases hends : ∃ c, a = .coord (.disconnect c)
  · -- the end is worth ten, and the handling of a loss takes nine steps
    obtain ⟨c, rfl⟩ := hends
    left
    obtain ⟨hbefore, hafter⟩ := reading_of_disconnect hne
    have hworker : (s.step (.coord (.disconnect c))).1.worker = s.worker := rfl
    have hqueue : (s.step (.coord (.disconnect c))).1.toCoord = s.toCoord := rfl
    dsimp only [rankAt, ClusterAction.conn, Action.conn]
    rw [hbefore, hafter, hworker, hqueue]
    dsimp only [Pc.rank, Pc.unaccepted, Pc.connected]
    omega
  generalize (s.step a).1 = s', (s.step a).2 = evs at hmoves hne ⊢
  cases hmoves with
  | idle => exact absurd rfl hne
  | received c m rest hpc hqueue =>
    -- so is the message that leaves the queue, and so long takes its handling
    left
    have hstep : s.coord.step (.receive c m) = (s.coord.goto c (.handle m), [.received c m]) := by
      simp [Coord.step, hpc]
    simp [rankAt, coordStep, hstep, hpc, hqueue, Pc.rank, Pc.unaccepted, Pc.connected,
      ClusterAction.conn, Action.conn]
    omega
  | coord a hother =>
    cases a with
    | receive c m => exact absurd rfl (hother c m)
    | disconnect c => exact absurd ⟨c, rfl⟩ hends
    | accept c =>
      left
      cases hpc : s.coord.pc c with
      | unborn =>
        have hstep : s.coord.step (.accept c) = (s.coord.goto c .reading, []) := by
          simp [Coord.step, hpc]
        simp [rankAt, coordStep, hstep, hpc, Pc.rank, Pc.unaccepted, Pc.connected,
          ClusterAction.conn, Action.conn]
      | reading | handle | dispatchLock | dispatchSend | dispatchMark | dispatchRun
      | completeConfirm | completeAck | completeFence | completeSave | saving | lostLock | lostCheck
      | lostTransfer | lostBuild | lostReport | lostChoose | lostVerify | lostSend | lostMark
      | ended =>
        exact absurd (s.coordStep_idle (by simp [Coord.step, hpc])) hne
    | proceed c ch => exact s.coord_nearer hne
  | start | client => exact absurd ha (by simp [Inner, ClusterAction.notices])
  | own a c w pc evs hw hmove hconn =>
    -- a step of a worker is worth twenty, and sends one message at most
    left
    rw [hconn]
    rcases hmove.rank_lt with ⟨rfl, rfl⟩ | ⟨hrank, hevs⟩
    · exact absurd (workerStep_idle hw) hne
    · have hposted : (evs.filterMap WorkerEvent.posted).length ≤ 1 :=
        (List.length_filterMap_le ..).trans hevs
      dsimp only [rankAt]
      rw [workerStep_worker, workerStep_toCoord, workerStep_coord, hw, List.length_append]
      dsimp only
      omega
  | deliver c w pc m rest hw hqueue hmove =>
    -- the worker may ignore the message, but the queue is shorter
    have hrank := hmove.rank_le
    have hafter : (Cluster.workerStep { s with toPeer := Function.update s.toPeer c rest } c
        { w with pc } []).1.rankAt c ≤ s.rankAt c := by
      dsimp only [rankAt]
      rw [workerStep_worker, workerStep_toCoord, workerStep_coord, hw, List.filterMap_nil,
        List.append_nil]
      dsimp only
      omega
    rcases Nat.lt_or_eq_of_le hafter with hless | hsame
    · exact Or.inl hless
    · refine Or.inr ⟨hsame, fun c' hc => ?_, ?_⟩
      · dsimp only [writesAt, ClusterAction.conn] at hc ⊢
        rw [workerStep_toPeer, workerStep_coord]
        dsimp only
        rw [Function.update_of_ne hc]
      · dsimp only [writesAt, ClusterAction.conn]
        rw [workerStep_toPeer, workerStep_coord]
        dsimp only
        rw [Function.update_self, hqueue]
        exact Nat.add_lt_add_left (Nat.lt_succ_self _) _

/-- A step is taken, or a thread stands in its send. -/
theorem Cluster.attempt_cases (s : Cluster) (reads : ConnId → Bool) (a : ClusterAction) :
    s.attempt reads a = (s.step a).1 ∨ ∃ c ch, a = .coord (.proceed c ch) ∧
      (s.coord.pc c).stalls reads c = true ∧
      s.attempt reads a = { s with coord := s.coord.attempt reads c ch } := by
  unfold attempt
  split
  · next c ch =>
    split_ifs with hstalls
    · exact Or.inr ⟨c, ch, rfl, hstalls, rfl⟩
    · exact Or.inl rfl
  · exact Or.inl rfl

/-- Where every peer reads, the step is taken. -/
theorem Cluster.attempt_reads (s : Cluster) (a : ClusterAction) :
    s.attempt (fun _ => true) a = (s.step a).1 := by
  refine (s.attempt_cases _ a).resolve_right ?_
  rintro ⟨c, ch, -, hstalls, -⟩
  rw [Pc.stalls_reads] at hstalls
  cases hstalls

/-- The coordinator's part of a thread's step. -/
theorem Cluster.attempt_proceed (s : Cluster) (reads : ConnId → Bool) (c : ConnId) (ch : Choice) :
    (s.attempt reads (.coord (.proceed c ch))).coord = s.coord.attempt reads c ch := by
  rw [attempt]
  split_ifs with hstalls
  · rfl
  · rw [Coord.attempt_of_returns (by simpa using hstalls)]
    rfl

/-- **Step lemma.** A thread that comes to stand in its send may take the lock for it. -/
theorem Cluster.attempt_nearer {a : ClusterAction} (ha : s.Inner a ∨ a.notices ended)
    (hne : s.attempt reads a ≠ s) : s.Nearer (s.attempt reads a) a.conn := by
  rcases s.attempt_cases reads a with hstep | ⟨c, ch, rfl, hstalls, hstands⟩
  · rw [hstep] at hne ⊢
    exact step_nearer ha hne
  · rw [hstands] at hne ⊢
    have hmoved : s.coord.attempt reads c ch ≠ s.coord := by
      intro hsame
      rw [hsame] at hne
      exact hne rfl
    rcases Coord.attempt_of_stalls hstalls ch with hidle | ⟨-, hfree, hlocks⟩
    · exact absurd hidle hmoved
    · -- nothing changes at any connection but for the lock
      rw [hlocks]
      refine ⟨fun _ _ => rfl, Or.inr ⟨rfl, fun c' hc => ?_, ?_⟩⟩
      · have hne' : c ≠ c' := Ne.symm hc
        simp [writesAt, Coord.writesAt, hfree, hne']
      · simp [writesAt, Coord.writesAt, hfree, ClusterAction.conn, Action.conn]

end Measure

/-! ### The activity ends -/

section Ends

variable {s s' : Cluster} {conns : Finset ConnId} {reads ended : ConnId → Bool}

/-- Only these connections are in use. -/
def Cluster.UsedIn (conns : Finset ConnId) (s : Cluster) : Prop :=
  ∀ c, c ∉ conns → s.coord.pc c = .unborn ∧ s.worker c = none ∧ s.toCoord c = []

/-- A step of a process that changes something is on a connection in use. -/
theorem Cluster.UsedIn.conn_mem (hin : s.UsedIn conns) {a : ClusterAction}
    (ha : s.Inner a ∨ a.notices ended) (hne : (s.step a).1 ≠ s) : a.conn ∈ conns := by
  by_contra hc
  obtain ⟨hpc, hw, hqueue⟩ := hin _ hc
  refine hne ?_
  cases a with
  | coord a =>
    cases a with
    | accept c =>
      rcases ha with (hused | hused) | hends
      · exact absurd hw hused
      · exact absurd hqueue hused
      · exact absurd hends id
    | receive c m =>
      dsimp only [ClusterAction.conn, Action.conn] at hpc
      simp [step, hpc]
    | disconnect c =>
      dsimp only [ClusterAction.conn, Action.conn] at hpc
      exact s.coordStep_idle (by simp [Coord.step, hpc])
    | proceed c ch =>
      dsimp only [ClusterAction.conn, Action.conn] at hpc
      exact s.coordStep_idle (Coord.proceed_idle (by rw [hpc]; rfl) ch)
  | proceed c ok | deliver c | lose c =>
    dsimp only [ClusterAction.conn] at hw
    simp [step, hw]
  | start | kill | client => exact absurd ha (by simp [Inner, ClusterAction.notices])

/-- A step leaves unused the connections that it is not on. -/
theorem Cluster.UsedIn.step (hin : s.UsedIn conns) {a : ClusterAction} (hconn : a.conn ∈ conns) :
    (s.step a).1.UsedIn conns := by
  intro c hc
  have hsame := s.step_sameAt (fun heq : c = a.conn => hc (heq ▸ hconn))
  rw [hsame.pc, hsame.worker, hsame.toCoord]
  exact hin c hc

/-- A thread that stands in its send changes nothing but the coordinator's tables and its lock. -/
theorem Cluster.UsedIn.attempt (hin : s.UsedIn conns) {a : ClusterAction}
    (ha : s.Inner a ∨ a.notices ended) (hne : s.attempt reads a ≠ s) :
    a.conn ∈ conns ∧ (s.attempt reads a).UsedIn conns := by
  rcases s.attempt_cases reads a with hstep | ⟨c, ch, rfl, hstalls, hstands⟩
  · rw [hstep] at hne ⊢
    have hconn := hin.conn_mem ha hne
    exact ⟨hconn, hin.step hconn⟩
  · refine ⟨by_contra fun hc => ?_, fun c' hc' => ?_⟩
    · have hbusy := (Pc.of_stalls hstalls).1
      rw [(hin c hc).1] at hbusy
      cases hbusy
    · rw [hstands]
      obtain ⟨hpc, hrest⟩ := hin c' hc'
      refine ⟨?_, hrest⟩
      rcases Coord.attempt_of_stalls hstalls ch with hidle | ⟨-, -, hlocks⟩
      · rwa [hidle]
      · rwa [hlocks]

/-- **Termination.** The processes cannot go on forever by themselves, nor can they where threads
    stand in their sends. -/
theorem Cluster.UsedIn.terminates (hin : s.UsedIn conns) :
    Terminates (Cluster.Advances reads ended) s := by
  refine terminates_of_sum conns Cluster.rankAt Cluster.writesAt (I := Cluster.UsedIn conns)
    (fun s s' hin h => ?_) (fun s s' hin h => ?_) hin
  · obtain ⟨a, ha, rfl, hne⟩ := h
    exact (hin.attempt ha hne).2
  · obtain ⟨a, ha, rfl, hne⟩ := h
    have hnearer := attempt_nearer ha hne
    exact ⟨a.conn, (hin.attempt ha hne).1, hnearer.elsewhere, hnearer.here⟩

/-- Whichever of these steps may be taken, if every peer reads, they cannot go on forever. -/
theorem Cluster.UsedIn.terminates_of {goesTo : Cluster → Cluster → Prop} (ended : ConnId → Bool)
    (h : ∀ s s', goesTo s s' → ∃ a, (s.Inner a ∨ a.notices ended) ∧ s' = (s.step a).1 ∧ s' ≠ s)
    (hin : s.UsedIn conns) : Terminates goesTo s := by
  have hends : Terminates (Cluster.Advances (fun _ => true) ended) s := hin.terminates
  refine hends.mono fun s s' hstep => ?_
  obtain ⟨a, ha, hafter, hne⟩ := h s s' hstep
  exact ⟨a, ha, by rw [attempt_reads, hafter], hne⟩

end Ends

/-! ### Where it ends -/

/-- Nothing is on its way that somebody could still receive, and nobody has anything at hand. -/
structure Cluster.AtRest (s : Cluster) : Prop where
  coord : s.coord.AtRest
  accepted : ∀ c, s.Used c → s.coord.pc c ≠ .unborn
  received : ∀ c, s.toCoord c ≠ [] → s.coord.pc c = .ended
  workers : ∀ c w, s.worker c = some w → w.pc = .exited ∨ w.receives = true ∧ s.toPeer c = []

/-- Nothing is on its way that somebody could still receive, and nobody has anything at hand, but
    for the threads that wait for a peer that does not read. -/
structure Cluster.RestsBut (reads : ConnId → Bool) (s : Cluster) : Prop where
  coord : s.coord.AtRestBut reads
  accepted : ∀ c, s.Used c → s.coord.pc c ≠ .unborn
  received : ∀ c, s.toCoord c ≠ [] → s.coord.pc c ≠ .reading
  workers : ∀ c w, s.worker c = some w → w.pc = .exited ∨ w.receives = true ∧ s.toPeer c = []

/-- And the ends of connections are noticed on both sides. -/
structure Cluster.AtRestBut (reads ended : ConnId → Bool) (s : Cluster) : Prop extends
    s.RestsBut reads where
  noticed : ∀ c, s.Gone c ∨ ended c = true → s.coord.pc c ≠ .reading
  left : ∀ c w, ended c = true → s.worker c = some w → w.pc = .exited

section Rest

variable {s : Cluster} {c : ConnId} {reads ended : ConnId → Bool}

/-- Where no process can take a step that notices no end, all are at rest. -/
theorem Cluster.restsBut_of_stuck (hlock : s.coord.LockInvBut reads)
    (hstuck : ∀ a, s.Inner a → (∀ c, a ≠ .coord (.disconnect c)) → s.attempt reads a = s) :
    s.RestsBut reads := by
  have hcoord : s.coord.AtRestBut reads := by
    refine hlock.atRestBut (fun c ch => ?_)
    rw [← attempt_proceed, hstuck (.coord (.proceed c ch)) trivial (fun _ h => by cases h)]
  refine ⟨hcoord, fun c hused hpc => ?_, fun c hqueue hpc => ?_, fun c w hw => ?_⟩
  · -- the connection could be accepted
    have hsame := congrArg (fun s : Cluster => s.coord.pc c)
      (hstuck (.coord (.accept c)) hused (fun _ h => by cases h))
    simp [attempt, step, coordStep, Coord.step, hpc] at hsame
  · -- the message could be received
    obtain ⟨m, rest, hm⟩ := List.exists_cons_of_ne_nil hqueue
    have hsame := congrArg (fun s : Cluster => s.coord.pc c)
      (hstuck (.coord (.receive c m)) trivial (fun _ h => by cases h))
    simp [attempt, step, coordStep, Coord.step, hpc, hm] at hsame
  · -- the worker could take its own step, or receive
    have hown := congrArg (fun s : Cluster => (s.worker c).map Worker.pc)
      (hstuck (.proceed c true) rfl (fun _ h => by cases h))
    cases hpc : w.pc with
    | exited => exact Or.inl rfl
    | register | starting | failing | completing =>
      simp [attempt, step, hw, Worker.proceed, hpc, workerStep] at hown
    | working m =>
      simp [attempt, step, hw, Worker.proceed, hpc, workerStep] at hown
      split_ifs at hown
    | registering | waiting =>
      have hreceives : w.receives = true := by rw [Worker.receives, hpc]
      refine Or.inr ⟨hreceives, ?_⟩
      by_contra hqueue
      obtain ⟨m, rest, hm⟩ := List.exists_cons_of_ne_nil hqueue
      have hsame := congrArg (fun s : Cluster => s.toPeer c)
        (hstuck (.deliver c) trivial (fun _ h => by cases h))
      simp [attempt, step, hw, hm, hreceives] at hsame

/-- Where every peer reads, the threads rest. -/
theorem Cluster.RestsBut.atRest (h : s.RestsBut fun _ => true) : s.AtRest := by
  have hcoord := h.coord.atRest
  refine ⟨hcoord, h.accepted, fun c hqueue => ?_, h.workers⟩
  have hresting := hcoord.resting c
  have hunborn := h.accepted c (Or.inr hqueue)
  have hreading := h.received c hqueue
  generalize s.coord.pc c = pc at hresting hunborn hreading
  cases pc with
  | ended => rfl
  | unborn => exact absurd rfl hunborn
  | reading => exact absurd rfl hreading
  | handle | dispatchLock | dispatchSend | dispatchMark | dispatchRun | completeConfirm
  | completeAck | completeFence | completeSave | saving | lostLock | lostCheck | lostTransfer
  | lostBuild | lostReport | lostChoose | lostVerify | lostSend | lostMark => cases hresting

/-- Where no process can take a step, all are at rest. -/
theorem Cluster.atRestBut_of_stuck (hlock : s.coord.LockInvBut reads)
    (hstuck : ∀ s', ¬ s.Advances reads ended s') : s.AtRestBut reads ended := by
  have hsame : ∀ a, s.Inner a ∨ a.notices ended → s.attempt reads a = s := by
    intro a ha
    by_contra hne
    exact hstuck _ ⟨a, ha, rfl, hne⟩
  have hrests := restsBut_of_stuck hlock (fun a hinner _ => hsame a (Or.inl hinner))
  refine ⟨hrests, fun c hends hpc => ?_, fun c w hends hw => ?_⟩
  · -- the coordinator can notice the end
    have hleft := congrArg (fun s : Cluster => s.coord.pc c)
      (hsame (.coord (.disconnect c)) (hends.imp id id))
    simp [attempt, step, coordStep, Coord.step, hpc] at hleft
  · refine (hrests.workers c w hw).resolve_right ?_
    rintro ⟨hreceives, -⟩
    -- the worker can notice it
    have hleft := congrArg (fun s : Cluster => (s.worker c).map Worker.pc)
      (hsame (.lose c) (Or.inr hends))
    have hlose : w.lose = { w with pc := .exited } := by
      unfold Worker.receives at hreceives
      unfold Worker.lose
      split at hreceives <;> simp_all
    simp [attempt, step, hw, hlose] at hleft
    rw [Worker.receives, ← hleft] at hreceives
    cases hreceives

end Rest

/-! ### The result -/

/-- The lock is held for saves only, in every run of the cluster. -/
theorem Cluster.lockInv_step (s : Cluster) (inv : s.coord.LockInv) (a : ClusterAction) :
    (s.step a).1.coord.LockInv := by
  have hmoves := s.step_moves a
  generalize (s.step a).1 = s', (s.step a).2 = evs at hmoves ⊢
  cases hmoves with
  | received c m rest hpc hqueue => exact inv.step (s.coord.step_moves (.receive c m))
  | coord a ha => exact inv.step (s.coord.step_moves a)
  | idle | start | own | deliver | client => exact inv

/-- A thread that stands in a send may hold the lock too. -/
theorem Cluster.lockInvBut_attempt {s : Cluster} {reads : ConnId → Bool}
    (inv : s.coord.LockInvBut reads) (a : ClusterAction) :
    (s.attempt reads a).coord.LockInvBut reads := by
  by_cases hproceeds : ∃ c ch, a = .coord (.proceed c ch)
  · obtain ⟨c, ch, rfl⟩ := hproceeds
    rw [attempt_proceed]
    exact inv.attempt c ch
  have hstep : s.attempt reads a = (s.step a).1 := by
    refine (s.attempt_cases reads a).resolve_right ?_
    rintro ⟨c, ch, ha, -⟩
    exact hproceeds ⟨c, ch, ha⟩
  have hmoves := s.step_moves a
  rw [hstep]
  generalize (s.step a).1 = s', (s.step a).2 = evs at hmoves ⊢
  cases hmoves with
  | received c m rest hpc hqueue => exact inv.act (a := .receive c m) (fun _ _ h => by cases h)
  | coord a ha => exact inv.act (fun c ch h => hproceeds ⟨c, ch, by rw [h]⟩)
  | idle | start | own | deliver | client => exact inv

/-- Only connections that the run has used are in use. -/
theorem Cluster.usedIn_run (file : Option (List UInt8)) (acts : List ClusterAction) :
    (cluster.run (.boot file) acts).UsedIn (acts.map ClusterAction.conn).toFinset := by
  suffices h : ∀ s : Cluster, ∀ c, c ∉ acts.map ClusterAction.conn →
      s.SameAt (cluster.run s acts) c by
    intro c hc
    have hsame := h (.boot file) c (by simpa using hc)
    rw [hsame.pc, hsame.worker, hsame.toCoord]
    exact ⟨rfl, rfl, rfl⟩
  induction acts with
  | nil => exact fun s c _ => ⟨rfl, rfl, rfl⟩
  | cons a acts ih =>
    intro s c hc
    rw [List.map_cons, List.mem_cons, not_or] at hc
    have hstep := s.step_sameAt hc.1
    have hrun := ih (s.step a).1 c hc.2
    exact ⟨hrun.pc.trans hstep.pc, hrun.worker.trans hstep.worker,
      hrun.toCoord.trans hstep.toCoord⟩

/-- **The cluster settles.** From every state of every run, with any workers and clients, and after
    any deaths and ends of connections: if nothing new is asked for or started and nothing fails
    any more, the processes come to rest, whichever of them takes the next step, whichever
    connections have ended, and whichever peers do not read from then on. -/
theorem cluster_settles (file : Option (List UInt8)) (acts : List ClusterAction)
    (reads ended : ConnId → Bool) :
    Settles (Cluster.Advances reads ended) (Cluster.AtRestBut reads ended)
      (cluster.run (.boot file) acts) := by
  have hlock : (cluster.run (.boot file) acts).coord.LockInv :=
    Machine.run_induction (M := cluster) (P := fun s => s.coord.LockInv)
      (fun s a inv => s.lockInv_step inv a) (lockInv_boot file) acts
  refine (Cluster.usedIn_run file acts).terminates.settles (I := fun s => s.coord.LockInvBut reads)
    (fun s s' inv hstep => ?_) (hlock.but reads)
    (fun s inv hstuck => Cluster.atRestBut_of_stuck inv hstuck)
  obtain ⟨a, -, rfl, -⟩ := hstep
  exact Cluster.lockInvBut_attempt inv a

end FailureFabric
