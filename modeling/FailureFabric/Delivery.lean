import FailureFabric.Quiescence
import FailureFabric.InTransit

namespace FailureFabric

open Library

/-!
# Work that is delivered

When nothing fails, the work that clients ask for gets done.  Clients may ask for any operations at
any time, for the same one again too, workers may join at any time, and the processes may take their
steps in any order.  Once they are left alone they come to rest, and then every operation that was
dispatched is completed and recorded, but for those whose work was sent to a worker that had already
done its one piece of work.

* `Cluster.Calm`, `Cluster.GoesOn` — the actions that are no fault, and the steps of the processes
  among them;
* `CalmInv` — what holds of the processes in a calm run;
* `OpsInv` — every operation is completed, or its work is on its way;
* `Delivered`, `calm_delivers` — the result.
-/

/-- The action is no fault: clients only ask for operations, no worker is to fail or killed, every
    send succeeds, and a connection ends only when all that came on it is received, and that of a
    worker only when the worker has exited and a completion has been saved. -/
def Cluster.Calm (s : Cluster) : ClusterAction → Prop
  | .coord (.disconnect c) =>
    s.toCoord c = [] ∧ ∀ w, s.worker c = some w → w.pc = .exited ∧ s.coord.finished = true
  | .coord (.accept _) | .coord (.receive ..) | .coord (.proceed ..) | .deliver _ => True
  | .start _ _ mode _ _ => mode ≠ Text.ofLiteral "fail"
  | .proceed _ ok => ok = true
  | .lose _ | .kill _ => False
  | .client _ m => m.type = .DISPATCH

/-- Some process takes a step that is no fault, and something changes.  The coordinator notices the
    ends of some connections only. -/
def Cluster.GoesOn (noticed : ConnId → Bool) (s s' : Cluster) : Prop :=
  ∃ a, s.Inner a ∧ s.Calm a ∧ (∀ c, a = .coord (.disconnect c) → noticed c = true) ∧
    s' = (s.step a).1 ∧ s' ≠ s

/-- If it is the connection of a worker, the worker has exited, all that it sent is received, and a
    completion has been saved. -/
def Cluster.Closed (s : Cluster) (c : ConnId) : Prop :=
  ∀ w, s.worker c = some w → w.pc = .exited ∧ s.toCoord c = [] ∧ s.coord.finished = true

/-- Where the thread of a connection may stand in a calm run. -/
def Cluster.Allows (s : Cluster) (c : ConnId) : Pc → Prop
  | .dispatchLock _ auth => auth.isUnset = false
  | .dispatchMark _ _ target => target ∈ s.coord.regOrder
  | .lostLock | .ended => s.Closed c
  | .lostCheck => s.Closed c ∧ s.coord.finished = true
  | .lostTransfer | .lostBuild _ | .lostReport .. | .lostChoose _ | .lostVerify .. | .lostSend ..
  | .lostMark _ => False
  | _ => True

/-- What holds of the processes in a calm run: only workers are registered, clients only ask,
    no worker reports a failure, and no loss is recovered. -/
structure CalmInv (s : Cluster) : Prop where
  registered : ∀ c ∈ s.coord.regOrder, s.worker c ≠ none
  running : ∀ c, s.coord.runningConn = some c → c ∈ s.coord.regOrder
  clients : ∀ c, s.worker c = none → ∀ m ∈ s.incoming c, m.type = .DISPATCH
  mild : ∀ c, ∀ m ∈ s.incoming c, m.type ≠ .FAILURE
  workers : ∀ c w, s.worker c = some w →
    w.mode ≠ Text.ofLiteral "fail" ∧ ∀ m, w.pc ≠ .failing m
  threads : ∀ c, s.Allows c (s.coord.pc c)

section Calm

variable {s s' : Cluster} {c : ConnId}

/-- A thread may go on standing where it does. -/
theorem Cluster.Allows.mono {pc : Pc} (h : s.Allows c pc)
    (horder : ∀ t ∈ s.coord.regOrder, t ∈ s'.coord.regOrder)
    (hclosed : s.Closed c → s'.Closed c)
    (hfinished : s.coord.finished = true → s'.coord.finished = true) : s'.Allows c pc := by
  cases pc with
  | dispatchMark op auth target => exact horder target h
  | lostLock | ended => exact hclosed h
  | lostCheck => exact ⟨hclosed h.1, hfinished h.2⟩
  | lostTransfer | lostBuild | lostReport | lostChoose | lostVerify | lostSend | lostMark =>
    exact absurd h id
  | dispatchLock => exact h
  | unborn | reading | handle | dispatchSend | dispatchRun | completeConfirm | completeAck
  | completeFence | completeSave | saving => trivial

/-- A save once made is not forgotten. -/
theorem Coord.Moves.finished_stays {k k' : Coord} {a : Action} {evs : List Event}
    (h : k.Moves c a k' evs) (hfinished : k.finished = true) : k'.finished = true := by
  cases h with
  | saveStart => rfl
  | idle | localStep | callStep | register | dispatchLock | marked | markedAgain | lost
  | transferred | recorded | saveItem | saveEnd => exact hfinished

/-- After the end of a connection, a completion having been saved, the thread has nothing to do. -/
theorem Coord.step_lostCheck {k : Coord} {a : Action} (hpc : k.pc a.conn = .lostCheck)
    (hfinished : k.finished = true) :
    k.step a = (k, []) ∨ k.step a = (k.goto a.conn .ended, []) := by
  rcases step_of_started (s := k) (a := a) (by simp [hpc]) with hidle | ⟨ch, -, hstep⟩
  · exact Or.inl hidle
  · right
    rw [hstep, advance, hpc, hfinished]
    rfl

/-- A thread that moves handles what it has at hand. -/
theorem Cluster.coordStep_incoming {a : Action} (ha : ∀ c m, a ≠ .receive c m) (c : ConnId) :
    s.incoming c = (s.coordStep a).1.incoming c ∨
      ∃ m, c = a.conn ∧ s.coord.pc c = .handle m ∧
        s.incoming c = m :: (s.coordStep a).1.incoming c := by
  have hmoves := s.coord.step_moves a
  have hafter : (s.coordStep a).1.incoming c =
      ((s.coord.step a).1.pc c).atHand ++ s.toCoord c := rfl
  rw [hafter]
  by_cases hc : c = a.conn
  · subst hc
    cases hpc : (s.coord.step a).1.pc a.conn with
    | handle m =>
      rcases hmoves.to_handle hpc with ⟨hsame, -⟩ | hevs
      · rw [← hpc, hsame]
        exact Or.inl rfl
      · exact absurd (Coord.receive_of_received (by rw [hevs]; exact List.mem_cons_self)) (ha _ m)
    | unborn | reading | dispatchLock | dispatchSend | dispatchMark | dispatchRun
    | completeConfirm | completeAck | completeFence | completeSave | saving | lostLock | lostCheck
    | lostTransfer | lostBuild | lostReport | lostChoose | lostVerify | lostSend | lostMark
    | ended =>
      cases hbefore : s.coord.pc a.conn with
      | handle m => exact Or.inr ⟨m, rfl, rfl, by simp [incoming, hbefore, Pc.atHand]⟩
      | _ => exact Or.inl (by simp [incoming, hbefore, Pc.atHand])
  · rw [hmoves.pc_of_ne hc]
    exact Or.inl rfl

/-- A connection ends only by its end. -/
theorem Coord.disconnect_of {k : Coord} {a : Action} (hpc : k.pc a.conn = .reading)
    (hlost : (k.step a).1.pc a.conn = .lostLock) : a = .disconnect a.conn := by
  cases a with
  | disconnect c => rfl
  | accept c | receive c m | proceed c ch =>
    dsimp only [Action.conn] at hpc hlost
    simp [step, advance, hpc, Pc.needsLock] at hlost

/-- **Step lemma, threads.** In a calm run a thread goes to where it may stand. -/
theorem Cluster.Allows.moves {a : Action} {evs : List Event}
    (h : s.coord.Moves c a s'.coord evs) (hthread : s.Allows c (s.coord.pc c))
    (hcheck : s.coord.pc c ≠ .lostCheck) (hreg : s.coord.RegInv)
    (hrunning : s.coord.runningConn = some c → s.worker c ≠ none)
    (horder : ∀ t ∈ s.coord.regOrder, t ∈ s'.coord.regOrder) (hclosed : s.Closed c → s'.Closed c)
    (hended : s.coord.pc c = .reading → s'.coord.pc c = .lostLock → s'.Closed c) :
    s'.Allows c (s'.coord.pc c) := by
  have hstays : s'.Allows c (s.coord.pc c) := hthread.mono horder hclosed h.finished_stays
  generalize hk : s'.coord = k' at h hended ⊢
  cases h with
  | idle => exact hstays
  | localStep a new evs hlocal =>
    rw [Coord.goto_pc_self] at hended ⊢
    generalize hpc : s.coord.pc c = pc at hlocal hstays hcheck hended
    cases hlocal with
    | accept | receive | ignored | noWorkers | sentAck | sentFence => trivial
    | disconnect => exact hended rfl rfl
    | asked => rfl
    | sentDispatch op auth target => exact horder target (hreg.aimed c target (by rw [hpc]; rfl))
    | notRunning => exact hstays
    | allDone | recover => exact absurd rfl hcheck
    | built | noReplacement | gaveUp | verified | sentAgain => exact absurd hstays id
  | callStep ch rc new hcall =>
    rw [Coord.goto_pc_self]
    generalize s.coord.pc c = pc at hcall hstays
    generalize (s.coord.call rc).2 = res at hcall
    cases hcall with
    | running | failure | reported | notReported | started | confirm => trivial
    | redispatch => exact absurd hstays id
  | register | dispatchLock | marked | saveStart | saveItem | saveEnd =>
    rw [Coord.goto_pc_self]
    trivial
  | lost a hpc hrun =>
    rw [hpc] at hstays
    rw [Coord.goto_pc_self]
    obtain ⟨w, hw⟩ := Option.ne_none_iff_exists'.mp (hrunning hrun)
    rw [hpc] at hthread
    have hsaved := (hthread w hw).2.2
    refine ⟨hstays, ?_⟩
    rw [hk]
    exact hsaved
  | markedAgain a r hpc | transferred a ch hpc | recorded a ch cur b hpc =>
    rw [hpc] at hstays
    exact absurd hstays id

/-- Whatever is in front of the lock or behind it, the running connection is a registered one. -/
theorem Coord.Moves.runningConn_of {k k' : Coord} {a : Action} {evs : List Event} {t : ConnId}
    (h : k.Moves c a k' evs) (hrun : k'.runningConn = some t) : k.runningConn = some t ∨
      (∃ op auth, k.pc c = .dispatchMark op auth t) ∨ k.pc c = .lostMark t := by
  cases h with
  | marked ch op auth target hpc =>
    obtain rfl : target = t := Option.some.inj hrun
    exact Or.inr (Or.inl ⟨op, auth, hpc⟩)
  | markedAgain a r hpc =>
    obtain rfl : r = t := Option.some.inj hrun
    exact Or.inr (Or.inr hpc)
  | lost => cases hrun
  | idle | localStep | callStep | register | dispatchLock | transferred | recorded | saveStart
  | saveItem | saveEnd => exact Or.inl hrun

/-- **Step lemma, coordinator.** A step that receives nothing keeps the invariant. -/
theorem CalmInv.coordStep (inv : CalmInv s) (hreg : s.coord.RegInv) {a : Action}
    (ha : ∀ c m, a ≠ .receive c m) (hcalm : s.Calm (.coord a)) : CalmInv (s.coordStep a).1 := by
  have hmoves := s.coord.step_moves a
  have hgrows := s.coord.regOrder_grows a
  have hclosed : ∀ c, s.Closed c → (s.coordStep a).1.Closed c :=
    fun c h w hw => ⟨(h w hw).1, (h w hw).2.1, hmoves.finished_stays (h w hw).2.2⟩
  have hkeeps : ∀ c, ∀ m ∈ (s.coordStep a).1.incoming c, m ∈ s.incoming c := by
    intro c m hm
    rcases s.coordStep_incoming ha c with hsame | ⟨m', -, -, hincoming⟩
    · rwa [hsame]
    · rw [hincoming]
      exact List.mem_cons_of_mem _ hm
  constructor
  · intro c hc
    by_cases hold : c ∈ s.coord.regOrder
    · exact inv.registered c hold
    · obtain ⟨rfl, m, hm, htype⟩ := Coord.conn_of_registered hc hold
      intro hnone
      have hask := inv.clients _ hnone m (by simp [Cluster.incoming, hm, Pc.atHand])
      exact absurd (htype.symm.trans hask) (by decide)
  · intro t hrun
    rcases hmoves.runningConn_of hrun with hold | ⟨op, auth, hpc⟩ | hpc
    · exact hgrows t (inv.running t hold)
    · have hthread := inv.threads a.conn
      rw [hpc] at hthread
      exact hgrows t hthread
    · have hthread := inv.threads a.conn
      rw [hpc] at hthread
      exact absurd hthread id
  · exact fun c hnone m hm => inv.clients c hnone m (hkeeps c m hm)
  · exact fun c m hm => inv.mild c m (hkeeps c m hm)
  · exact inv.workers
  · intro c
    by_cases hc : c = a.conn
    · subst hc
      have hthread := inv.threads a.conn
      by_cases hcheck : s.coord.pc a.conn = .lostCheck
      · rw [hcheck] at hthread
        show (s.coordStep a).1.Allows a.conn ((s.coord.step a).1.pc a.conn)
        rcases Coord.step_lostCheck hcheck hthread.2 with hidle | hended
        · rw [hidle, hcheck]
          exact ⟨hclosed _ hthread.1, hmoves.finished_stays hthread.2⟩
        · rw [hended, Coord.goto_pc_self]
          exact hclosed _ hthread.1
      · have hcoord : s.coord.Moves a.conn a (s.coordStep a).1.coord _ := hmoves
        refine hthread.moves hcoord hcheck hreg
          (fun hrun => inv.registered _ (inv.running _ hrun)) hgrows (hclosed _)
          (fun hpc hlost => hclosed _ ?_)
        rw [Coord.disconnect_of hpc hlost] at hcalm
        exact fun w hw => ⟨(hcalm.2 w hw).1, hcalm.1, (hcalm.2 w hw).2⟩
    · rw [show (s.coordStep a).1.coord.pc c = s.coord.pc c from hmoves.pc_of_ne hc]
      exact (inv.threads c).mono hgrows (hclosed c) hmoves.finished_stays

/-- What the coordinator has still to handle is the same when a thread receives the next message. -/
theorem Cluster.received_incoming {m : WireMessage} {rest : List WireMessage}
    (hpc : s.coord.pc c = .reading) (hqueue : s.toCoord c = m :: rest) (c' : ConnId) :
    (Cluster.coordStep { s with toCoord := Function.update s.toCoord c rest }
      (.receive c m)).1.incoming c' = s.incoming c' := by
  by_cases hc : c' = c
  · subst hc
    simp [incoming, Cluster.coordStep, Coord.step, hpc, hqueue, Pc.atHand]
  · simp [incoming, Cluster.coordStep, Coord.step, hpc, Coord.goto_pc_of_ne _ _ hc,
      Function.update_of_ne hc]

/-- **Step lemma, reception.** A thread that receives the next message keeps the invariant. -/
theorem CalmInv.received (inv : CalmInv s) {m : WireMessage} {rest : List WireMessage}
    (hpc : s.coord.pc c = .reading) (hqueue : s.toCoord c = m :: rest) :
    CalmInv (Cluster.coordStep { s with toCoord := Function.update s.toCoord c rest }
      (.receive c m)).1 := by
  have hincoming := Cluster.received_incoming hpc hqueue
  have hstep : s.coord.step (.receive c m) = (s.coord.goto c (.handle m), [.received c m]) := by
    simp [Coord.step, hpc]
  have hcoord : (Cluster.coordStep { s with toCoord := Function.update s.toCoord c rest }
      (.receive c m)).1.coord = s.coord.goto c (.handle m) := congrArg Prod.fst hstep
  constructor
  · rw [hcoord]
    exact inv.registered
  · rw [hcoord]
    exact inv.running
  · intro c' hnone
    rw [hincoming]
    exact inv.clients c' hnone
  · intro c'
    rw [hincoming]
    exact inv.mild c'
  · exact inv.workers
  · intro c'
    by_cases hc : c' = c
    · subst hc
      rw [hcoord, Coord.goto_pc_self]
      trivial
    · rw [hcoord, Coord.goto_pc_of_ne _ _ hc]
      refine (inv.threads c').mono ?_ (fun h w hw => ?_) ?_
      · rw [hcoord]
        exact fun _ ht => ht
      · rw [hcoord]
        exact ⟨(h w hw).1, (Function.update_of_ne hc ..).trans (h w hw).2.1, (h w hw).2.2⟩
      · rw [hcoord]
        exact id

/-- **Step lemma, peer.** A step of a worker or of a client on a connection keeps the invariant if
    it keeps it there. -/
theorem CalmInv.peer (inv : CalmInv s) (more : List WireMessage) (hcoord : s'.coord = s.coord)
    (hother : ∀ c', c' ≠ c → s'.worker c' = s.worker c' ∧ s'.toCoord c' = s.toCoord c')
    (hmore : s'.toCoord c = s.toCoord c ++ more) (hsome : s.worker c ≠ none → s'.worker c ≠ none)
    (hmild : ∀ m ∈ more, m.type ≠ .FAILURE ∧ (s'.worker c = none → m.type = .DISPATCH))
    (hworker : ∀ w, s'.worker c = some w →
      w.mode ≠ Text.ofLiteral "fail" ∧ ∀ m, w.pc ≠ .failing m)
    (hclosed : s.coord.pc c = .unborn ∨ (s.Closed c → s'.Closed c)) : CalmInv s' := by
  have hincoming : s'.incoming c = s.incoming c ++ more := by
    unfold Cluster.incoming
    rw [hcoord, hmore, List.append_assoc]
  have hsame : ∀ c', c' ≠ c → s'.incoming c' = s.incoming c' := by
    intro c' hc
    unfold Cluster.incoming
    rw [hcoord, (hother c' hc).2]
  constructor
  · intro c' hreg
    rw [hcoord] at hreg
    by_cases hc : c' = c
    · subst hc
      exact hsome (inv.registered c' hreg)
    · rw [(hother c' hc).1]
      exact inv.registered c' hreg
  · rw [hcoord]
    exact inv.running
  · intro c' hnone m hm
    by_cases hc : c' = c
    · subst hc
      rw [hincoming] at hm
      rcases List.mem_append.mp hm with hold | hnew
      · refine inv.clients c' ?_ m hold
        by_contra hne
        exact hsome hne hnone
      · exact (hmild m hnew).2 hnone
    · rw [hsame c' hc] at hm
      rw [(hother c' hc).1] at hnone
      exact inv.clients c' hnone m hm
  · intro c' m hm
    by_cases hc : c' = c
    · subst hc
      rw [hincoming] at hm
      rcases List.mem_append.mp hm with hold | hnew
      · exact inv.mild c' m hold
      · exact (hmild m hnew).1
    · rw [hsame c' hc] at hm
      exact inv.mild c' m hm
  · intro c' w hw
    by_cases hc : c' = c
    · subst hc
      exact hworker w hw
    · rw [(hother c' hc).1] at hw
      exact inv.workers c' w hw
  · intro c'
    rw [hcoord]
    by_cases hc : c' = c
    · subst hc
      rcases hclosed with hunborn | hclosed
      · rw [hunborn]
        trivial
      · exact (inv.threads c').mono (by rw [hcoord]; exact fun _ ht => ht) hclosed
          (by rw [hcoord]; exact id)
    · refine (inv.threads c').mono (by rw [hcoord]; exact fun _ ht => ht) (fun h w hw => ?_)
        (by rw [hcoord]; exact id)
      rw [(hother c' hc).1] at hw
      rw [(hother c' hc).2, hcoord]
      exact h w hw

/-- A worker that is not to fail works and reports the completion. -/
theorem Worker.proceed_calm (w : Worker) (hmode : w.mode ≠ Text.ofLiteral "fail")
    (hpc : ∀ m, w.pc ≠ .failing m) :
    (w.proceed true).1.mode = w.mode ∧ (∀ m, (w.proceed true).1.pc ≠ .failing m) ∧
      ∀ m, .sent m ∈ (w.proceed true).2 → m.type ≠ .FAILURE := by
  unfold proceed
  cases h : w.pc with
  | failing m => exact absurd h (hpc m)
  | working m => simp [hmode]
  | register | starting | completing => simp [registration, report]
  | registering | waiting | exited => simp [h]

/-- A worker that has exited does nothing more. -/
theorem Worker.proceed_exited {w : Worker} (hpc : w.pc = .exited) (ok : Bool) :
    w.proceed ok = (w, []) := by
  unfold proceed
  rw [hpc]

/-- A worker that receives a message is not about to report a failure. -/
theorem Worker.Moves.ne_failing {w : Worker} {pc : WorkerPc} {m : WireMessage}
    {evs : List WorkerEvent} (h : w.Moves pc (some m) evs) : ∀ m', pc ≠ .failing m' := by
  rintro m' rfl
  generalize ho : some m = o at h
  generalize hpc : WorkerPc.failing m' = pc at h
  cases h with
  | stay | giveUp | registered | started | worked | failed | completed => cases ho
  | acknowledged | refused | dispatched | shutDown | ignored => cases hpc

/-- **Step lemma.** Every calm step keeps the invariant. -/
theorem CalmInv.step (inv : CalmInv s) (hreg : s.coord.RegInv) {a : ClusterAction}
    (hcalm : s.Calm a) : CalmInv (s.step a).1 := by
  cases a with
  | coord a =>
    have hmoves := s.step_moves (.coord a)
    generalize (s.step (.coord a)).1 = s', (s.step (.coord a)).2 = evs at hmoves ⊢
    cases hmoves with
    | idle => exact inv
    | received c m rest hpc hqueue => exact inv.received hpc hqueue
    | coord a ha => exact inv.coordStep hreg ha hcalm
    | own a c w pc evs hw hmove hconn ha => exact absurd rfl (ha _)
  | start c workdir mode wid boot =>
    dsimp only [Cluster.step]
    split_ifs with hfresh
    · obtain ⟨hpc, hnone, -⟩ := Cluster.of_isFresh hfresh
      refine inv.peer (c := c) [] rfl (fun c' hc => ⟨Cluster.workerStep_worker_of_ne hc,
        Cluster.workerStep_toCoord_of_ne hc⟩) Cluster.workerStep_toCoord (absurd hnone)
        (fun m hm => by cases hm) (fun w hw => ?_) (Or.inl hpc)
      rw [Cluster.workerStep_worker] at hw
      obtain rfl := Option.some.inj hw
      exact ⟨hcalm, fun m hm => by cases hm⟩
    · exact inv
  | proceed c ok =>
    obtain rfl : ok = true := hcalm
    dsimp only [Cluster.step]
    cases hw : s.worker c with
    | none => exact inv
    | some w =>
      obtain ⟨hmode, hpc⟩ := inv.workers c w hw
      obtain ⟨hmode', hpc', hsent⟩ := w.proceed_calm hmode hpc
      dsimp only
      refine inv.peer (c := c) _ rfl (fun c' hc => ⟨Cluster.workerStep_worker_of_ne hc,
        Cluster.workerStep_toCoord_of_ne hc⟩) Cluster.workerStep_toCoord
        (fun _ => by simp) (fun m hm => ⟨?_, by simp⟩) (fun w' hw' => ?_)
        (Or.inr fun h w' hw' => ?_)
      · obtain ⟨ev, hev, hposted⟩ := List.mem_filterMap.mp hm
        cases ev with
        | sent m' =>
          obtain rfl := Option.some.inj hposted
          exact hsent m' hev
        | effect => cases hposted
      · rw [Cluster.workerStep_worker] at hw'
        obtain rfl := Option.some.inj hw'
        exact ⟨by rwa [hmode'], hpc'⟩
      · obtain ⟨hexited, hqueue, hfinished⟩ := h w hw
        rw [Worker.proceed_exited hexited, Cluster.workerStep_worker] at hw'
        obtain rfl := Option.some.inj hw'
        refine ⟨hexited, ?_, hfinished⟩
        rw [Cluster.workerStep_toCoord, Worker.proceed_exited hexited, hqueue]
        rfl
  | deliver c =>
    dsimp only [Cluster.step]
    split
    · next w m rest hw hqueue =>
      split_ifs with hreceives
      · obtain ⟨pc, hw', hmove⟩ := w.receive_moves m hreceives
        rw [hw']
        refine inv.peer (c := c) [] rfl (fun c' hc =>
          ⟨Cluster.workerStep_worker_of_ne hc, Cluster.workerStep_toCoord_of_ne hc⟩)
          Cluster.workerStep_toCoord (fun _ => by simp) (fun m hm => by cases hm)
          (fun w' hw'' => ?_) (Or.inr fun h => ?_)
        · rw [Cluster.workerStep_worker] at hw''
          obtain rfl := Option.some.inj hw''
          exact ⟨(inv.workers c w hw).1, hmove.ne_failing⟩
        · rw [Worker.receives, (h w hw).1] at hreceives
          cases hreceives
      · exact inv
    · exact inv
  | lose | kill => exact absurd hcalm id
  | client c m =>
    dsimp only [Cluster.step]
    split
    · next hnone =>
      refine inv.peer (c := c) [m] rfl
        (fun c' hc => ⟨rfl, Function.update_of_ne hc ..⟩) (Function.update_self ..) id
        (fun m' hm' => ?_) (fun w hw => inv.workers c w hw) (Or.inr fun h w hw => ?_)
      · obtain rfl := List.mem_singleton.mp hm'
        refine ⟨?_, fun _ => hcalm⟩
        rw [show m'.type = .DISPATCH from hcalm]
        decide
      · rw [show s.worker c = some w from hw] at hnone
        cases hnone
    · exact inv

end Calm

/-! ### The operations -/

/-- The operation is completed and recorded, or the work on it is in transit. -/
def Tended (s : Cluster) (op : OperationId) (r : OperationRuntime) : Prop :=
  r.terminalRecorded = true ∧ r.machine.state = .COMPLETION_CONFIRMED ∨
    r.Open ∧ InTransit s op r

section Operations

variable {s : Cluster} {op : OperationId} {r r' : OperationRuntime}

/-- What a thread is about to send is sent in its next step. -/
theorem Cluster.coordStep_sends (s : Cluster) (a : Action) {c t : ConnId}
    {e : AuthorityEnvelope} (hpc : s.coord.pc c = .dispatchSend op e t) :
    (s.coordStep a).1.coord.pc c = s.coord.pc c ∨
      ∃ m ∈ (s.coordStep a).1.toPeer t, m.Tells .DISPATCH op e := by
  by_cases hc : c = a.conn
  · subst hc
    rcases Coord.step_of_started (s := s.coord) (a := a) (by simp [hpc]) with hidle | ⟨ch, -, hstep⟩
    · exact Or.inl (congrArg (fun k : Coord × List Event => k.1.pc a.conn) hidle)
    · right
      have hsent : (s.coord.step a).2 = [.sent t (s.coord.dispatchMessage t op e)] := by
        rw [hstep, Coord.advance, hpc]
      refine ⟨s.coord.dispatchMessage t op e, ?_, rfl, rfl, rfl⟩
      rw [coordStep_toPeer, hsent]
      simp [sentTo]
  · exact Or.inl ((s.coord.step_moves a).pc_of_ne hc)

/-- A step of the coordinator passes the work on if what the thread has at hand makes the operation
    run when it says so, is no report that would be accepted, and is no confirmation that would
    succeed. -/
theorem Passes.of_coordStep {a : Action} (ha : ∀ c m, a ≠ .receive c m)
    (hauthority : r'.authority = r.authority) (hterminal : r'.terminal = r.terminal)
    (hstate : r'.machine.state = r.machine.state ∨ r'.machine.state = .RUNNING ∧ r.InWork)
    (hhandled : ∀ m, s.coord.pc a.conn = .handle m →
      (m.Tells .RUNNING op r.authority → r.InWork → r'.machine.state = .RUNNING) ∧
        (m.Tells .COMPLETE op r.authority → r.machine.state ≠ .RUNNING))
    (hconfirms : ∀ e, s.coord.pc a.conn = .completeConfirm op e →
      ¬ ((fenceCompletion e r.authority r.terminal).accepted = true ∧
        r.machine.state = .COMPLETION_REPORTED)) :
    Passes s (s.coordStep a).1 op r r' := by
  refine ⟨hauthority, hterminal, hstate, rfl, fun c m hm => List.mem_append_left _ hm,
    fun c t hpc => s.coordStep_sends a hpc, fun c => ?_, fun c e hpc => ?_⟩
  · rcases s.coordStep_incoming ha c with hsame | ⟨m, rfl, hm, hincoming⟩
    · exact Or.inl hsame
    · exact Or.inr ⟨m, hincoming, hhandled m hm⟩
  · by_cases hc : c = a.conn
    · subst hc
      exact Or.inr (hconfirms e hpc)
    · exact Or.inl ((s.coord.step_moves a).pc_of_ne hc)

/-- A step that does nothing to the runtime, and takes nothing of the operation away, keeps it
    tended. -/
theorem Tended.keeps (h : Tended s op r) {a : Action} (ha : ∀ c m, a ≠ .receive c m)
    (hhandled : ∀ m, s.coord.pc a.conn = .handle m → m.op = op → m.type ≠ .RUNNING ∧
      m.type ≠ .COMPLETE)
    (hconfirms : ∀ e, s.coord.pc a.conn ≠ .completeConfirm op e) :
    Tended (s.coordStep a).1 op r := by
  refine h.imp_right fun hin => hin.imp_right fun htransit => htransit.passes ?_
  refine .of_coordStep ha rfl rfl (Or.inl rfl) (fun m hm => ⟨fun htells => ?_, fun htells => ?_⟩)
    (fun e hpc => absurd hpc (hconfirms e))
  · exact absurd htells.type (hhandled m hm htells.isFor.op).1
  · exact absurd htells.type (hhandled m hm htells.isFor.op).2

/-- `run` keeps an operation tended, and makes it run when it is called with the authority. -/
theorem Tended.run (h : Tended s op r) {a : Action} (ha : ∀ c m, a ≠ .receive c m)
    (e : AuthorityEnvelope)
    (hhandled : ∀ m, s.coord.pc a.conn = .handle m → m.type = .RUNNING ∧ m.authority = e)
    (hconfirms : ∀ e, s.coord.pc a.conn ≠ .completeConfirm op e) :
    Tended (s.coordStep a).1 op (r.run e).1 := by
  rcases h with ⟨hrec, hstate⟩ | ⟨hopen, htransit⟩
  · left
    have hsame : (r.run e).1 = r := by simp [OperationRuntime.run, hrec]
    rw [hsame]
    exact ⟨hrec, hstate⟩
  · right
    have hcases := r.run_cases e
    have hauthority : (r.run e).1.authority = r.authority := by
      rcases hcases with hsame | ⟨hruns, -⟩
      · rw [hsame]
      · rw [hruns]
    have hterminal : (r.run e).1.terminal = r.terminal := by
      rcases hcases with hsame | ⟨hruns, -⟩
      · rw [hsame]
      · rw [hruns]
    have hunrecorded : (r.run e).1.terminalRecorded = r.terminalRecorded := by
      rcases hcases with hsame | ⟨hruns, -⟩
      · rw [hsame]
      · rw [hruns]
    refine ⟨⟨hunrecorded.trans hopen.unrecorded, by rw [hterminal]; exact hopen.terminal,
      by rw [hauthority]; exact hopen.authority⟩, htransit.passes ?_⟩
    refine .of_coordStep ha hauthority hterminal ?_ (fun m hm => ⟨fun htells hwork => ?_,
      fun htells => ?_⟩) (fun e' hpc => absurd hpc (hconfirms e'))
    · rcases hcases with hsame | ⟨hruns, hallowed⟩
      · rw [hsame]
        exact Or.inl rfl
      · refine Or.inr ⟨by rw [hruns], htransit.state.resolve_right fun hreported => ?_⟩
        rw [hreported] at hallowed
        exact absurd hallowed (by decide)
    · rw [← (hhandled m hm).2, htells.isFor.authority]
      exact hopen.run_self hwork
    · exact absurd (htells.type.symm.trans (hhandled m hm).1) (by decide)

/-- A report that a thread handles keeps its operation tended: it is accepted, and will be
    confirmed, or it was not the one that is waited for. -/
theorem Tended.report (h : Tended s op r) {a : Action} (ha : ∀ c m, a ≠ .receive c m)
    {m : WireMessage} (hm : s.coord.pc a.conn = .handle m) (htype : m.type = .COMPLETE)
    (hnext : (r.reportCompletion m.authority false).2 = .OK →
      (s.coordStep a).1.coord.pc a.conn = .completeConfirm op m.authority) :
    Tended (s.coordStep a).1 op (r.reportCompletion m.authority false).1 := by
  rcases h with ⟨hrec, hstate⟩ | ⟨hopen, htransit⟩
  · left
    have hsame : (r.reportCompletion m.authority false).1 = r := by
      simp [OperationRuntime.reportCompletion, hrec]
    rw [hsame]
    exact ⟨hrec, hstate⟩
  · right
    rcases r.reportCompletion_cases m.authority with ⟨hrefused, hsame⟩ | ⟨hok, hruns, hfence⟩
    · rw [hsame]
      refine ⟨hopen, htransit.passes ?_⟩
      refine .of_coordStep ha rfl rfl (Or.inl rfl) (fun m' hm' => ?_)
        (fun e hpc => by rw [hm] at hpc; cases hpc)
      obtain rfl : m = m' := by
        rw [hm] at hm'
        exact Pc.handle.inj hm'
      refine ⟨fun htells => absurd (htells.type.symm.trans htype) (by decide),
        fun htells hrun => ?_⟩
      rw [htells.isFor.authority] at hrefused
      exact hrefused (hopen.reportCompletion_self hrun)
    · rw [hruns]
      exact ⟨⟨hopen.unrecorded, hopen.terminal, hopen.authority⟩,
        .confirming a.conn m.authority rfl (hnext hok) hfence⟩

/-- A confirmation records the completion that it is about, or leaves the operation tended. -/
theorem Tended.confirm (h : Tended s op r) {a : Action} (ha : ∀ c m, a ≠ .receive c m)
    {e : AuthorityEnvelope} (hpc : s.coord.pc a.conn = .completeConfirm op e) :
    Tended (s.coordStep a).1 op (r.confirmCompletion e).1 := by
  rcases h with ⟨hrec, hstate⟩ | ⟨hopen, htransit⟩
  · left
    have hsame : (r.confirmCompletion e).1 = r := by simp [OperationRuntime.confirmCompletion, hrec]
    rw [hsame]
    exact ⟨hrec, hstate⟩
  · by_cases hwaits : (fenceCompletion e r.authority r.terminal).accepted = true ∧
        r.machine.state = .COMPLETION_REPORTED
    · exact Or.inl (hopen.confirmCompletion_reported hwaits.1 hwaits.2)
    · rcases r.confirmCompletion_cases e with hsame | hrecorded
      · rw [hsame]
        refine Or.inr ⟨hopen, htransit.passes ?_⟩
        refine .of_coordStep ha rfl rfl (Or.inl rfl) (fun m hm => ?_) (fun e' he' => ?_)
        · rw [hpc] at hm
          cases hm
        · obtain ⟨-, rfl⟩ := Pc.completeConfirm.inj (hpc.symm.trans he')
          exact hwaits
      · exact Or.inl hrecorded

/-- An operation that is dispatched is sent to the target next. -/
theorem Tended.of_dispatch {s : Cluster} {c t : ConnId} {e : AuthorityEnvelope}
    (hunrecorded : r.terminalRecorded = false) (hlive : isTerminal r.machine.state = false)
    (hterminal : r.terminal.isUnset = true) (he : e.isUnset = false)
    (hpc : s.coord.pc c = .dispatchSend op e t) (ht : s.worker t ≠ none) :
    Tended s op (r.dispatch e).1 := by
  obtain ⟨hauthority, hstate, hrec, hterm⟩ :=
    OperationRuntime.dispatch_live (e := e) hunrecorded hlive
  refine Or.inr ⟨⟨hrec, by rw [hterm]; exact hterminal, by rw [hauthority]; exact he⟩,
    .chosen c t (Or.inl hstate) (by rw [hauthority]; exact hpc) ht⟩

/-- A report on an operation leaves the others alone, and leaves of its own what its body makes of
    the runtime that it finds. -/
theorem find_of_event {reg : OperationRegistry} (rc : RegistryCall) (hrc : rc.onUnknown.1 = none)
    (h : (registry.step reg rc).1.find op = some r') :
    op ≠ rc.op ∧ reg.find op = some r' ∨
      op = rc.op ∧ ∃ r, reg.find op = some r ∧ r' = (rc.onRuntime r).1 ∧
        (registry.step reg rc).2 = (rc.onRuntime r).2 := by
  rw [registry_find_step] at h
  split_ifs at h with hop
  · right
    subst hop
    cases hr : reg.find rc.op with
    | none =>
      rw [hr] at h
      exact absurd (hrc.symm.trans h) (by simp)
    | some r =>
      rw [hr] at h
      refine ⟨rfl, r, rfl, (Option.some.inj h).symm, ?_⟩
      rw [registry_step_result, hr]
      rfl
  · exact Or.inl ⟨hop, h⟩

/-- An operation that is created, if it is new, and dispatched. -/
theorem find_of_dispatched {reg : OperationRegistry} {e : AuthorityEnvelope} {op' : OperationId}
    (h : (registry.step (registry.step reg (.create op' e)).1 (.dispatch op' e)).1.find op =
      some r') :
    op ≠ op' ∧ reg.find op = some r' ∨
      op = op' ∧ ∃ r, (reg.find op = some r ∨ reg.find op = none ∧ r = { authority := e }) ∧
        r' = (r.dispatch e).1 := by
  rcases find_of_event (.dispatch op' e) rfl h with ⟨hop, hfind⟩ | ⟨hop, r, hr, hr', -⟩
  · have hne : op ≠ (RegistryCall.create op' e).op := hop
    rw [registry_find_step, if_neg hne] at hfind
    exact Or.inl ⟨hop, hfind⟩
  · right
    obtain rfl : op = op' := hop
    refine ⟨rfl, r, ?_, hr'⟩
    have hself : op = (RegistryCall.create op e).op := rfl
    rw [registry_find_step, if_pos hself] at hr
    cases hold : reg.find (RegistryCall.create op e).op with
    | none =>
      rw [hold] at hr
      exact Or.inr ⟨hold, (Option.some.inj hr).symm⟩
    | some r₀ =>
      rw [hold] at hr
      exact Or.inl (hold.trans hr)

/-- Messages of other types make no call. -/
theorem Coord.handleMessage_ops {k : Coord} {c : ConnId} {m : WireMessage} (ch : Choice)
    (hrunning : m.type ≠ .RUNNING) (hcomplete : m.type ≠ .COMPLETE) (hfailure : m.type ≠ .FAILURE) :
    (k.handleMessage c m ch).1.store.ops = k.store.ops := by
  unfold handleMessage
  split
  · rfl
  · rfl
  · next htype => exact absurd htype hrunning
  · next htype => exact absurd htype hcomplete
  · next htype => exact absurd htype hfailure
  · rfl

/-- **Step lemma, handling.** The handling of a message keeps every operation tended. -/
theorem Tended.handle (inv : CalmInv s) {a : Action} (ha : ∀ c m, a ≠ .receive c m)
    {m : WireMessage} (hm : s.coord.pc a.conn = .handle m)
    (hold : ∀ r, s.coord.store.ops.find op = some r → Tended s op r)
    (hr' : (s.coord.step a).1.store.ops.find op = some r') : Tended (s.coordStep a).1 op r' := by
  have hother : ∀ e, s.coord.pc a.conn ≠ .completeConfirm op e := by
    intro e he
    rw [hm] at he
    cases he
  have hhandled : ∀ m', s.coord.pc a.conn = .handle m' → m' = m := fun m' hm' =>
    Pc.handle.inj (hm'.symm.trans hm)
  rcases Coord.step_of_started (s := s.coord) (a := a) (by simp [hm]) with hidle | ⟨ch, -, hstep⟩
  · rw [hidle] at hr'
    rw [s.coordStep_idle hidle]
    exact hold r' hr'
  rw [Coord.advance, hm] at hstep
  dsimp only at hstep
  by_cases hrunning : m.type = .RUNNING
  · unfold Coord.handleMessage at hstep
    rw [hrunning] at hstep
    rw [hstep] at hr'
    rcases find_of_event (.run m.op m.authority) rfl hr' with
      ⟨hop, hfind⟩ | ⟨hop, r, hr, rfl, -⟩
    · refine (hold r' hfind).keeps ha (fun m' hm' hop' => ?_) hother
      rw [hhandled m' hm'] at hop'
      exact absurd hop'.symm hop
    · refine (hold r hr).run ha m.authority (fun m' hm' => ?_) hother
      rw [hhandled m' hm']
      exact ⟨hrunning, rfl⟩
  by_cases hcomplete : m.type = .COMPLETE
  · unfold Coord.handleMessage at hstep
    rw [hcomplete] at hstep
    dsimp only at hstep
    have hcall := congrArg (fun k : Coord × List Event => k.1.store.ops.find op) hstep
    rw [show (s.coord.step a).1.store.ops.find op = _ from hr'] at hcall
    rcases find_of_event (.reportCompletion m.op m.authority false) rfl hcall.symm with
      ⟨hop, hfind⟩ | ⟨rfl, r, hr, rfl, hres⟩
    · refine (hold r' hfind).keeps ha (fun m' hm' hop' => ?_) hother
      rw [hhandled m' hm'] at hop'
      exact absurd hop'.symm hop
    · refine (hold r hr).report ha hm hcomplete (fun hok => ?_)
      rw [Cluster.coordStep_coord, hstep, Coord.goto_pc_self]
      exact if_pos (hres.trans hok)
  · have hfailure : m.type ≠ .FAILURE :=
      inv.mild a.conn m (by simp [Cluster.incoming, hm, Pc.atHand])
    rw [hstep, Coord.handleMessage_ops ch hrunning hcomplete hfailure] at hr'
    refine (hold r' hr').keeps ha (fun m' hm' _ => ?_) hother
    rw [hhandled m' hm']
    exact ⟨hrunning, hcomplete⟩

/-- **Step lemma, coordinator.** A step that receives nothing keeps every operation tended. -/
theorem Tended.coordStep (inv : CalmInv s) (hreg : s.coord.RegInv) {a : Action}
    (ha : ∀ c m, a ≠ .receive c m)
    (hold : ∀ r, s.coord.store.ops.find op = some r → Tended s op r)
    (hr' : (s.coord.step a).1.store.ops.find op = some r') : Tended (s.coordStep a).1 op r' := by
  by_cases hhandle : ∃ m, s.coord.pc a.conn = .handle m
  · obtain ⟨m, hm⟩ := hhandle
    exact Tended.handle inv ha hm hold hr'
  have hnot : ∀ m, s.coord.pc a.conn ≠ .handle m := fun m hm => hhandle ⟨m, hm⟩
  have hthread := inv.threads a.conn
  have hmoves := s.coord.step_moves a
  have hkeeps : (∀ e, s.coord.pc a.conn ≠ .completeConfirm op e) →
      s.coord.store.ops.find op = some r' → Tended (s.coordStep a).1 op r' :=
    fun hother hfind => (hold r' hfind).keeps ha (fun m hm => absurd hm (hnot m)) hother
  have hpc_of : ∀ {pc}, s.coord.pc a.conn = pc → (∀ e, pc ≠ .completeConfirm op e) →
      ∀ e, s.coord.pc a.conn ≠ .completeConfirm op e :=
    fun hpc hne e he => hne e (hpc.symm.trans he)
  generalize hk : (s.coord.step a).1 = k', hevs : (s.coord.step a).2 = evs at hmoves hr'
  generalize hconn : a.conn = c at *
  cases hmoves with
  | idle =>
    rw [s.coordStep_idle (Prod.ext hk hevs)]
    exact hold r' hr'
  | localStep a new evs hlocal =>
    refine hkeeps (fun e he => ?_) hr'
    rw [he] at hlocal
    cases hlocal
  | callStep ch rc new hcall =>
    generalize hpc : s.coord.pc c = pc at hcall
    generalize hres : (s.coord.call rc).2 = res at hcall
    cases hcall with
    | running m | failure m | reported m | notReported m => exact absurd hpc (hnot m)
    | redispatch =>
      rw [hpc] at hthread
      exact absurd hthread id
    | started op₁ auth =>
      rcases find_of_event (.run op₁ auth) rfl hr' with ⟨-, hfind⟩ | ⟨-, r, hr, rfl, -⟩
      · exact hkeeps (hpc_of hpc fun e he => by cases he) hfind
      · exact (hold r hr).run ha auth (fun m hm => absurd hm (hnot m))
          (hpc_of hpc fun e he => by cases he)
    | confirm op₁ e =>
      rcases find_of_event (.confirmCompletion op₁ e) rfl hr' with
        ⟨hop, hfind⟩ | ⟨rfl, r, hr, rfl, -⟩
      · refine hkeeps (hpc_of hpc fun e' he => ?_) hfind
        exact absurd (Pc.completeConfirm.inj he).1.symm hop
      · exact (hold r hr).confirm ha hpc
  | register a m wid order hm => exact absurd hm (hnot m)
  | dispatchLock ch op₁ auth wid target rest hpc hworkers =>
    rcases find_of_dispatched hr' with ⟨-, hfind⟩ | ⟨rfl, r, hr, rfl⟩
    · exact hkeeps (hpc_of hpc fun e he => by cases he) hfind
    · have hnext : (s.coordStep (.proceed c ch)).1.coord.pc c = .dispatchSend op auth target := by
        rw [Cluster.coordStep_coord, hk, Coord.goto_pc_self]
      have htarget : s.worker target ≠ none :=
        inv.registered target
          (hreg.listed (wid, target) (by rw [hworkers]; exact List.mem_cons_self))
      rw [hpc] at hthread
      rcases hr with hr | ⟨-, rfl⟩
      · rcases hold r hr with ⟨hrec, hstate⟩ | ⟨hopen, htransit⟩
        · have hsame : (r.dispatch auth).1 = r := by simp [OperationRuntime.dispatch, hrec]
          rw [hsame]
          exact Or.inl ⟨hrec, hstate⟩
        · exact .of_dispatch hopen.unrecorded htransit.live hopen.terminal hthread hnext htarget
      · exact .of_dispatch rfl rfl rfl hthread hnext htarget
  | marked ch op₁ auth target hpc => exact hkeeps (hpc_of hpc fun e he => by cases he) hr'
  | lost a hpc => exact hkeeps (hpc_of hpc fun e he => by cases he) hr'
  | saveStart ch op₁ o hpc => exact hkeeps (hpc_of hpc fun e he => by cases he) hr'
  | saveItem a item todo hpc => exact hkeeps (hpc_of hpc fun e he => by cases he) hr'
  | saveEnd a hpc => exact hkeeps (hpc_of hpc fun e he => by cases he) hr'
  | markedAgain a r hpc | transferred a ch hpc | recorded a ch cur b hpc =>
    rw [hpc] at hthread
    exact absurd hthread id

/-- **Step lemma, reception.** A thread that receives the next message keeps the operation
    tended. -/
theorem Tended.received (h : Tended s op r) {c : ConnId} {m : WireMessage}
    {rest : List WireMessage} (hpc : s.coord.pc c = .reading) (hqueue : s.toCoord c = m :: rest) :
    Tended (Cluster.coordStep { s with toCoord := Function.update s.toCoord c rest }
      (.receive c m)).1 op r := by
  refine h.imp_right fun hin => hin.imp_right fun htransit => htransit.passes ?_
  have hsame : ∀ c', s.coord.pc c' ≠ .reading →
      (Cluster.coordStep { s with toCoord := Function.update s.toCoord c rest }
        (.receive c m)).1.coord.pc c' = s.coord.pc c' := by
    intro c' hne
    have hc : c' ≠ c := by
      rintro rfl
      exact hne hpc
    exact (s.coord.step_moves (.receive c m)).pc_of_ne hc
  refine ⟨rfl, rfl, Or.inl rfl, rfl, fun c' m' hm' => List.mem_append_left _ hm',
    fun c' t hsend => Or.inl (hsame c' (by simp [hsend])), fun c' => Or.inl ?_,
    fun c' e hconfirm => Or.inl (hsame c' (by simp [hconfirm]))⟩
  exact (Cluster.received_incoming hpc hqueue c').symm

/-- **Step lemma, worker.** A worker that goes on, and does not fail, keeps the operation tended. -/
theorem Tended.proceed (h : Tended s op r) {c : ConnId} {w : Worker} (hw : s.worker c = some w)
    (hmode : w.mode ≠ Text.ofLiteral "fail") :
    Tended (s.workerStep c (w.proceed true).1 (w.proceed true).2).1 op r := by
  refine h.imp_right fun hin => hin.imp_right fun htransit => htransit.peer (c := c) rfl
    (fun c' hc => Cluster.workerStep_worker_of_ne hc) (fun c' hsome => ?_) (fun _ _ => rfl)
    (fun c' => ?_) (fun m hm htells _ hr => .sent c m hr htells hm (by simp)) ?_ ?_
  · by_cases hc : c' = c
    · subst hc
      simp
    · rwa [Cluster.workerStep_worker_of_ne hc]
  · by_cases hc : c' = c
    · subst hc
      exact ⟨_, Cluster.workerStep_toCoord⟩
    · exact ⟨[], by rw [Cluster.workerStep_toCoord_of_ne hc, List.append_nil]⟩
  · intro w' m hw' hpc hm hr
    obtain rfl := Option.some.inj (hw.symm.trans hw')
    have hstep : w.proceed true =
        ({ w with pc := .working m }, [.sent (w.report m .RUNNING [])]) := by
      unfold Worker.proceed
      rw [hpc]
      rfl
    rw [hstep]
    refine .working c _ m hr hm Cluster.workerStep_worker (Or.inl rfl) (Or.inr ?_)
    refine ⟨w.report m .RUNNING [], List.mem_append_right _ ?_, rfl, hm.op, hm.authority⟩
    rw [Cluster.workerStep_toCoord]
    exact List.mem_append_right _ List.mem_cons_self
  · intro w' m hw' hpc hm hr hruns
    obtain rfl := Option.some.inj (hw.symm.trans hw')
    rcases hpc with hpc | hpc
    · have hstep : w.proceed true = ({ w with pc := .completing m },
          [.effect m (w.markerPath m) (w.markerLine m) true]) := by
        unfold Worker.proceed
        rw [hpc]
        simp [hmode]
      rw [hstep]
      refine .working c _ m hr hm Cluster.workerStep_worker (Or.inr rfl) ?_
      have hsame : (s.workerStep c { w with pc := .completing m }
          [.effect m (w.markerPath m) (w.markerLine m) true]).1.incoming c = s.incoming c := by
        unfold Cluster.incoming
        rw [Cluster.workerStep_toCoord, Cluster.workerStep_coord]
        exact congrArg _ (List.append_nil _)
      rwa [hsame]
    · have hstep : w.proceed true = ({ w with pc := .exited },
          [.sent (w.report m .COMPLETE (Text.ofLiteral "result=done"))]) := by
        unfold Worker.proceed
        rw [hpc]
        rfl
      rw [hstep]
      refine .reported c (s.incoming c) [] (w.report m .COMPLETE (Text.ofLiteral "result=done")) hr
        ⟨rfl, hm.op, hm.authority⟩ ?_ hruns
      unfold Cluster.incoming
      rw [Cluster.workerStep_toCoord, Cluster.workerStep_coord, List.append_assoc]
      rfl

/-- **Step lemma, delivery.** A worker that receives the next message keeps the operation tended: it
    takes work only when it waits for it. -/
theorem Tended.deliver (h : Tended s op r) (hshakes : s.Handshakes) {c : ConnId} {w : Worker}
    {m : WireMessage} {rest : List WireMessage} (hw : s.worker c = some w)
    (hqueue : s.toPeer c = m :: rest) (hreceives : w.receives = true) :
    Tended (Cluster.workerStep { s with toPeer := Function.update s.toPeer c rest } c
      (w.receive m) []).1 op r := by
  refine h.imp_right fun hin => hin.imp_right fun htransit => htransit.peer (c := c) rfl
    (fun c' hc => Cluster.workerStep_worker_of_ne hc) (fun c' hsome => ?_)
    (fun c' hc => Function.update_of_ne hc ..) (fun c' => ?_) ?_ ?_ ?_
  · by_cases hc : c' = c
    · subst hc
      simp
    · rwa [Cluster.workerStep_worker_of_ne hc]
  · by_cases hc : c' = c
    · subst hc
      exact ⟨_, Cluster.workerStep_toCoord⟩
    · exact ⟨[], by rw [Cluster.workerStep_toCoord_of_ne hc, List.append_nil]⟩
  · intro m' hm' htells _ hr
    rw [hqueue] at hm'
    rcases List.mem_cons.mp hm' with rfl | hrest
    · cases hpc : w.pc with
      | registering =>
        have hack := (hshakes.answered c w hw hpc m' rest hqueue).type
        exact absurd (htells.type.symm.trans hack) (by decide)
      | waiting =>
        refine .taken c _ m' hr htells.isFor Cluster.workerStep_worker ?_
        simp [Worker.receive, hpc, htells.type]
      | register | starting | working | failing | completing | exited =>
        simp [Worker.receives, hpc] at hreceives
    · refine .sent c m' hr htells ?_ (by simp)
      rw [Cluster.workerStep_toPeer]
      dsimp only
      rwa [Function.update_self]
  · intro w' m' hw' hpc
    obtain rfl := Option.some.inj (hw.symm.trans hw')
    simp [Worker.receives, hpc] at hreceives
  · intro w' m' hw' hpc
    obtain rfl := Option.some.inj (hw.symm.trans hw')
    rcases hpc with hpc | hpc <;> simp [Worker.receives, hpc] at hreceives

end Operations

/-! ### Runs -/

/-- The invariant of the calm runs: whatever is new since `base` is tended. -/
structure DeliveryInv (base : OperationRegistry) (s : Cluster) : Prop where
  handshake : HandshakeInv s
  lock : s.coord.LockInv
  calm : CalmInv s
  ops : ∀ op r, base.find op = none → s.coord.store.ops.find op = some r → Tended s op r

section Runs

variable {s : Cluster} {base : OperationRegistry}

theorem deliveryInv_boot (file : Option (List UInt8)) :
    DeliveryInv (Cluster.boot file).coord.store.ops (.boot file) where
  handshake := handshakeInv_boot file
  lock := lockInv_boot file
  calm := ⟨fun _ hc => (by cases hc), fun _ hrun => (by cases hrun), fun _ _ _ hm => (by cases hm),
    fun _ _ hm => (by cases hm), fun _ _ hw => (by cases hw), fun _ => trivial⟩
  ops := by
    intro op r hnone hr
    rw [hnone] at hr
    cases hr

/-- **Step lemma.** Every calm step keeps the invariant. -/
theorem DeliveryInv.step (inv : DeliveryInv base s) {a : ClusterAction} (hcalm : s.Calm a) :
    DeliveryInv base (s.step a).1 := by
  refine ⟨inv.handshake.step a, s.lockInv_step inv.lock a, inv.calm.step inv.handshake.reg hcalm,
    fun op r hbase => ?_⟩
  have hold : ∀ r, s.coord.store.ops.find op = some r → Tended s op r :=
    fun r => inv.ops op r hbase
  cases a with
  | coord a =>
    have hmoves := s.step_moves (.coord a)
    generalize (s.step (.coord a)).1 = s', (s.step (.coord a)).2 = evs at hmoves ⊢
    cases hmoves with
    | idle => exact hold r
    | received c m rest hpc hqueue =>
      intro hr
      refine (hold r ?_).received hpc hqueue
      rw [← hr]
      simp [Cluster.coordStep, Coord.step, hpc]
    | coord a ha => exact Tended.coordStep inv.calm inv.handshake.reg ha hold
    | own a c w pc evs hw hmove hconn ha => exact absurd rfl (ha _)
  | start c workdir mode wid boot =>
    dsimp only [Cluster.step]
    split_ifs with hfresh
    · intro hr
      obtain ⟨-, hnone, -⟩ := Cluster.of_isFresh hfresh
      refine (hold r hr).imp_right fun hin => hin.imp_right fun htransit =>
        htransit.peer (c := c) rfl
          (fun c' hc => Cluster.workerStep_worker_of_ne hc) (fun c' hsome => ?_) (fun _ _ => rfl)
          (fun c' => ?_) (fun _ _ _ hsome => absurd hnone hsome)
          (fun w _ hw => ?_) (fun w _ hw => ?_)
      · have hc : c' ≠ c := by
          rintro rfl
          exact hsome hnone
        rwa [Cluster.workerStep_worker_of_ne hc]
      · by_cases hc : c' = c
        · subst hc
          exact ⟨_, Cluster.workerStep_toCoord⟩
        · exact ⟨[], by rw [Cluster.workerStep_toCoord_of_ne hc, List.append_nil]⟩
      all_goals
        rw [hnone] at hw
        cases hw
    · exact hold r
  | proceed c ok =>
    obtain rfl : ok = true := hcalm
    dsimp only [Cluster.step]
    cases hw : s.worker c with
    | none => exact hold r
    | some w => exact fun hr => (hold r hr).proceed hw (inv.calm.workers c w hw).1
  | deliver c =>
    dsimp only [Cluster.step]
    split
    · next w m rest hw hqueue =>
      split_ifs with hreceives
      · exact fun hr => (hold r hr).deliver inv.handshake.handshakes hw hqueue hreceives
      · exact hold r
    · exact hold r
  | lose | kill => exact absurd hcalm id
  | client c m =>
    dsimp only [Cluster.step]
    split
    · next hnone =>
      intro hr
      refine (hold r hr).imp_right fun hin => hin.imp_right fun htransit =>
        htransit.peer (c := c) rfl
          (fun _ _ => rfl) (fun _ hsome => hsome) (fun _ _ => rfl) (fun c' => ?_)
          (fun _ _ _ hsome => absurd hnone hsome) (fun w _ hw => ?_) (fun w _ hw => ?_)
      · by_cases hc : c' = c
        · subst hc
          exact ⟨[m], Function.update_self ..⟩
        · exact ⟨[], by rw [List.append_nil]; exact Function.update_of_ne hc ..⟩
      all_goals
        rw [hnone] at hw
        cases hw
    · exact hold r

/-- A step of the processes themselves is calm, unless it notices the end of a connection. -/
theorem Cluster.Inner.calm {a : ClusterAction} (h : s.Inner a)
    (hends : ∀ c, a ≠ .coord (.disconnect c)) : s.Calm a := by
  cases a with
  | coord a =>
    cases a with
    | accept | receive | proceed => trivial
    | disconnect c => exact absurd rfl (hends c)
  | proceed c ok => exact h
  | deliver => trivial
  | start | lose | kill | client => exact absurd h id

/-- At rest no worker has anything at hand. -/
theorem Cluster.AtRest.task_eq_none (hrest : s.AtRest) {c : ConnId} {w : Worker}
    (hw : s.worker c = some w) : w.pc.task = none := by
  rcases hrest.workers c w hw with hpc | ⟨hreceives, -⟩
  · rw [hpc]
    rfl
  · unfold Worker.receives at hreceives
    cases hpc : w.pc with
    | registering | waiting | register | exited => rfl
    | starting | working | failing | completing => simp [hpc] at hreceives

/-- Work that is still in transit when the processes are at rest was sent to a worker that had
    already done its one piece of work. -/
theorem InTransit.atRest {op : OperationId} {r : OperationRuntime} (h : InTransit s op r)
    (inv : CalmInv s) (hrest : s.AtRest) : ∃ c w m, s.worker c = some w ∧ w.pc = .exited ∧
      m ∈ s.toPeer c ∧ m.Tells .DISPATCH op r.authority := by
  have hworker := fun c w => hrest.task_eq_none (c := c) (w := w)
  cases h with
  | chosen c t hr hpc =>
    have hresting := hrest.coord.resting c
    rw [hpc] at hresting
    cases hresting
  | sent c m hr hm hqueue hw =>
    obtain ⟨w, hw⟩ := Option.ne_none_iff_exists'.mp hw
    rcases hrest.workers c w hw with hpc | ⟨-, hempty⟩
    · exact ⟨c, w, m, hw, hpc, hqueue, hm⟩
    · rw [hempty] at hqueue
      cases hqueue
  | taken c w m hr hm hw hpc =>
    have htask := hworker c w hw
    rw [hpc] at htask
    cases htask
  | working c w m hr hm hw hpc =>
    have htask := hworker c w hw
    rcases hpc with hpc | hpc <;>
    · rw [hpc] at htask
      cases htask
  | reported c pre post m hr hm hqueue =>
    have hresting := hrest.coord.resting c
    have hmem : m ∈ s.incoming c := by
      rw [hqueue]
      exact List.mem_append_right _ List.mem_cons_self
    have hincoming : s.incoming c = s.toCoord c := by
      unfold Cluster.incoming
      cases hpc : s.coord.pc c with
      | handle m =>
        rw [hpc] at hresting
        cases hresting
      | _ => rfl
    have hne : s.toCoord c ≠ [] := by
      rw [hincoming] at hmem
      exact List.ne_nil_of_mem hmem
    cases hw : s.worker c with
    | none =>
      have hask := inv.clients c hw m hmem
      exact absurd (hm.type.symm.trans hask) (by decide)
    | some w =>
      have hclosed := inv.threads c
      rw [hrest.received c hne] at hclosed
      exact absurd (hclosed w hw).2.1 hne
  | confirming c e hr hpc =>
    have hresting := hrest.coord.resting c
    rw [hpc] at hresting
    cases hresting

/-- The operation is completed and recorded, or its work was sent to a worker that had already done
    its one piece of work, and lies there. -/
def Cluster.Delivered (s : Cluster) (op : OperationId) (r : OperationRuntime) : Prop :=
  r.terminalRecorded = true ∧ r.machine.state = .COMPLETION_CONFIRMED ∨
    ∃ c w m, s.worker c = some w ∧ w.pc = .exited ∧ m ∈ s.toPeer c ∧
      m.Tells .DISPATCH op r.authority

/-- The processes are at rest, and every operation that is new since `base` is delivered. -/
structure Cluster.AllDelivered (base : OperationRegistry) (s : Cluster) : Prop where
  atRest : s.AtRest
  delivered : ∀ op r, base.find op = none → s.coord.store.ops.find op = some r → s.Delivered op r

/-- **Work is delivered.** After any calm run, with any clients that ask for any operations and any
    workers that join, the processes left to themselves come to rest, whichever of them takes the
    next step, and whether the ends of connections are noticed or not.  Then every operation that
    was dispatched is completed and recorded, but for those whose work was sent to a worker that had
    already done its one piece of work. -/
theorem calm_delivers (file : Option (List UInt8)) (acts : List ClusterAction)
    (noticed : ConnId → Bool) (hcalm : cluster.Always Cluster.Calm (.boot file) acts) :
    Settles (Cluster.GoesOn noticed) (Cluster.AllDelivered (Cluster.boot file).coord.store.ops)
      (cluster.run (.boot file) acts) := by
  have inv : DeliveryInv (Cluster.boot file).coord.store.ops (cluster.run (.boot file) acts) :=
    Machine.always_induction (M := cluster) (fun s a hcalm inv => inv.step hcalm)
      (deliveryInv_boot file) hcalm
  have hends : Terminates (Cluster.GoesOn noticed) (cluster.run (.boot file) acts) := by
    refine (Cluster.usedIn_run file acts).terminates_of (fun _ => false) ?_
    rintro s s' ⟨a, hinner, -, -, hafter, hne⟩
    exact ⟨a, Or.inl hinner, hafter, hne⟩
  refine hends.settles (fun s s' inv hstep => ?_) inv (fun s inv hstuck => ?_)
  · obtain ⟨a, -, hcalm, -, rfl, -⟩ := hstep
    exact inv.step hcalm
  · have hrest : s.AtRest := by
      refine (Cluster.restsBut_of_stuck inv.lock fun a hinner hnot => ?_).atRest
      rw [Cluster.attempt_reads]
      by_contra hne
      exact hstuck _ ⟨a, hinner, hinner.calm hnot, fun c ha => absurd ha (hnot c), rfl, hne⟩
    exact ⟨hrest, fun op r hbase hr =>
      (inv.ops op r hbase hr).imp_right fun htended => htended.2.atRest inv.calm hrest⟩

/-- In the sample run the worker has been sent its work, and does it when left alone. -/
theorem calm_delivers_clientAsks :
    Settles (Cluster.GoesOn fun _ => true)
      (Cluster.AllDelivered (Cluster.boot none).coord.store.ops)
      (cluster.run (.boot none) (workerJoins ++ clientAsks)) := by
  refine calm_delivers none (workerJoins ++ clientAsks) _ (Machine.always_iff.mpr ?_)
  have hcalm : ∀ a ∈ workerJoins ++ clientAsks, ∀ s : Cluster, s.Calm a := by
    have hmode : Text.ofLiteral "normal" ≠ Text.ofLiteral "fail" := by decide
    simp [workerJoins, clientAsks, askedRun, Cluster.Calm, hmode]
  rintro pre a post hsplit
  exact hcalm a (by rw [hsplit]; simp) _

end Runs

end FailureFabric
