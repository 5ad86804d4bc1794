import FailureFabric.Membership

namespace FailureFabric

open Library

/-!
# Beside the work

When the work on one operation is followed from hand to hand, most of what happens has nothing to do
with it: workers register, clients come and go, the thread of the first dispatch comes back late,
and the threads of workers that were lost return.

* `Cluster.Aside` — the connection has nothing to do with the work;
* `Apart`, `Beside` — a step on such a connection, and what it leaves alone;
* `Cluster.Aside.step` — every step on such a connection is beside the work, but for the one that
  notes the running connection (`Cluster.Aside.noted`).
-/

/-- Where a thread stands that has nothing to do with the work on the operation, or no more. -/
def Pc.Aside (op : OperationId) : Pc → Prop
  | unborn | reading | handle _ | lostLock | ended | lostMark _ => True
  | dispatchMark op' .. | dispatchRun op' _ => op' = op
  | _ => False

/-- The thread reads, or handles what it has read. -/
def Pc.Attending : Pc → Prop
  | unborn | reading | handle _ => True
  | _ => False

/-- The thread is about to note the connection as the running one. -/
def Pc.marks : Pc → Option ConnId
  | dispatchMark _ _ target => some target
  | lostMark r => some r
  | _ => none

/-- The connection has nothing to do with the work on the operation. -/
structure Cluster.Aside (s : Cluster) (op : OperationId) (c : ConnId) : Prop where
  pc : (s.coord.pc c).Aside op
  messages : ∀ m ∈ s.incoming c, m.type = .REGISTER
  worker : ∀ w, s.worker c = some w → w.pc.task = none
  undelivered : (∀ m ∈ s.toPeer c, m.type ≠ .DISPATCH) ∨ s.Gone c
  listed : ∀ p ∈ s.coord.workers, p.2 = c → (s.coord.pc c).Attending

/-- A step on a connection leaves the other connections alone, and lists no other. -/
structure Elsewhere (s s' : Cluster) (c : ConnId) : Prop where
  same : ∀ c', c' ≠ c → s.SameAt s' c' ∧ s'.toPeer c' = s.toPeer c'
  listed : ∀ p ∈ s'.coord.workers, p ∈ s.coord.workers ∨ p.2 = c

/-- A step on a connection beside the work: it leaves alone what the registry knows of the work,
    but that the thread of the first dispatch may say late that the operation runs. -/
structure Apart (s s' : Cluster) (op : OperationId) (c : ConnId) : Prop extends
    Elsewhere s s' c where
  aside : s'.Aside op c
  attending : s.worker c ≠ none → (s.coord.pc c).Attending → (s'.coord.pc c).Attending
  member : s.worker c ≠ none → s'.worker c ≠ none
  ops : s'.coord.store.ops.find op = s.coord.store.ops.find op ∨
    ∃ e, s'.coord.store.ops.find op = (s.coord.store.ops.find op).map fun r => (r.run e).1
  finished : s'.coord.finished = s.coord.finished

/-- Such a step that leaves the running connection alone too. -/
structure Beside (s s' : Cluster) (op : OperationId) (c : ConnId) : Prop extends
    Apart s s' op c where
  marks : s'.coord.pc c = s.coord.pc c ∨
    (s'.coord.pc c).marks = none ∧ (s.coord.pc c).marks = none
  runningConn : s'.coord.runningConn = s.coord.runningConn
  currentOp : s'.coord.currentOp = s.coord.currentOp

section Beside

variable {s s' : Cluster} {op : OperationId} {c c' : ConnId}

/-- Nothing happens. -/
theorem Cluster.Aside.refl (h : s.Aside op c) : Beside s s op c where
  same := fun _ _ => ⟨⟨rfl, rfl, rfl⟩, rfl⟩
  aside := h
  marks := Or.inl rfl
  attending := fun _ h => h
  member := id
  listed := fun _ hp => Or.inl hp
  ops := Or.inl rfl
  runningConn := rfl
  currentOp := rfl
  finished := rfl

theorem Cluster.SameAt.incoming (h : s.SameAt s' c) : s'.incoming c = s.incoming c := by
  unfold Cluster.incoming
  rw [h.pc, h.toCoord]

theorem Cluster.SameAt.gone (h : s.SameAt s' c) (hgone : s.Gone c) : s'.Gone c := by
  unfold Cluster.Gone
  rwa [h.worker]

/-- A connection beside the work stays so when the step is on another one. -/
theorem Elsewhere.aside (h : Elsewhere s s' c) (hne : c' ≠ c) (haside : s.Aside op c') :
    s'.Aside op c' := by
  obtain ⟨hsame, hpeer⟩ := h.same c' hne
  refine ⟨?_, ?_, ?_, ?_, fun p hp hconn => ?_⟩
  · rw [hsame.pc]
    exact haside.pc
  · rw [hsame.incoming]
    exact haside.messages
  · rw [hsame.worker]
    exact haside.worker
  · rw [hpeer]
    exact haside.undelivered.imp_right hsame.gone
  · rw [hsame.pc]
    rcases h.listed p hp with hold | hnew
    · exact haside.listed p hold hconn
    · exact absurd (hconn.symm.trans hnew) hne

/-- A thread beside the work goes on beside the work. -/
theorem Cluster.Aside.apart (h : s.Aside op c) {a : Action} {k : Coord} {new : Pc}
    {evs : List Event} (inv : MemberInv s) (hconn : a.conn = c)
    (hstep : s.coord.step a = (k.goto c new, evs)) (haside : new.Aside op)
    (hhand : new.atHand = [])
    (hattending : s.worker c ≠ none → (s.coord.pc c).Attending → new.Attending)
    (hothers : ∀ c', c' ≠ c → sentTo c' evs = []) (hown : ∀ m ∈ sentTo c evs, m.type ≠ .DISPATCH)
    (hlisted : ∀ p ∈ k.workers, p ∈ s.coord.workers ∨ p.2 = c ∧ new.Attending)
    (hops : k.store.ops.find op = s.coord.store.ops.find op ∨
      ∃ e, k.store.ops.find op = (s.coord.store.ops.find op).map fun r => (r.run e).1)
    (hfinished : k.finished = s.coord.finished) : Apart s (s.coordStep a).1 op c := by
  subst hconn
  have hcoord : (s.coordStep a).1.coord = k.goto a.conn new := congrArg Prod.fst hstep
  have hsent : ∀ c', (s.coordStep a).1.toPeer c' = s.toPeer c' ++ sentTo c' evs := by
    intro c'
    rw [Cluster.coordStep_toPeer, hstep]
  have hpc : (s.coordStep a).1.coord.pc a.conn = new := by rw [hcoord, Coord.goto_pc_self]
  refine ⟨⟨fun c' hc => ⟨s.coordStep_sameAt hc, ?_⟩, fun p hp => ?_⟩, ⟨?_, fun m hm => ?_,
    h.worker, ?_, fun p hp hconn => ?_⟩, fun hw hbefore => ?_, id, ?_, ?_⟩
  · rw [hsent, hothers c' hc, List.append_nil]
  · rw [hcoord] at hp
    exact (hlisted p hp).imp_right And.left
  · rwa [hpc]
  · refine h.messages m (List.mem_append_right _ ?_)
    unfold Cluster.incoming at hm
    rwa [hpc, hhand] at hm
  · refine h.undelivered.imp_left fun hnone m hm => ?_
    rw [hsent] at hm
    exact (List.mem_append.mp hm).elim (hnone m) (hown m)
  · rw [hpc]
    rw [hcoord] at hp
    rcases hlisted p hp with hold | ⟨-, hnew⟩
    · obtain ⟨w, hw, -⟩ := inv.listed p hold
      rw [hconn] at hw
      exact hattending (hw.trans_ne (Option.some_ne_none w)) (h.listed p hold hconn)
    · exact hnew
  · rw [hpc]
    exact hattending hw hbefore
  · rw [hcoord]
    exact hops
  · rw [hcoord]
    exact hfinished

/-- A step on the thread that leaves the running connection alone. -/
theorem Apart.beside {a : Action} {k : Coord} {new : Pc} {evs : List Event}
    (h : Apart s (s.coordStep a).1 op c) (hstep : s.coord.step a = (k.goto c new, evs))
    (hnew : new.marks = none) (hmarks : (s.coord.pc c).marks = none)
    (hrun : k.runningConn = s.coord.runningConn) (hcurrent : k.currentOp = s.coord.currentOp) :
    Beside s (s.coordStep a).1 op c := by
  have hcoord : (s.coordStep a).1.coord = k.goto c new := congrArg Prod.fst hstep
  refine ⟨h, Or.inr ⟨?_, hmarks⟩, ?_, ?_⟩
  · rw [hcoord, Coord.goto_pc_self, hnew]
  · rw [hcoord]
    exact hrun
  · rw [hcoord]
    exact hcurrent

/-- **Step lemma, coordinator.** The step of a thread beside the work, but for the one that notes
    the running connection. -/
theorem Cluster.Aside.proceed (h : s.Aside op c) (inv : MemberInv s) {a : Action}
    (hconn : a.conn = c) (ha : ∀ c m, a ≠ .receive c m)
    (hrecoverable : s.Recoverable (.coord a))
    (hfinished : s.coord.finished = false) (hrun : s.coord.runningConn ≠ some c)
    (hmarks : (s.coord.pc c).marks = none ∨ ∀ ch, a ≠ .proceed c ch) :
    Beside s (s.coordStep a).1 op c := by
  have hidle (hsame : s.coord.step a = (s.coord, [])) : Beside s (s.coordStep a).1 op c := by
    rw [Cluster.coordStep_idle hsame]
    exact h.refl
  have hgoto (new : Pc) (hstep : s.coord.step a = (s.coord.goto c new, [])) (haside : new.Aside op)
      (hnew : new.marks = none) (hmarks : (s.coord.pc c).marks = none) (hhand : new.atHand = [])
      (hattending : s.worker c ≠ none → (s.coord.pc c).Attending → new.Attending) :
      Beside s (s.coordStep a).1 op c :=
    (h.apart inv hconn hstep haside hhand hattending (fun _ _ => rfl) (fun _ hm => by cases hm)
      (fun _ hp => Or.inl hp) (Or.inl rfl) rfl).beside hstep hnew hmarks rfl rfl
  have hstarted (hpc : s.coord.pc c ≠ .unborn ∧ s.coord.pc c ≠ .reading) :=
    Coord.step_of_started (s := s.coord) (a := a) (hconn ▸ hpc)
  cases hpc : s.coord.pc c with
  | unborn =>
    cases a with
    | accept c' =>
      obtain rfl : c' = c := hconn
      exact hgoto .reading (by simp [Coord.step, hpc]) trivial rfl (by rw [hpc]; rfl) rfl
        (fun _ _ => trivial)
    | disconnect c' | proceed c' ch =>
      obtain rfl : c' = c := hconn
      exact hidle (by simp [Coord.step, Coord.advance, Pc.needsLock, hpc])
    | receive c' m => exact absurd rfl (ha c' m)
  | reading =>
    cases a with
    | disconnect c' =>
      obtain rfl : c' = c := hconn
      -- the end of a worker's connection is not seen yet
      refine hgoto .lostLock (by simp [Coord.step, hpc]) trivial rfl (by rw [hpc]; rfl) rfl
        (fun hw _ => ?_)
      obtain ⟨w, hw⟩ := Option.ne_none_iff_exists'.mp hw
      rcases (hrecoverable.2 w hw).2 with hsaved | hrunning
      · rw [hfinished] at hsaved
        cases hsaved
      · exact absurd hrunning hrun
    | accept c' | proceed c' ch =>
      obtain rfl : c' = c := hconn
      exact hidle (by simp [Coord.step, Coord.advance, Pc.needsLock, hpc])
    | receive c' m => exact absurd rfl (ha c' m)
  | handle m =>
    rcases hstarted (by simp [hpc]) with hsame | ⟨ch, -, hstep⟩
    · exact hidle hsame
    · rw [hconn] at hstep
      have hhand : m ∈ s.incoming c := by simp [Cluster.incoming, hpc, Pc.atHand]
      have htype := h.messages m hhand
      obtain ⟨w, hw, hname⟩ := inv.registers c m hhand htype
      have hregister : s.coord.step a = s.coord.handleMessage c m ch := by
        rw [hstep, Coord.advance, hpc]
      rw [Coord.handleMessage_register ch htype (hname ▸ inv.named _ w hw)] at hregister
      refine (h.apart inv hconn hregister trivial rfl (fun _ _ => trivial)
        (fun c' hc => by simp [sentTo, Ne.symm hc]) (fun m' hm' => ?_)
        (fun p hp => (Coord.mem_setWorker hp).imp_right fun hnew => ⟨by rw [hnew], trivial⟩)
        (Or.inl rfl) rfl).beside hregister rfl (by rw [hpc]; rfl) rfl rfl
      simp only [sentTo, List.filterMap_cons, if_true, List.filterMap_nil,
        List.mem_singleton] at hm'
      rw [hm']
      simp
  | dispatchRun op' auth =>
    have haside := h.pc
    rw [hpc] at haside
    obtain rfl : op' = op := haside
    rcases hstarted (by simp [hpc]) with hsame | ⟨ch, -, hstep⟩
    · exact hidle hsame
    · rw [hconn, Coord.advance, hpc] at hstep
      have hrun : (s.coord.call (.run op' auth)).1.store.ops.find op' =
          (s.coord.store.ops.find op').map fun r => (r.run auth).1 :=
        (OperationRegistry.find_withRuntime ..).trans (if_pos rfl)
      exact (h.apart inv hconn hstep trivial rfl (fun _ _ => trivial) (fun _ _ => rfl)
        (fun _ hm => by cases hm) (fun _ hp => Or.inl hp) (Or.inr ⟨auth, hrun⟩) rfl).beside hstep
        rfl (by rw [hpc]; rfl) rfl rfl
  | lostLock =>
    rcases hstarted (by simp [hpc]) with hsame | ⟨ch, -, hstep⟩
    · exact hidle hsame
    · rw [hconn, Coord.advance, hpc] at hstep
      dsimp only at hstep
      rw [Coord.lostLock, if_neg hrun] at hstep
      refine hgoto .ended hstep trivial rfl (by rw [hpc]; rfl) rfl (fun _ hbefore => ?_)
      rw [hpc] at hbefore
      exact absurd hbefore id
  | ended =>
    rcases hstarted (by simp [hpc]) with hsame | ⟨ch, -, hstep⟩
    · exact hidle hsame
    · rw [hconn, Coord.advance, hpc] at hstep
      exact hidle hstep
  | dispatchMark | lostMark =>
    rcases hstarted (by simp [hpc]) with hsame | ⟨ch, ha', -⟩
    · exact hidle hsame
    · rcases hmarks with hmarks | hmarks
      · rw [hpc] at hmarks
        cases hmarks
      · exact absurd (hconn ▸ ha') (hmarks ch)
  | dispatchLock | dispatchSend | completeConfirm | completeAck | completeFence | completeSave
  | saving | lostCheck | lostTransfer | lostBuild | lostReport | lostChoose | lostVerify
  | lostSend =>
    have haside := h.pc
    rw [hpc] at haside
    exact absurd haside id

/-- The thread notes the running connection, or waits for the lock. -/
theorem Cluster.Aside.noted (h : s.Aside op c) (inv : MemberInv s) (ch : Choice) {t : ConnId}
    (hmarks : (s.coord.pc c).marks = some t)
    (hcurrent : s.coord.pc c = .lostMark t → s.coord.currentOp = op) :
    (s.coordStep (.proceed c ch)).1 = s ∨ Apart s (s.coordStep (.proceed c ch)).1 op c ∧
      ((s.coordStep (.proceed c ch)).1.coord.pc c).marks = none ∧
      (s.coordStep (.proceed c ch)).1.coord.runningConn = some t ∧
      (s.coordStep (.proceed c ch)).1.coord.currentOp = op := by
  have hstarted (hpc : s.coord.pc c ≠ .unborn ∧ s.coord.pc c ≠ .reading) :=
    Coord.step_of_started (s := s.coord) (a := .proceed c ch) hpc
  have hmark (new : Pc)
      (hstep : s.coord.step (.proceed c ch) = ((s.coord.mark t op).goto c new, []))
      (haside : new.Aside op) (hhand : new.atHand = []) (hnomark : new.marks = none)
      (hbefore : ¬ (s.coord.pc c).Attending) :
      Apart s (s.coordStep (.proceed c ch)).1 op c ∧
        ((s.coordStep (.proceed c ch)).1.coord.pc c).marks = none ∧
        (s.coordStep (.proceed c ch)).1.coord.runningConn = some t ∧
        (s.coordStep (.proceed c ch)).1.coord.currentOp = op := by
    have hcoord : (s.coordStep (.proceed c ch)).1.coord = (s.coord.mark t op).goto c new :=
      congrArg Prod.fst hstep
    refine ⟨h.apart inv rfl hstep haside hhand (fun _ hattending => absurd hattending hbefore)
      (fun _ _ => rfl) (fun _ hm => by cases hm) (fun _ hp => Or.inl hp) (Or.inl rfl) rfl, ?_, ?_,
      ?_⟩
    · rw [hcoord, Coord.goto_pc_self, hnomark]
    all_goals rw [hcoord]; rfl
  cases hpc : s.coord.pc c with
  | dispatchMark op' auth t' =>
    have haside := h.pc
    rw [hpc] at hmarks haside
    obtain rfl : t' = t := Option.some.inj hmarks
    obtain rfl : op' = op := haside
    rcases hstarted (by simp [hpc]) with hsame | ⟨ch', ha, hstep⟩
    · exact Or.inl (Cluster.coordStep_idle hsame)
    · rw [Coord.advance, show s.coord.pc (Action.proceed c ch).conn = _ from hpc] at hstep
      exact Or.inr (hmark _ hstep rfl rfl rfl (by rw [hpc]; exact id))
  | lostMark t' =>
    rw [hpc] at hmarks
    obtain rfl : t' = t := Option.some.inj hmarks
    rcases hstarted (by simp [hpc]) with hsame | ⟨ch', ha, hstep⟩
    · exact Or.inl (Cluster.coordStep_idle hsame)
    · rw [Coord.advance, show s.coord.pc (Action.proceed c ch).conn = _ from hpc] at hstep
      dsimp only at hstep
      rw [hcurrent hpc] at hstep
      exact Or.inr (hmark _ hstep trivial rfl rfl (by rw [hpc]; exact id))
  | unborn | reading | handle | dispatchLock | dispatchSend | dispatchRun | completeConfirm
  | completeAck | completeFence | completeSave | saving | lostLock | lostCheck | lostTransfer
  | lostBuild | lostReport | lostChoose | lostVerify | lostSend | ended =>
    rw [hpc] at hmarks
    cases hmarks

/-- The thread has received the next message, and nothing else has changed. -/
structure Receives (s s' : Cluster) (c : ConnId) (m : WireMessage) : Prop extends
    Elsewhere s s' c where
  coord : s'.coord = s.coord.goto c (.handle m)
  worker : s'.worker = s.worker
  toPeer : ∀ c', s'.toPeer c' = s.toPeer c'
  incoming : ∀ c', s'.incoming c' = s.incoming c'

theorem Cluster.received_receives {m : WireMessage} {rest : List WireMessage}
    (hpc : s.coord.pc c = .reading) (hqueue : s.toCoord c = m :: rest) :
    Receives s (Cluster.coordStep { s with toCoord := Function.update s.toCoord c rest }
      (.receive c m)).1 c m := by
  have hstep : s.coord.step (.receive c m) = (s.coord.goto c (.handle m), [.received c m]) := by
    simp [Coord.step, hpc]
  have hcoord : (Cluster.coordStep { s with toCoord := Function.update s.toCoord c rest }
      (.receive c m)).1.coord = s.coord.goto c (.handle m) := congrArg Prod.fst hstep
  have hpeer : ∀ c', (Cluster.coordStep { s with toCoord := Function.update s.toCoord c rest }
      (.receive c m)).1.toPeer c' = s.toPeer c' := by
    intro c'
    rw [Cluster.coordStep_toPeer, hstep]
    exact List.append_nil _
  refine ⟨⟨fun c' hc => ⟨⟨?_, rfl, Function.update_of_ne hc ..⟩, hpeer c'⟩, fun p hp => Or.inl ?_⟩,
    hcoord, rfl, hpeer, Cluster.received_incoming hpc hqueue⟩
  · rw [hcoord, Coord.goto_pc_of_ne _ _ hc]
  · rwa [hcoord] at hp

/-- A thread beside the work receives the next message. -/
theorem Cluster.Aside.received (h : s.Aside op c) {m : WireMessage}
    (hreceives : Receives s s' c m) (hpc : s.coord.pc c = .reading) : Beside s s' op c := by
  have hnew : s'.coord.pc c = .handle m := by rw [hreceives.coord, Coord.goto_pc_self]
  refine ⟨⟨hreceives.toElsewhere, ⟨?_, fun m' hm => ?_, ?_, ?_, fun p _ _ => ?_⟩, fun _ _ => ?_,
    ?_, Or.inl ?_, ?_⟩, ?_, ?_, ?_⟩
  · rw [hnew]
    trivial
  · rw [hreceives.incoming] at hm
    exact h.messages m' hm
  · rw [hreceives.worker]
    exact h.worker
  · unfold Cluster.Gone
    rw [hreceives.toPeer, hreceives.worker]
    exact h.undelivered
  · rw [hnew]
    trivial
  · rw [hnew]
    trivial
  · rw [hreceives.worker]
    exact id
  · rw [hreceives.coord]
    rfl
  · rw [hreceives.coord]
    rfl
  · rw [hnew, hpc]
    exact Or.inr ⟨rfl, rfl⟩
  all_goals rw [hreceives.coord]; rfl

/-- A worker that has nothing of the work at hand goes on beside the work. -/
theorem Cluster.Aside.workerStep (h : s.Aside op c) {w : Worker} {queue : List WireMessage}
    {evs : List WorkerEvent} (htask : w.pc.task = none)
    (hposted : ∀ m ∈ evs.filterMap WorkerEvent.posted, m.type = .REGISTER)
    (hundelivered : (∀ m ∈ queue, m.type ≠ .DISPATCH) ∨ w.pc = .exited) :
    Beside s (Cluster.workerStep { s with toPeer := Function.update s.toPeer c queue } c w evs).1
      op c := by
  generalize hs' : (Cluster.workerStep { s with toPeer := Function.update s.toPeer c queue } c w
    evs).1 = s'
  have hcoord : s'.coord = s.coord := by rw [← hs']; rfl
  have hworker : s'.worker c = some w := by rw [← hs']; exact Cluster.workerStep_worker
  have hpeer : s'.toPeer c = queue := by rw [← hs']; exact Function.update_self ..
  have hqueue : s'.toCoord c = s.toCoord c ++ evs.filterMap WorkerEvent.posted := by
    rw [← hs']
    exact Cluster.workerStep_toCoord
  refine ⟨⟨⟨fun c' hc => ?_, fun p hp => Or.inl ?_⟩, ⟨?_, fun m hm => ?_, fun w' hw' => ?_, ?_,
    fun p hp hconn => ?_⟩, fun _ hbefore => ?_, fun _ => ?_, Or.inl ?_, ?_⟩, ?_, ?_, ?_⟩
  · rw [← hs']
    exact ⟨⟨rfl, Cluster.workerStep_worker_of_ne hc, Cluster.workerStep_toCoord_of_ne hc⟩,
      Function.update_of_ne hc ..⟩
  · rwa [hcoord] at hp
  · rw [hcoord]
    exact h.pc
  · unfold Cluster.incoming at hm
    rw [hcoord, hqueue, ← List.append_assoc] at hm
    exact (List.mem_append.mp hm).elim (h.messages m) (hposted m)
  · rw [hworker] at hw'
    obtain rfl := Option.some.inj hw'
    exact htask
  · rw [hpeer]
    exact hundelivered.imp_right fun hexited => ⟨w, hworker, hexited⟩
  · rw [hcoord] at hp ⊢
    exact h.listed p hp hconn
  · rwa [hcoord]
  · rw [hworker]
    exact Option.some_ne_none w
  · rw [hcoord]
  · rw [hcoord]
  · exact Or.inl (by rw [hcoord])
  all_goals rw [hcoord]

/-- A worker without work registers, or has exited. -/
theorem Worker.Moves.aside {w : Worker} {pc : WorkerPc} {evs : List WorkerEvent}
    (h : w.Moves pc none evs) (htask : w.pc.task = none) :
    pc.task = none ∧ (∀ m ∈ evs.filterMap WorkerEvent.posted, m.type = .REGISTER) ∧
      (w.pc = .exited → pc = .exited) := by
  cases h with
  | stay => exact ⟨htask, fun _ hm => (by cases hm), id⟩
  | giveUp => exact ⟨rfl, fun _ hm => (by cases hm), fun _ => rfl⟩
  | registered hpc =>
    refine ⟨rfl, fun m hm => ?_, fun hexited => ?_⟩
    · obtain rfl := List.mem_singleton.mp hm
      rfl
    · rw [hpc] at hexited
      cases hexited
  | started m hpc | worked m pc ok hpc | failed m text hpc | completed m text hpc =>
    rw [hpc] at htask
    cases htask

/-- **Step lemma.** A step on a connection beside the work is beside the work, but for the one that
    notes the running connection. -/
theorem Cluster.Aside.step (h : s.Aside op c) (inv : MemberInv s) {a : ClusterAction}
    (hconn : a.conn = c) (hrecoverable : s.Recoverable a) (hfinished : s.coord.finished = false)
    (hrun : s.coord.runningConn ≠ some c)
    (hmarks : (s.coord.pc c).marks = none ∨ ∀ ch, a ≠ .coord (.proceed c ch)) :
    Beside s (s.step a).1 op c := by
  have hmoves := s.step_moves a
  generalize (s.step a).1 = s', (s.step a).2 = evs at hmoves ⊢
  cases hmoves with
  | idle => exact h.refl
  | received c' m rest hpc hqueue =>
    obtain rfl : c' = c := hconn
    exact h.received (s.received_receives hpc hqueue) hpc
  | coord a ha =>
    refine h.proceed inv hconn ha hrecoverable hfinished hrun
      (hmarks.imp_right fun hnot ch heq => hnot ch ?_)
    rw [heq]
  | start c' workdir mode wid boot hfresh =>
    obtain rfl : c' = c := hconn
    obtain ⟨-, hnone, -⟩ := Cluster.of_isFresh hfresh
    have hnot : ¬ s.Gone c' := by
      rintro ⟨w, hw, -⟩
      rw [hnone] at hw
      cases hw
    have hstep : Beside s (Cluster.workerStep
        { s with toPeer := Function.update s.toPeer c' (s.toPeer c') } c'
        { workdir, mode, wid, boot } []).1 op c' :=
      h.workerStep rfl (fun _ hm => by cases hm) (Or.inl (h.undelivered.resolve_right hnot))
    rwa [Function.update_eq_self] at hstep
  | own a c' w pc evs hw hmove hc' =>
    obtain rfl : c' = c := hc'.symm.trans hconn
    obtain ⟨htask, hposted, hexited⟩ := hmove.aside (h.worker w hw)
    have hgone : s.Gone c' → pc = .exited := by
      rintro ⟨w', hw', hpc'⟩
      rw [hw] at hw'
      obtain rfl := Option.some.inj hw'
      exact hexited hpc'
    have hstep : Beside s (Cluster.workerStep
        { s with toPeer := Function.update s.toPeer c' (s.toPeer c') } c'
        { w with pc } evs).1 op c' :=
      h.workerStep htask hposted (h.undelivered.imp_right hgone)
    rwa [Function.update_eq_self] at hstep
  | deliver c' w pc m rest hw hqueue hmove =>
    obtain rfl : c' = c := hconn
    have hwaits : ¬ s.Gone c' := by
      rintro ⟨w', hw', hgone⟩
      rw [hw] at hw'
      obtain rfl := Option.some.inj hw'
      cases hmove with
      | acknowledged _ hpc | refused _ hpc | dispatched _ hpc | shutDown _ hpc | ignored _ hpc =>
        rw [hpc] at hgone
        cases hgone
    have hnone := h.undelivered.resolve_right hwaits
    rw [hqueue] at hnone
    refine h.workerStep ?_ (fun _ hm => by cases hm)
      (Or.inl fun m' hm' => hnone m' (List.mem_cons_of_mem _ hm'))
    cases hmove with
    | dispatched _ hpc hm => exact absurd hm (hnone m List.mem_cons_self)
    | acknowledged | refused | shutDown | ignored => rfl
  | client => exact absurd hrecoverable id

end Beside

end FailureFabric
