import FailureFabric.Completed
import FailureFabric.Library.Ledger

namespace FailureFabric

open Library

/-!
# How often side effects happen

The coordinator cannot undo a side effect, so what counts is how many there can be.  A worker goes
through one in its life.  A request leads to one message with work at most, and so does a recovery;
a message leads to one side effect at most.  So for any set of operations there are no more side
effects than requests and recoveries, in every run of the cluster.

* `effectOn`, `workOn`, `requestOn`, `recovery` — the events that are counted;
* `Pc.owes`, `Worker.owes` — the message that a thread will still send, and the side effect that a
  worker will still go through;
* `SendInv`, `EffectInv` — the books of the coordinator, and of each connection;
* `EffectsBounded`, `effects_bounded` — the result.
-/

section Counts

variable (p : OperationId → Bool)

/-- The message asks for an operation of the set: as a request, or as work. -/
def WireMessage.isWork (m : WireMessage) : Bool := m.type = .DISPATCH && p m.op

/-- The connection of a side effect for an operation of the set. -/
def effectOn : ClusterEvent → Option ConnId
  | .worker c (.effect m _ _ _) => if p m.op then some c else none
  | _ => none

/-- The connection that work for an operation of the set is sent on. -/
def workOn : ClusterEvent → Option ConnId
  | .coord (.sent c m) => if m.isWork p then some c else none
  | _ => none

/-- The connection that a request for an operation of the set is received on. -/
def requestOn : ClusterEvent → Option ConnId
  | .coord (.received c m) => if m.isWork p then some c else none
  | _ => none

/-- The ownership of an operation is transferred: a recovery begins. -/
def recovery : ClusterEvent → Option Generation
  | .coord (.transferred gen _) => some gen
  | _ => none

/-- The messages with work for the set that a thread will still send. -/
def Pc.owes : Pc → Nat
  | handle m => if m.isWork p then 1 else 0
  | dispatchLock op _ | dispatchSend op _ _ => if p op then 1 else 0
  -- a recovery is about the operation that is current when it sends
  | lostBuild _ | lostReport .. | lostChoose _ | lostVerify .. | lostSend .. => 1
  | _ => 0

/-- The side effects for the set that a worker will still go through, with what it has at hand. -/
def WorkerPc.owes : WorkerPc → Nat
  | starting m | working m => if p m.op then 1 else 0
  | _ => 0

/-- No request and no recovery is spent twice: the messages with work, for any set of operations. -/
def SendInv (s : Coord) (t : List ClusterEvent) : Prop :=
  Covered (fun c => (s.pc c).owes p) (tally (workOn p) t)
    (tally (requestOn p) t + tally recovery t)

variable {p} {s s' : Coord} {c : ConnId} {a : Action} {evs : List Event}

/-- A step sends no more work than its thread owes, or is asked for in the step. -/
theorem Coord.Moves.owes_le (h : s.Moves c a s' evs)
    (hasked : ∀ op auth, s'.pc c = .dispatchLock op auth → s.pc c = .dispatchLock op auth ∨
      ∃ m, s.pc c = .handle m ∧ m.type = .DISPATCH ∧ m.op = op) :
    (s'.pc c).owes p + tally (workOn p) (evs.map .coord) ≤
      (s.pc c).owes p +
        (tally (requestOn p) (evs.map .coord) + tally recovery (evs.map .coord)) := by
  cases h with
  | idle => simp
  | localStep a new evs hlocal =>
    rw [goto_pc_self] at hasked ⊢
    generalize s.pc c = pc at hlocal hasked
    cases hlocal with
    | asked m drawn =>
      rcases hasked _ _ rfl with hpc | ⟨m', hpc, htype, hop⟩
      · cases hpc
      · obtain rfl := Pc.handle.inj hpc
        simp [Pc.owes, WireMessage.isWork, htype]
    | receive m => cases hm : m.isWork p <;> simp [Pc.owes, workOn, requestOn, hm]
    | sentDispatch op auth target =>
      cases hop : p op <;>
        simp [Pc.owes, workOn, requestOn, Coord.dispatchMessage, WireMessage.isWork, hop]
    | sentAgain fresh r =>
      cases hop : p s.currentOp <;>
        simp [Pc.owes, workOn, requestOn, Coord.dispatchMessage, WireMessage.isWork, hop]
    | accept | disconnect | ignored | noWorkers | sentAck | sentFence | notRunning | allDone
    | recover | built | noReplacement | gaveUp | verified =>
      simp [Pc.owes, workOn, WireMessage.isWork]
  | callStep ch rc new hcall =>
    rw [goto_pc_self]
    generalize s.pc c = pc at hcall
    generalize (s.call rc).2 = res at hcall
    cases hcall <;> simp [Pc.owes, workOn]
  | dispatchLock ch op auth wid target rest hold => simp [hold, Pc.owes, workOn]
  | transferred a ch hold => simp [lostTransfer, hold, Pc.owes, workOn, recovery]
  | recorded a ch cur b hold => simp [lostReport, hold, Pc.owes, workOn]
  | register | marked | markedAgain | lost | saveStart | saveItem | saveEnd =>
    simp [Pc.owes, workOn, WireMessage.isWork]

/-- **Step lemma, coordinator.** The books of the coordinator stay covered. -/
theorem SendInv.step {t : List ClusterEvent} (inv : SendInv p s t) (a : Action) :
    SendInv p (s.step a).1 (t ++ (s.step a).2.map .coord) := by
  have hmoves := s.step_moves a
  have hother : ∀ c, c ≠ a.conn → ((s.step a).1.pc c).owes p = (s.pc c).owes p :=
    fun c hc => by rw [hmoves.pc_of_ne hc]
  have hsteps := Covered.step inv a.conn hother
    (hmoves.owes_le fun op auth hpc => (Coord.asked_drawn hpc).imp id
      fun ⟨_, m, _, _, hm⟩ => ⟨m, hm⟩)
  unfold SendInv
  rw [tally_append, tally_append, tally_append, Nat.add_add_add_comm]
  exact hsteps

/-! ### What a worker does with what it is sent -/

/-- The side effects that a worker has gone through at most. -/
def WorkerPc.past : WorkerPc → Nat
  | failing _ | completing _ | exited => 1
  | _ => 0

/-- The books of a connection: what was sent on it as work covers the side effects of its worker,
    the one that it is about to go through, and what is on its way. -/
structure EffectInv (p : OperationId → Bool) (s : Cluster) (t : List ClusterEvent) : Prop where
  paid : ∀ c, (t.filterMap (effectOn p)).count c + (s.worker c).elim 0 (·.pc.owes p) +
    (s.toPeer c).countP (·.isWork p) ≤ (t.filterMap (workOn p)).count c
  past : ∀ c, (t.filterMap (effectOn p)).count c ≤ (s.worker c).elim 0 (·.pc.past)

variable {w : Worker} {pc : WorkerPc} {o : Option WireMessage} {wevs : List WorkerEvent}

/-- A worker goes through a side effect only for work at hand, and has work at hand only by
    receiving it. -/
theorem Worker.Moves.owes_le (h : w.Moves pc o wevs) :
    pc.owes p + tally (effectOn p) (wevs.map (.worker c)) ≤
      w.pc.owes p + o.elim 0 (fun m => if m.isWork p then 1 else 0) := by
  cases h with
  | worked m pc ok hpc hnext =>
    rcases hnext with rfl | rfl <;> by_cases hop : p m.op = true <;>
      simp [hpc, WorkerPc.owes, effectOn, hop]
  | started m hpc => simp [hpc, WorkerPc.owes, effectOn]
  | dispatched m hpc htype => simp [WorkerPc.owes, WireMessage.isWork, htype]
  | stay => simp
  | giveUp | registered | failed | completed | acknowledged | refused | shutDown | ignored =>
    simp [WorkerPc.owes, effectOn]

/-- A worker that goes through a side effect has gone through none before, and is past it then. -/
theorem Worker.Moves.past_le (h : w.Moves pc o wevs) :
    w.pc.past + tally (effectOn p) (wevs.map (.worker c)) ≤ pc.past := by
  cases h with
  | worked m pc ok hpc hnext =>
    rcases hnext with rfl | rfl <;> by_cases hop : p m.op = true <;>
      simp [hpc, WorkerPc.past, effectOn, hop]
  | stay => simp
  | giveUp => cases w.pc <;> simp [WorkerPc.past]
  | registered hpc | started m hpc | failed m text hpc | completed m text hpc
  | acknowledged m hpc | refused m hpc | shutDown m hpc | ignored m hpc | dispatched m hpc =>
    simp [hpc, WorkerPc.past, effectOn]

/-! ### The books of a connection -/

/-- What the coordinator sends on a connection as work goes to its queue. -/
theorem count_workOn (evs : List Event) (c : ConnId) :
    ((evs.map ClusterEvent.coord).filterMap (workOn p)).count c =
      (sentTo c evs).countP (·.isWork p) := by
  induction evs with
  | nil => rfl
  | cons ev evs ih =>
    cases ev with
    | sent c' m =>
      have hsent : sentTo c (.sent c' m :: evs) = (if c' = c then [m] else []) ++ sentTo c evs := by
        split_ifs with hc <;> simp [sentTo, hc]
      have hwork : ((Event.sent c' m :: evs).map ClusterEvent.coord).filterMap (workOn p) =
          (if m.isWork p then [c'] else []) ++
            (evs.map ClusterEvent.coord).filterMap (workOn p) := by
        cases hm : m.isWork p <;> simp [workOn, hm]
      rw [hsent, hwork, List.count_append, List.countP_append, ih]
      cases hm : m.isWork p <;> by_cases hc : c' = c <;> simp [hm, hc]
    | received | applied | transferred | appended => exact ih

/-- The coordinator goes through no side effect. -/
theorem filterMap_effectOn_coord (evs : List Event) :
    (evs.map ClusterEvent.coord).filterMap (effectOn p) = [] := by
  rw [List.filterMap_map]
  exact List.filterMap_eq_nil_iff.mpr fun _ _ => rfl

/-- A worker sends no work. -/
theorem filterMap_workOn_worker (wevs : List WorkerEvent) :
    (wevs.map (ClusterEvent.worker c)).filterMap (workOn p) = [] := by
  rw [List.filterMap_map]
  exact List.filterMap_eq_nil_iff.mpr fun _ _ => rfl

/-- The side effects of a worker are on its connection. -/
theorem count_effectOn_worker (wevs : List WorkerEvent) (c c' : ConnId) :
    ((wevs.map (ClusterEvent.worker c)).filterMap (effectOn p)).count c' =
      if c' = c then tally (effectOn p) (wevs.map (.worker c)) else 0 := by
  refine count_filterMap (fun x hx => ?_) c'
  obtain ⟨ev, -, rfl⟩ := List.mem_map.mp hx
  cases ev with
  | sent => exact Or.inl rfl
  | effect m path line opened =>
    dsimp only [effectOn]
    split_ifs
    · exact Or.inr rfl
    · exact Or.inl rfl

section Books

variable {k k' : Cluster} {t : List ClusterEvent}

/-- **Step lemma, coordinator.** Every message with work that it sends is paid in. -/
theorem EffectInv.coordStep (inv : EffectInv p k t) (a : Action) :
    EffectInv p (k.coordStep a).1 (t ++ (k.coordStep a).2) := by
  constructor <;> intro c <;>
    simp only [Cluster.coordStep, List.filterMap_append, List.count_append, List.countP_append,
      filterMap_effectOn_coord, List.count_nil, count_workOn]
  · have hpaid := inv.paid c
    omega
  · exact inv.past c

/-- **Step lemma, worker.** A worker that takes what it receives from its queue keeps the books. -/
theorem EffectInv.workerStep (inv : EffectInv p k t) (hw : k.worker c = some w)
    (h : w.Moves pc o wevs) (hworker : k'.worker = k.worker)
    (hqueue : ∀ j, (k'.toPeer j).countP (·.isWork p) +
      (if j = c then o.elim 0 (fun m => if m.isWork p then 1 else 0) else 0) ≤
        (k.toPeer j).countP (·.isWork p)) :
    EffectInv p (k'.workerStep c { w with pc } wevs).1
      (t ++ (k'.workerStep c { w with pc } wevs).2) := by
  have howes := h.owes_le (p := p) (c := c)
  have hpast := h.past_le (p := p) (c := c)
  constructor <;> intro j <;>
    simp only [Cluster.workerStep, List.filterMap_append, List.count_append,
      filterMap_workOn_worker, List.count_nil, count_effectOn_worker]
  · have hpaid := inv.paid j
    have hq := hqueue j
    by_cases hj : j = c
    · subst hj
      rw [hw] at hpaid
      simp only [Function.update_self, Option.elim_some, if_true] at hpaid hq ⊢
      omega
    · rw [Function.update_of_ne hj, hworker, if_neg hj]
      rw [if_neg hj] at hq
      omega
  · have hold := inv.past j
    by_cases hj : j = c
    · subst hj
      rw [hw] at hold
      simp only [Function.update_self, Option.elim_some, if_true] at hold ⊢
      omega
    · rw [Function.update_of_ne hj, hworker, if_neg hj]
      omega

/-- **Step lemma.** Every step of the cluster keeps the books of the connections. -/
theorem EffectInv.step (inv : EffectInv p k t) (a : ClusterAction) :
    EffectInv p (k.step a).1 (t ++ (k.step a).2) := by
  have hmoves := k.step_moves a
  generalize (k.step a).1 = k', (k.step a).2 = evs at hmoves ⊢
  cases hmoves with
  | idle =>
    rw [List.append_nil]
    exact inv
  | received c m rest =>
    have hpopped : EffectInv p { k with toCoord := Function.update k.toCoord c rest } t :=
      ⟨inv.paid, inv.past⟩
    exact hpopped.coordStep _
  | coord a => exact inv.coordStep a
  | start c workdir mode wid boot hfresh =>
    rw [List.append_nil]
    obtain ⟨-, hnone, -⟩ := Cluster.of_isFresh hfresh
    have hsame : ∀ (f : Worker → Nat), f { workdir, mode, wid, boot } = 0 → ∀ j,
        ((k.workerStep c { workdir, mode, wid, boot } []).1.worker j).elim 0 f =
          (k.worker j).elim 0 f := by
      intro f hf j
      by_cases hj : j = c
      · rw [hj, Cluster.workerStep_worker, hnone]
        exact hf
      · rw [Cluster.workerStep_worker_of_ne hj]
    exact ⟨fun j => by rw [hsame _ rfl]; exact inv.paid j,
      fun j => by rw [hsame _ rfl]; exact inv.past j⟩
  | own a c w pc evs hw hmove =>
    exact inv.workerStep hw hmove rfl (fun j => by simp)
  | deliver c w pc m rest hw hqueue hmove =>
    refine inv.workerStep hw hmove rfl (fun j => ?_)
    by_cases hj : j = c
    · subst hj
      simp [hqueue, List.countP_cons]
    · simp [hj]
  | client c m hw =>
    rw [List.append_nil]
    exact ⟨inv.paid, inv.past⟩

end Books

end Counts

/-- No worker goes through more than one side effect, and for any set of operations there are no
    more side effects than requests and recoveries. -/
structure EffectsBounded (t : List ClusterEvent) : Prop where
  once : ∀ c, (t.filterMap (effectOn fun _ => true)).count c ≤ 1
  bounded : ∀ p, tally (effectOn p) t ≤ tally (requestOn p) t + tally recovery t

theorem sendInv_boot (p : OperationId → Bool) (file : Option (List UInt8)) :
    SendInv p (.boot file) [] :=
  covered_zero

theorem effectInv_boot (p : OperationId → Bool) (file : Option (List UInt8)) :
    EffectInv p (.boot file) [] :=
  ⟨fun _ => Nat.le_refl _, fun _ => Nat.le_refl _⟩

/-- **Step lemma.** Every step of the cluster keeps the books of the coordinator: the workers' steps
    are not in them. -/
theorem SendInv.clusterStep {p : OperationId → Bool} {k : Cluster} {t : List ClusterEvent}
    (inv : SendInv p k.coord t) (a : ClusterAction) :
    SendInv p (k.step a).1.coord (t ++ (k.step a).2) := by
  have hmoves := k.step_moves a
  generalize (k.step a).1 = k', (k.step a).2 = evs at hmoves ⊢
  cases hmoves with
  | idle | start | deliver | client =>
    rw [List.append_nil]
    exact inv
  | received c m => exact SendInv.step inv (.receive c m)
  | coord a => exact SendInv.step inv a
  | own a c w pc wevs =>
    have hnone : ∀ {κ : Type} (f : ClusterEvent → Option κ), (∀ ev, f (.worker c ev) = none) →
        tally f (k.workerStep c { w with pc } wevs).2 = 0 := by
      intro κ f hf
      refine tally_eq_zero (fun x hx => ?_)
      obtain ⟨ev, -, rfl⟩ := List.mem_map.mp hx
      exact hf ev
    unfold SendInv
    rw [tally_append, tally_append, tally_append, hnone (workOn p) fun _ => rfl,
      hnone (requestOn p) fun _ => rfl, hnone recovery fun _ => rfl]
    exact inv

/-- **Side effects are bounded.** In every run of the cluster a worker goes through its side effect
    once at most; and for any set of operations there are at most as many side effects as requests
    for them were received and recoveries were begun. -/
theorem effects_bounded (file : Option (List UInt8)) (acts : List ClusterAction) :
    EffectsBounded ((Cluster.boot file).trace acts) := by
  have hsend := fun p => Cluster.trace_induction (s := .boot file)
    (P := fun k t => SendInv p k.coord t)
    (fun _ a _ inv => inv.clusterStep a) (sendInv_boot p file) acts
  have heffect := fun p => Cluster.trace_induction (P := EffectInv p)
    (fun _ a _ inv => inv.step a) (effectInv_boot p file) acts
  constructor
  · intro c
    refine Nat.le_trans ((heffect _).past c) ?_
    cases (cluster.run (.boot file) acts).worker c with
    | none => exact Nat.zero_le 1
    | some w => cases hpc : w.pc <;> simp [WorkerPc.past, hpc]
  · intro p
    refine Nat.le_trans (tally_le fun c => ?_) (hsend p).spent_le
    have hpaid := (heffect p).paid c
    omega

end FailureFabric
