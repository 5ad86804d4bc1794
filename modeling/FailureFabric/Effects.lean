import FailureFabric.Acknowledge
import FailureFabric.Cluster

namespace FailureFabric

open Library

/-!
# Side effects and reports

What a worker reports, and what the coordinator makes of it, goes back to work that was really
done, in every run of the cluster: over any number of workers and clients, any order of steps, and
any deaths of workers and ends of connections.

* `Assigned`, `Executed` — the coordinator has sent the work to a worker, and the worker has gone
  through its side effect;
* `Genuine` — what a report on a piece of work rests on;
* `WorkInv` — what is on its way, and where the processes stand, rests on the events so far;
* `step_justified` — every event of a run is justified by the events before it.
-/

/-- All events of a run, in order. -/
def Cluster.trace (s : Cluster) (acts : List ClusterAction) : List ClusterEvent :=
  (cluster.outputs s acts).flatten

/-- **Invariant rule.** What holds at the start, and what every step keeps as a property of the
    cluster and of the events so far, holds in every run. -/
theorem Cluster.trace_induction {P : Cluster → List ClusterEvent → Prop}
    (hstep : ∀ s a t, P s t → P (s.step a).1 (t ++ (s.step a).2)) {s : Cluster} (hs : P s [])
    (acts : List ClusterAction) : P (cluster.run s acts) (s.trace acts) :=
  Machine.trace_induction (M := cluster) (C := fun _ _ => True) (fun s a t _ h => hstep s a t h) hs
    (Machine.always_iff.mpr fun _ _ _ _ => trivial)

/-- The message at hand, from its arrival to the report. -/
def WorkerPc.task : WorkerPc → Option WireMessage
  | starting m | working m | failing m | completing m => some m
  | _ => none

/-- The message at hand, when the side effect is over. -/
def WorkerPc.done : WorkerPc → Option WireMessage
  | failing m | completing m => some m
  | _ => none

/-- The coordinator has sent the message as work on the connection. -/
structure Assigned (t : List ClusterEvent) (c : ConnId) (m : WireMessage) : Prop where
  sent : .coord (.sent c m) ∈ t
  type : m.type = .DISPATCH

/-- The worker on the connection has gone through the side effect for the message, as work. -/
structure Executed (t : List ClusterEvent) (c : ConnId) (m : WireMessage) : Prop where
  assigned : Assigned t c m
  effect : ∃ path line opened, .worker c (.effect m path line opened) ∈ t

/-- The work names the operation, and is under the authority. -/
structure WireMessage.IsFor (m : WireMessage) (op : OperationId) (e : AuthorityEnvelope) :
    Prop where
  op : m.op = op
  authority : m.authority = e

/-- A message of a worker says what is so: `RUNNING` is about work that it was given, and a report
    of the end about work whose side effect it has gone through. -/
structure Genuine (t : List ClusterEvent) (c : ConnId) (m : WireMessage) : Prop where
  running : m.type = .RUNNING → ∃ d, Assigned t c d ∧ d.IsFor m.op m.authority
  ended : m.type = .COMPLETE ∨ m.type = .FAILURE → ∃ d, Executed t c d ∧ d.IsFor m.op m.authority

/-- The event rests on what has happened before. -/
def Justified (s : Cluster) (t : List ClusterEvent) : ClusterEvent → Prop
  -- a side effect, on the work that was given
  | .worker c (.effect m _ _ _) => Assigned t c m
  -- a report, on the work that was done
  | .worker c (.sent m) => Genuine t c m
  | .coord (.received c m) => s.worker c ≠ none → Genuine t c m
  -- an acknowledgement of a worker, on its side effect
  | .coord (.sent c m) => s.worker c ≠ none → m.type = .ACK → m.flag = true →
      ∃ d, Executed t c d ∧ d.op = m.op
  | .coord _ => True

section Mono

variable {t evs : List ClusterEvent} {c : ConnId} {m : WireMessage}

theorem Assigned.mono (h : Assigned t c m) : Assigned (t ++ evs) c m :=
  ⟨List.mem_append_left _ h.sent, h.type⟩

theorem Executed.mono (h : Executed t c m) : Executed (t ++ evs) c m := by
  obtain ⟨path, line, opened, heffect⟩ := h.effect
  exact ⟨h.assigned.mono, path, line, opened, List.mem_append_left _ heffect⟩

theorem Genuine.mono (h : Genuine t c m) : Genuine (t ++ evs) c m where
  running := fun hm => (h.running hm).imp fun _ hd => ⟨hd.1.mono, hd.2⟩
  ended := fun hm => (h.ended hm).imp fun _ hd => ⟨hd.1.mono, hd.2⟩

end Mono

/-- What is on its way between the processes, and what they are about to say, rests on what has
    happened. -/
structure WorkInv (s : Cluster) (t : List ClusterEvent) : Prop where
  inFlight : ∀ c, ∀ m ∈ s.toPeer c, .coord (.sent c m) ∈ t
  task : ∀ c w m, s.worker c = some w → w.pc.task = some m → Assigned t c m
  done : ∀ c w m, s.worker c = some w → w.pc.done = some m → Executed t c m
  reported : ∀ c m, s.worker c ≠ none → m ∈ s.toCoord c → Genuine t c m
  handled : ∀ c m, s.worker c ≠ none → s.coord.pc c = .handle m → Genuine t c m
  answered : ∀ c op e, s.worker c ≠ none →
    s.coord.pc c = .completeConfirm op e ∨ s.coord.pc c = .completeAck op e →
      ∃ d, Executed t c d ∧ d.IsFor op e

section Invariant

variable {s : Cluster} {t : List ClusterEvent}

theorem workInv_boot (file : Option (List UInt8)) : WorkInv (.boot file) [] where
  inFlight := fun _ _ h => by cases h
  task := fun _ _ _ h => by cases h
  done := fun _ _ _ h => by cases h
  reported := fun _ _ _ h => by cases h
  handled := fun _ _ _ h => by cases h
  answered := fun _ _ _ _ h => by rcases h with h | h <;> cases h

theorem mem_sentTo {c : ConnId} {evs : List Event} {m : WireMessage} (h : m ∈ sentTo c evs) :
    .sent c m ∈ evs := by
  obtain ⟨ev, hev, hm⟩ := List.mem_filterMap.mp h
  cases ev with
  | sent c' m' =>
    dsimp only at hm
    split_ifs at hm with hc
    obtain rfl := Option.some.inj hm
    rw [← hc]
    exact hev
  | received | applied | transferred | appended => cases hm

/-- **Step lemma, coordinator.** A step that receives only what is genuine keeps the invariant. -/
theorem WorkInv.coordStep (inv : WorkInv s t) (a : Action)
    (hreceived : ∀ c m, .received c m ∈ (s.coord.step a).2 → s.worker c ≠ none → Genuine t c m) :
    WorkInv (s.coordStep a).1 (t ++ (s.coordStep a).2) where
  inFlight := by
    intro c m hm
    rcases List.mem_append.mp hm with hold | hnew
    · exact List.mem_append_left _ (inv.inFlight c m hold)
    · exact List.mem_append_right _ (List.mem_map_of_mem (mem_sentTo hnew))
  task := fun c w m hw hm => (inv.task c w m hw hm).mono
  done := fun c w m hw hm => (inv.done c w m hw hm).mono
  reported := fun c m hw hm => (inv.reported c m hw hm).mono
  handled := by
    intro c m hw hpc
    have hmoves := s.coord.step_moves a
    by_cases hc : c = a.conn
    · subst hc
      rcases hmoves.to_handle hpc with ⟨hs', -⟩ | hevs
      · refine (inv.handled _ m hw ?_).mono
        rw [← hs']
        exact hpc
      · exact (hreceived _ m (by rw [hevs]; exact List.mem_cons_self) hw).mono
    · exact (inv.handled c m hw (by rw [← hmoves.pc_of_ne hc]; exact hpc)).mono
  answered := by
    intro c op e hw hpc
    have hmoves := s.coord.step_moves a
    have hold : ∃ d, Executed t c d ∧ d.IsFor op e := by
      by_cases hc : c = a.conn
      · subst hc
        rcases hpc with hconfirm | hack
        · rcases hmoves.to_completeConfirm hconfirm with ⟨hs', -⟩ | ⟨m, hm, htype, rfl, rfl, -⟩
          · exact inv.answered _ op e hw (Or.inl (by rw [← hs']; exact hconfirm))
          · exact (inv.handled _ m hw hm).ended (Or.inl htype)
        · rcases hmoves.to_completeAck hack with ⟨hs', -⟩ | ⟨ch, -, hconfirm, -⟩
          · exact inv.answered _ op e hw (Or.inr (by rw [← hs']; exact hack))
          · exact inv.answered _ op e hw (Or.inl hconfirm)
      · rw [show (s.coordStep a).1.coord.pc c = _ from hmoves.pc_of_ne hc] at hpc
        exact inv.answered c op e hw hpc
    exact hold.imp fun _ hd => ⟨hd.1.mono, hd.2⟩

/-- What a worker has at hand it has had at hand before, or it has just arrived as work. -/
theorem Worker.Moves.task_cases {w : Worker} {pc : WorkerPc} {o : Option WireMessage}
    {evs : List WorkerEvent} (h : w.Moves pc o evs) {m : WireMessage} (hm : pc.task = some m) :
    w.pc.task = some m ∨ o = some m ∧ m.type = .DISPATCH := by
  cases h with
  | stay => exact Or.inl hm
  | started m' hpc =>
    rw [hpc]
    exact Or.inl hm
  | worked m' pc ok hpc hnext =>
    rw [hpc]
    rcases hnext with rfl | rfl <;> exact Or.inl hm
  | dispatched m' hpc htype =>
    obtain rfl : m' = m := Option.some.inj hm
    exact Or.inr ⟨rfl, htype⟩
  | giveUp | registered | failed | completed | acknowledged | refused | shutDown | ignored =>
    cases hm

/-- A worker that is done has been so, or goes through the side effect now. -/
theorem Worker.Moves.done_cases {w : Worker} {pc : WorkerPc} {o : Option WireMessage}
    {evs : List WorkerEvent} (h : w.Moves pc o evs) {m : WireMessage} (hm : pc.done = some m) :
    w.pc.done = some m ∨
      w.pc.task = some m ∧ ∃ path line opened, .effect m path line opened ∈ evs := by
  cases h with
  | stay => exact Or.inl hm
  | worked m' pc ok hpc hnext =>
    right
    rw [hpc]
    have heq : m' = m := by rcases hnext with rfl | rfl <;> exact Option.some.inj hm
    subst heq
    exact ⟨rfl, _, _, _, List.mem_cons_self⟩
  | giveUp | registered | started | failed | completed | acknowledged | refused | dispatched
  | shutDown | ignored => cases hm

/-- What a worker sends is genuine. -/
theorem WorkInv.genuine (inv : WorkInv s t) {c : ConnId} {w : Worker} {pc : WorkerPc}
    {o : Option WireMessage} {evs : List WorkerEvent} (hw : s.worker c = some w)
    (h : w.Moves pc o evs) {m : WireMessage} (hm : .sent m ∈ evs) : Genuine t c m := by
  cases h with
  | stay | giveUp | acknowledged | refused | dispatched | shutDown | ignored => cases hm
  | worked m' pc ok hpc => simp at hm
  | registered hpc =>
    obtain rfl : m = w.registration := by simpa using hm
    exact ⟨fun h => (by cases h), fun h => (by rcases h with h | h <;> cases h)⟩
  | started m' hpc =>
    obtain rfl : m = w.report m' .RUNNING [] := by simpa using hm
    refine ⟨fun _ => ⟨m', inv.task c w m' hw (by rw [hpc]; rfl), rfl, rfl⟩, fun h => ?_⟩
    rcases h with h | h <;> cases h
  | failed m' text hpc =>
    obtain rfl : m = w.report m' .FAILURE text := by simpa using hm
    exact ⟨fun h => (by cases h), fun _ => ⟨m', inv.done c w m' hw (by rw [hpc]; rfl), rfl, rfl⟩⟩
  | completed m' text hpc =>
    obtain rfl : m = w.report m' .COMPLETE text := by simpa using hm
    exact ⟨fun h => (by cases h), fun _ => ⟨m', inv.done c w m' hw (by rw [hpc]; rfl), rfl, rfl⟩⟩

/-- **Step lemma, worker.** A worker that moves, and receives only what was sent to it, keeps the
    invariant. -/
theorem WorkInv.workerStep (inv : WorkInv s t) {c : ConnId} {w : Worker} {pc : WorkerPc}
    {o : Option WireMessage} {evs : List WorkerEvent} (hw : s.worker c = some w)
    (h : w.Moves pc o evs) (harrived : ∀ m, o = some m → .coord (.sent c m) ∈ t) :
    WorkInv (s.workerStep c { w with pc } evs).1
      (t ++ (s.workerStep c { w with pc } evs).2) where
  inFlight := fun c m hm => List.mem_append_left _ (inv.inFlight c m hm)
  task := by
    intro c' w' m hw' hm
    by_cases hc : c' = c
    · subst hc
      rw [Cluster.workerStep_worker] at hw'
      obtain rfl := Option.some.inj hw'
      rcases h.task_cases hm with hold | ⟨ho, htype⟩
      · exact (inv.task c' w m hw hold).mono
      · exact Assigned.mono ⟨harrived m ho, htype⟩
    · rw [Cluster.workerStep_worker_of_ne hc] at hw'
      exact (inv.task c' w' m hw' hm).mono
  done := by
    intro c' w' m hw' hm
    by_cases hc : c' = c
    · subst hc
      rw [Cluster.workerStep_worker] at hw'
      obtain rfl := Option.some.inj hw'
      rcases h.done_cases hm with hold | ⟨htask, path, line, opened, hev⟩
      · exact (inv.done c' w m hw hold).mono
      · refine ⟨(inv.task c' w m hw htask).mono, path, line, opened, ?_⟩
        exact List.mem_append_right _ (List.mem_map_of_mem hev)
    · rw [Cluster.workerStep_worker_of_ne hc] at hw'
      exact (inv.done c' w' m hw' hm).mono
  reported := by
    intro c' m hsome hm
    by_cases hc : c' = c
    · subst hc
      rw [Cluster.workerStep_toCoord] at hm
      rcases List.mem_append.mp hm with hold | hnew
      · exact (inv.reported c' m (Cluster.worker_ne_none_of_workerStep hw hsome) hold).mono
      · obtain ⟨ev, hev, hposted⟩ := List.mem_filterMap.mp hnew
        cases ev with
        | sent m' =>
          obtain rfl := Option.some.inj hposted
          exact (inv.genuine hw h hev).mono
        | effect => cases hposted
    · rw [Cluster.workerStep_toCoord_of_ne hc] at hm
      exact (inv.reported c' m (Cluster.worker_ne_none_of_workerStep hw hsome) hm).mono
  handled := fun c' m hsome hpc =>
    (inv.handled c' m (Cluster.worker_ne_none_of_workerStep hw hsome) hpc).mono
  answered := fun c' op e hsome hpc =>
    (inv.answered c' op e (Cluster.worker_ne_none_of_workerStep hw hsome) hpc).imp
      fun _ hd => ⟨hd.1.mono, hd.2⟩

/-- A message that is received is no longer on its way. -/
theorem mem_of_mem_pop {queue : ConnId → List WireMessage} {c c' : ConnId} {m m' : WireMessage}
    {rest : List WireMessage} (hqueue : queue c = m :: rest)
    (h : m' ∈ Function.update queue c rest c') : m' ∈ queue c' := by
  by_cases hc : c' = c
  · subst hc
    rw [Function.update_self] at h
    rw [hqueue]
    exact List.mem_cons_of_mem _ h
  · rwa [Function.update_of_ne hc] at h

theorem WorkInv.popCoord (inv : WorkInv s t) {c : ConnId} {m : WireMessage}
    {rest : List WireMessage} (hqueue : s.toCoord c = m :: rest) :
    WorkInv { s with toCoord := Function.update s.toCoord c rest } t :=
  { inv with reported := fun c' m' hw hm => inv.reported c' m' hw (mem_of_mem_pop hqueue hm) }

theorem WorkInv.popPeer (inv : WorkInv s t) {c : ConnId} {m : WireMessage}
    {rest : List WireMessage} (hqueue : s.toPeer c = m :: rest) :
    WorkInv { s with toPeer := Function.update s.toPeer c rest } t :=
  { inv with inFlight := fun c' m' hm => inv.inFlight c' m' (mem_of_mem_pop hqueue hm) }

/-- A worker that starts has nothing at hand, and nobody has spoken for it. -/
theorem WorkInv.start (inv : WorkInv s t) {c : ConnId} {w : Worker} (hfresh : s.isFresh c = true)
    (hw : w.pc = .register) : WorkInv (s.workerStep c w []).1 t := by
  obtain ⟨hpc, hnone, hqueue⟩ := Cluster.of_isFresh hfresh
  have hother : ∀ {c'}, (s.workerStep c w []).1.worker c' ≠ none → c' ≠ c →
      s.worker c' ≠ none := fun h hc => by rwa [Cluster.workerStep_worker_of_ne hc] at h
  constructor
  · exact inv.inFlight
  · intro c' w' m hw' hm
    by_cases hc : c' = c
    · subst hc
      rw [Cluster.workerStep_worker] at hw'
      obtain rfl := Option.some.inj hw'
      rw [hw] at hm
      cases hm
    · exact inv.task c' w' m (by rwa [Cluster.workerStep_worker_of_ne hc] at hw') hm
  · intro c' w' m hw' hm
    by_cases hc : c' = c
    · subst hc
      rw [Cluster.workerStep_worker] at hw'
      obtain rfl := Option.some.inj hw'
      rw [hw] at hm
      cases hm
    · exact inv.done c' w' m (by rwa [Cluster.workerStep_worker_of_ne hc] at hw') hm
  · intro c' m hsome hm
    by_cases hc : c' = c
    · rw [hc, Cluster.workerStep_toCoord, hqueue] at hm
      cases hm
    · exact inv.reported c' m (hother hsome hc) (by rwa [Cluster.workerStep_toCoord_of_ne hc] at hm)
  · intro c' m hsome hhandle
    by_cases hc : c' = c
    · rw [hc, Cluster.workerStep_coord, hpc] at hhandle
      cases hhandle
    · exact inv.handled c' m (hother hsome hc) hhandle
  · intro c' op e hsome hanswer
    by_cases hc : c' = c
    · rw [hc, Cluster.workerStep_coord, hpc] at hanswer
      rcases hanswer with h | h <;> cases h
    · exact inv.answered c' op e (hother hsome hc) hanswer

/-- The coordinator receives only by receiving. -/
theorem Coord.receive_of_received {k : Coord} {a : Action} {c : ConnId} {m : WireMessage}
    (h : .received c m ∈ (k.step a).2) : a = .receive c m := by
  obtain ⟨rfl, hevs, -⟩ := (k.step_moves a).received h
  cases a with
  | accept c | disconnect c =>
    dsimp only [Coord.step] at hevs
    split at hevs <;> cases hevs
  | receive c m' =>
    dsimp only [Coord.step, Action.conn] at hevs
    split at hevs
    · obtain ⟨-, rfl⟩ := Event.received.inj (List.cons.inj hevs).1
      rfl
    · cases hevs
  | proceed c ch =>
    -- a thread that reads does not proceed, and no other one receives
    have hne : k.pc c ≠ .reading := by
      intro hpc
      simp [Coord.step, Coord.advance, hpc, Pc.needsLock] at h
    have hmoves := k.step_moves (.proceed c ch)
    rw [hevs] at hmoves
    generalize (k.step (.proceed c ch)).1 = k' at hmoves
    dsimp only [Action.conn] at hmoves
    generalize hlist : [Event.received c m] = evs at hmoves
    cases hmoves with
    | localStep a new evs hlocal =>
      generalize hpc : k.pc c = pc at hlocal
      cases hlocal with
      | receive => exact absurd hpc hne
      | accept | disconnect | asked | ignored | noWorkers | sentDispatch | sentAck | sentFence
      | notRunning | allDone | recover | built | noReplacement | gaveUp | verified | sentAgain =>
        cases hlist
    | idle | callStep | register | dispatchLock | marked | markedAgain | lost | saveStart
    | saveItem | saveEnd => cases hlist
    | transferred a ch | recorded a ch cur b => cases hlist

/-- **Step lemma.** Every step of the cluster keeps the invariant. -/
theorem WorkInv.step (inv : WorkInv s t) (a : ClusterAction) :
    WorkInv (s.step a).1 (t ++ (s.step a).2) := by
  have hmoves := s.step_moves a
  generalize (s.step a).1 = s', (s.step a).2 = evs at hmoves ⊢
  cases hmoves with
  | idle =>
    rw [List.append_nil]
    exact inv
  | received c m rest hpc hqueue =>
    refine (inv.popCoord hqueue).coordStep _ (fun c' m' hev hw => ?_)
    obtain ⟨rfl, rfl⟩ := Action.receive.inj (Coord.receive_of_received hev)
    exact inv.reported _ _ hw (by rw [hqueue]; exact List.mem_cons_self)
  | coord a ha =>
    exact inv.coordStep a (fun c m hev _ => absurd (Coord.receive_of_received hev) (ha c m))
  | start c workdir mode wid boot hfresh =>
    rw [List.append_nil]
    exact inv.start hfresh rfl
  | own a c w pc evs hw hmove => exact inv.workerStep hw hmove (fun m ho => by cases ho)
  | deliver c w pc m rest hw hqueue hmove =>
    refine (inv.popPeer hqueue).workerStep hw hmove (fun m' ho => ?_)
    obtain rfl := Option.some.inj ho
    exact inv.inFlight c m (by rw [hqueue]; exact List.mem_cons_self)
  | client c m hw =>
    rw [List.append_nil]
    refine { inv with reported := fun c' m' hsome hm' => ?_ }
    by_cases hc : c' = c
    · exact absurd hw (hc ▸ hsome)
    · dsimp only at hm'
      rw [Function.update_of_ne hc] at hm'
      exact inv.reported c' m' hsome hm'

/-- **Run lemma.** The invariant holds in every run of the cluster. -/
theorem workInv_run (file : Option (List UInt8)) (acts : List ClusterAction) :
    WorkInv (cluster.run (.boot file) acts) ((Cluster.boot file).trace acts) :=
  Cluster.trace_induction (fun _ a _ inv => inv.step a) (workInv_boot file) acts

/-- The coordinator's events are justified when what it receives is. -/
theorem WorkInv.justified_coord (inv : WorkInv s t) {a : Action} {ev : Event}
    (hreceived : ∀ c m, .received c m ∈ (s.coord.step a).2 → s.worker c ≠ none → Genuine t c m)
    (hev : ev ∈ (s.coord.step a).2) : Justified s t (.coord ev) := by
  cases ev with
  | received c m => exact hreceived c m hev
  | sent c m =>
    intro hw htype hflag
    have hack : (Event.sent c m).isAck m.op = true := by simp [Event.isAck, htype, hflag]
    obtain ⟨e, hpc, -, hevs⟩ := (s.coord.step_moves a).ack hev hack
    rw [hevs] at hev
    obtain ⟨rfl, -⟩ := Event.sent.inj (List.mem_singleton.mp hev)
    obtain ⟨d, hd, hop, -⟩ := inv.answered _ m.op e hw (Or.inr hpc)
    exact ⟨d, hd, hop⟩
  | applied | transferred | appended => trivial

/-- A worker's events are justified. -/
theorem WorkInv.justified_worker (inv : WorkInv s t) {c : ConnId} {w : Worker} {pc : WorkerPc}
    {o : Option WireMessage} {evs : List WorkerEvent} (hw : s.worker c = some w)
    (h : w.Moves pc o evs) {ev : WorkerEvent} (hev : ev ∈ evs) :
    Justified s t (.worker c ev) := by
  cases ev with
  | sent m => exact inv.genuine hw h hev
  | effect m path line opened =>
    cases h with
    | worked m' pc ok hpc =>
      obtain ⟨rfl, -⟩ := WorkerEvent.effect.inj (List.mem_singleton.mp hev)
      exact inv.task c w m hw (by rw [hpc]; rfl)
    | registered | started | failed | completed => simp at hev
    | stay | giveUp | acknowledged | refused | dispatched | shutDown | ignored => cases hev

/-- **Every event is justified.** In every run of the cluster, whatever happens next rests on what
    has happened: a worker goes through its side effect for work that the coordinator has sent to
    it; what it sends, and what the coordinator receives from it, is about such work, and a report
    of the end comes after the side effect; and a worker that is sent an acknowledgement has gone
    through the side effect for that operation. -/
theorem step_justified (file : Option (List UInt8)) (acts : List ClusterAction)
    (a : ClusterAction) :
    ∀ ev ∈ (cluster.step (cluster.run (.boot file) acts) a).2,
      Justified (cluster.run (.boot file) acts) ((Cluster.boot file).trace acts) ev := by
  have inv := workInv_run file acts
  generalize cluster.run (.boot file) acts = s, (Cluster.boot file).trace acts = t at inv ⊢
  intro ev hev
  have hmoves := s.step_moves a
  rw [show (s.step a).2 = (cluster.step s a).2 from rfl] at hmoves
  generalize (s.step a).1 = s', (cluster.step s a).2 = evs at hmoves hev
  cases hmoves with
  | received c m rest hpc hqueue =>
    obtain ⟨ev', hev', rfl⟩ := List.mem_map.mp hev
    refine (inv.popCoord hqueue).justified_coord (a := .receive c m)
      (fun c' m' hreceived hw => ?_) hev'
    obtain ⟨rfl, rfl⟩ := Action.receive.inj (Coord.receive_of_received hreceived)
    exact inv.reported _ _ hw (by rw [hqueue]; exact List.mem_cons_self)
  | coord a ha =>
    obtain ⟨ev', hev', rfl⟩ := List.mem_map.mp hev
    exact inv.justified_coord
      (fun c m hreceived _ => absurd (Coord.receive_of_received hreceived) (ha c m)) hev'
  | own a c w pc evs hw hmove =>
    obtain ⟨ev', hev', rfl⟩ := List.mem_map.mp hev
    exact inv.justified_worker hw hmove hev'
  | idle | start | deliver | client => cases hev

/-- The worker's side effect in the sample run rests on work that it was sent. -/
theorem step_justified_workedRun :
    ∃ d, d.op = sampleOp ∧ Assigned ((Cluster.boot none).trace
      (workerJoins ++ clientAsks ++ workerWorks.take 2)) 0 d :=
  ⟨_, rfl, step_justified none (workerJoins ++ clientAsks ++ workerWorks.take 2) (.proceed 0 true)
    _ List.mem_cons_self⟩

end Invariant

end FailureFabric
