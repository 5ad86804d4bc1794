import FailureFabric.Aside

namespace FailureFabric

open Library

/-!
# The relay

One operation is asked for, once, and workers may die.  At any time the work on it is in one hand:
that of the thread that dispatches it, that of a worker, or that of the thread that has lost the
worker and passes the work on to the next one.  Everything else is beside the work.

* `Cluster.Spent` — a connection that has no more part in the work than to pass it on;
* `Cluster.MarkedFor` — the connection with the work is noted as the running one, or will be;
* `InHand` — where the work is while a worker has it, or had it and is gone;
* `Relay` — whose hand the work is in;
* `Relay.step` — every step that leaves the work recoverable keeps it in one hand.
-/

/-- The thread is about to find a new worker for the work that it has lost. -/
def Pc.Recovers : Pc → Prop
  | lostCheck | lostTransfer | lostBuild _ | lostReport .. | lostChoose _ => True
  | _ => False

/-- Nothing more comes on the connection, its worker is gone if it had one, and it is not listed. -/
structure Cluster.Spent (s : Cluster) (c : ConnId) : Prop where
  worker : ∀ w, s.worker c = some w → w.pc = .exited
  received : s.toCoord c = []
  undelivered : (∀ m ∈ s.toPeer c, m.type ≠ .DISPATCH) ∨ s.Gone c
  unlisted : ∀ p ∈ s.coord.workers, p.2 ≠ c

/-- There is no running connection, nobody is about to note one, and nothing is saved. -/
structure Cluster.Unmarked (s : Cluster) : Prop where
  running : s.coord.runningConn = none
  marks : ∀ c, (s.coord.pc c).marks = none
  finished : s.coord.finished = false

/-- The connection is noted as the running one, or the thread that has sent the work on it is about
    to note it. -/
inductive Cluster.MarkedFor (s : Cluster) (op : OperationId) (t : ConnId) : Prop
  | noted (hrun : s.coord.runningConn = some t) (hcurrent : s.coord.currentOp = op)
      (hmarks : ∀ c, (s.coord.pc c).marks = none)
  | pending (c : ConnId) (hne : c ≠ t) (hrun : s.coord.runningConn = none)
      (hmarks : (s.coord.pc c).marks = some t)
      (hother : ∀ c', c' ≠ c → (s.coord.pc c').marks = none)
      (hcurrent : s.coord.pc c = .lostMark t → s.coord.currentOp = op)

/-- Where the work is while a worker has it, or had it and is gone: on its way to the worker, with
    the worker that begins, with the worker that works, in a report of the end that is on its way,
    with the thread that confirms the report, dropped by the worker, or given up by its thread. -/
inductive InHand (s : Cluster) (op : OperationId) (t : ConnId) (r : OperationRuntime)
    (w : Worker) : Prop
  | sent (hr : r.InWork) (hpc : (s.coord.pc t).Attending) (htask : w.pc.task = none)
      (hwaits : w.pc ≠ .exited) (m : WireMessage) (hm : m ∈ s.toPeer t) (htype : m.type = .DISPATCH)
      (honly : ∀ m ∈ s.toPeer t, m.type = .DISPATCH → m.IsFor op r.authority)
      (hin : ∀ m ∈ s.incoming t, m.type = .REGISTER)
  | starting (hr : r.InWork) (hpc : (s.coord.pc t).Attending) (m : WireMessage)
      (hw : w.pc = .starting m) (hm : m.IsFor op r.authority)
      (hin : ∀ m ∈ s.incoming t, m.type = .REGISTER)
  | working (hr : r.InWork) (hpc : (s.coord.pc t).Attending) (m : WireMessage)
      (hw : w.pc = .working m ∨ w.pc = .completing m) (hm : m.IsFor op r.authority)
      (hin : ∀ m ∈ s.incoming t, m.type = .REGISTER ∨ m.type = .RUNNING)
      (hruns : r.RunsAfter op (s.incoming t))
  | reported (hr : r.InWork) (hpc : (s.coord.pc t).Attending) (hw : w.pc = .exited)
      (pre : List WireMessage) (m : WireMessage) (hm : m.Tells .COMPLETE op r.authority)
      (hin : s.incoming t = pre ++ [m]) (hpre : ∀ m ∈ pre, m.type = .REGISTER ∨ m.type = .RUNNING)
      (hruns : r.RunsAfter op pre)
  | confirming (hr : r.machine.state = .COMPLETION_REPORTED)
      (hpc : s.coord.pc t = .completeConfirm op r.authority) (hw : w.pc = .exited)
  | dropped (hr : isTerminal r.machine.state = false) (hpc : (s.coord.pc t).Attending)
      (hw : w.pc = .exited ∨ ∃ m, w.pc = .failing m)
      (hin : ∀ m ∈ s.incoming t, m.type = .REGISTER ∨ m.type = .RUNNING ∨ m.type = .FAILURE)
  | given (hr : isTerminal r.machine.state = false) (hpc : s.coord.pc t = .lostLock)
      (hw : w.pc = .exited) (hqueue : s.toCoord t = []) (hrun : s.coord.runningConn = some t)

/-- Whose hand the work on the operation is in: that of a client that has asked for it, of the
    thread that chooses a worker, of a thread that has chosen one, of a worker, of the thread that
    has lost its worker, or nobody's, because it is done. -/
inductive Relay (s : Cluster) (op : OperationId) : Prop
  | asked (c : ConnId) (q : WireMessage) (htype : q.type = .DISPATCH) (hop : q.op = op)
      (hpc : (s.coord.pc c).Attending) (hw : s.worker c = none) (hin : s.incoming c = [q])
      (hpeer : ∀ m ∈ s.toPeer c, m.type ≠ .DISPATCH) (hnew : s.coord.store.ops.find op = none)
      (others : ∀ c', c' ≠ c → s.Aside op c') (unmarked : s.Unmarked)
  | choosing (c : ConnId) (auth : AuthorityEnvelope) (hpc : s.coord.pc c = .dispatchLock op auth)
      (hset : auth.isUnset = false) (hspent : s.Spent c)
      (hnew : s.coord.store.ops.find op = none) (others : ∀ c', c' ≠ c → s.Aside op c')
      (unmarked : s.Unmarked)
  | chosen (c t : ConnId) (r : OperationRuntime)
      (hpc : s.coord.pc c = .dispatchSend op r.authority t ∨
        (s.coord.pc c = .lostVerify r.authority (some t) ∨ s.coord.pc c = .lostSend r.authority t) ∧
          s.coord.currentOp = op)
      (hspent : s.Spent c) (hne : t ≠ c) (hmember : s.worker t ≠ none)
      (htarget : (s.coord.pc t).Attending) (hfind : s.coord.store.ops.find op = some r)
      (hopen : r.Open) (hr : r.InWork) (others : ∀ c', c' ≠ c → s.Aside op c')
      (unmarked : s.Unmarked)
  | held (t : ConnId) (w : Worker) (r : OperationRuntime) (hw : s.worker t = some w)
      (hfind : s.coord.store.ops.find op = some r) (hopen : r.Open) (hheld : InHand s op t r w)
      (others : ∀ c', c' ≠ t → s.Aside op c') (hmarked : s.MarkedFor op t)
      (hfinished : s.coord.finished = false)
  | lost (t : ConnId) (r : OperationRuntime) (hpc : (s.coord.pc t).Recovers) (hspent : s.Spent t)
      (hcurrent : s.coord.currentOp = op) (hfind : s.coord.store.ops.find op = some r)
      (hopen : r.Open) (hr : isTerminal r.machine.state = false)
      (others : ∀ c', c' ≠ t → s.Aside op c') (unmarked : s.Unmarked)
  | done (e : AuthorityEnvelope) (h : s.coord.store.ops.ConfirmedWith op e)

/-! ### What the steps beside the work leave -/

section Runtime

variable {r r' : OperationRuntime} {op : OperationId}

/-- The runtime is the same, but that the operation may run. -/
def OperationRuntime.Onward (r r' : OperationRuntime) : Prop :=
  r' = r ∨ r' = { r with machine := ⟨.RUNNING⟩ } ∧ isAllowed r.machine.state .RUNNING = true

/-- Running binds no authority. -/
theorem OperationRuntime.Onward.authority (h : r.Onward r') : r'.authority = r.authority := by
  rcases h with rfl | ⟨rfl, -⟩ <;> rfl

/-- An open operation stays open. -/
theorem OperationRuntime.Onward.isOpen (h : r.Onward r') (hopen : r.Open) : r'.Open := by
  rcases h with rfl | ⟨rfl, -⟩
  · exact hopen
  · exact ⟨hopen.unrecorded, hopen.terminal, hopen.authority⟩

/-- Work stays in work. -/
theorem OperationRuntime.Onward.inWork (h : r.Onward r') (hr : r.InWork) : r'.InWork := by
  rcases h with rfl | ⟨rfl, -⟩
  · exact hr
  · exact Or.inr rfl

/-- Running is no terminal state. -/
theorem OperationRuntime.Onward.live (h : r.Onward r') (hr : isTerminal r.machine.state = false) :
    isTerminal r'.machine.state = false := by
  rcases h with rfl | ⟨rfl, -⟩
  · exact hr
  · rfl

/-- What is on the way still finds the operation ready to run. -/
theorem OperationRuntime.Onward.runsAfter (h : r.Onward r') {l : List WireMessage}
    (hruns : r.RunsAfter op l) : r'.RunsAfter op l := by
  rcases h with rfl | ⟨rfl, -⟩
  · exact hruns
  · exact Or.inl rfl

/-- What makes the operation run is still there, or is handled and makes it run. -/
theorem OperationRuntime.Onward.runsAfter_cons (h : r.Onward r') {m : WireMessage}
    {l : List WireMessage} (hruns : r.RunsAfter op (m :: l))
    (hm : m.Tells .RUNNING op r.authority → r'.machine.state = .RUNNING) : r'.RunsAfter op l := by
  rcases hruns with hrunning | ⟨m', hm', htells⟩
  · exact h.runsAfter (Or.inl hrunning)
  · rcases List.mem_cons.mp hm' with rfl | hrest
    · exact Or.inl (hm htells)
    · exact h.runsAfter (Or.inr ⟨m', hrest, htells⟩)

/-- A completion that is reported is not undone. -/
theorem OperationRuntime.Onward.reported (h : r.Onward r')
    (hr : r.machine.state = .COMPLETION_REPORTED) : r' = r := by
  rcases h with rfl | ⟨-, hallowed⟩
  · rfl
  · rw [hr] at hallowed
    cases hallowed

/-- A report of a failure leaves the runtime alone, or the operation has failed; it can be
    dispatched again either way. -/
theorem OperationRuntime.reportFailure_cases (r : OperationRuntime) (e : AuthorityEnvelope)
    (ambiguous : Bool) : (r.reportFailure e ambiguous).1 = r ∨
      ∃ state, isTerminal state = false ∧
        (r.reportFailure e ambiguous).1 = { r with machine := ⟨state⟩ } := by
  unfold reportFailure
  split_ifs
  · exact Or.inl rfl
  · exact Or.inl rfl
  · unfold OperationStateMachine.transition
    split_ifs
    · exact Or.inr ⟨.FAILED_AMBIGUOUS, rfl, rfl⟩
    · exact Or.inl rfl
  · unfold OperationStateMachine.transition
    split_ifs
    · exact Or.inr ⟨.FAILED_KNOWN, rfl, rfl⟩
    · exact Or.inl rfl

/-- What a report of a failure leaves can still be recovered. -/
theorem OperationRuntime.Open.reportFailure (hopen : r.Open)
    (hr : isTerminal r.machine.state = false) (e : AuthorityEnvelope) (ambiguous : Bool) :
    (r.reportFailure e ambiguous).1.Open ∧
      isTerminal (r.reportFailure e ambiguous).1.machine.state = false := by
  rcases r.reportFailure_cases e ambiguous with hsame | ⟨state, hlive, hfailed⟩
  · rw [hsame]
    exact ⟨hopen, hr⟩
  · rw [hfailed]
    exact ⟨⟨hopen.unrecorded, hopen.terminal, hopen.authority⟩, hlive⟩

/-- Work that is dispatched or running is not over. -/
theorem OperationRuntime.InWork.live (hr : r.InWork) : isTerminal r.machine.state = false := by
  rcases hr with hstate | hstate <;> rw [hstate] <;> rfl

end Runtime

section Frame

variable {s s' : Cluster} {op : OperationId} {c t : ConnId} {r r' : OperationRuntime} {w : Worker}

/-- The registry knows the operation as before, but that it may run. -/
theorem Apart.onward (h : Apart s s' op c) (hfind : s.coord.store.ops.find op = some r) :
    ∃ r', s'.coord.store.ops.find op = some r' ∧ r.Onward r' := by
  rcases h.ops with hsame | ⟨e, hrun⟩
  · exact ⟨r, hsame.trans hfind, Or.inl rfl⟩
  · refine ⟨(r.run e).1, ?_, r.run_cases e⟩
    rw [hrun, hfind]
    rfl

/-- An operation that is not known stays unknown. -/
theorem Apart.unknown (h : Apart s s' op c) (hnew : s.coord.store.ops.find op = none) :
    s'.coord.store.ops.find op = none := by
  rcases h.ops with hsame | ⟨e, hrun⟩
  · exact hsame.trans hnew
  · rw [hrun, hnew]
    rfl

/-- The connections beside the work stay beside it, the one that moved too. -/
theorem Apart.others (h : Apart s s' op c) (others : ∀ c', c' ≠ t → s.Aside op c') :
    ∀ c', c' ≠ t → s'.Aside op c' := by
  intro c' hc'
  by_cases hc : c' = c
  · rw [hc]
    exact h.aside
  · exact h.toElsewhere.aside hc (others c' hc')

/-- A spent connection stays spent while another one moves. -/
theorem Elsewhere.spent (h : Elsewhere s s' c) (hne : t ≠ c) (hspent : s.Spent t) : s'.Spent t := by
  obtain ⟨hsame, hpeer⟩ := h.same t hne
  refine ⟨fun w hw => hspent.worker w (hsame.worker ▸ hw), hsame.toCoord.trans hspent.received, ?_,
    fun p hp => ?_⟩
  · rw [hpeer]
    exact hspent.undelivered.imp_right hsame.gone
  · rcases h.listed p hp with hold | hnew
    · exact hspent.unlisted p hold
    · rw [hnew]
      exact Ne.symm hne

/-- Where no connection is marked as the running one, none is after a step beside the work. -/
theorem Beside.unmarked (h : Beside s s' op c) (unmarked : s.Unmarked) : s'.Unmarked := by
  refine ⟨h.runningConn.trans unmarked.running, fun c' => ?_, h.finished.trans unmarked.finished⟩
  by_cases hc : c' = c
  · rw [hc]
    rcases h.marks with hpc | ⟨hnone, -⟩
    · rw [hpc]
      exact unmarked.marks c
    · exact hnone
  · rw [(h.same c' hc).1.pc]
    exact unmarked.marks c'

/-- The connection that is marked for the work stays the marked one. -/
theorem Beside.markedFor (h : Beside s s' op c) (hmarked : s.MarkedFor op t) :
    s'.MarkedFor op t := by
  have hmarks : ∀ c', s'.coord.pc c' = s.coord.pc c' ∨
      (s'.coord.pc c').marks = none ∧ (s.coord.pc c').marks = none := by
    intro c'
    by_cases hc : c' = c
    · rw [hc]
      exact h.marks
    · exact Or.inl (h.same c' hc).1.pc
  have hnone : ∀ c', (s.coord.pc c').marks = none → (s'.coord.pc c').marks = none := by
    intro c' hnone
    rcases hmarks c' with hpc | ⟨hafter, -⟩
    · rwa [hpc]
    · exact hafter
  cases hmarked with
  | noted hrun hcurrent hother =>
    exact .noted (h.runningConn.trans hrun) (h.currentOp.trans hcurrent)
      (fun c' => hnone c' (hother c'))
  | pending c₁ hne hrun hmark hother hcurrent =>
    rcases hmarks c₁ with hpc | ⟨-, hbefore⟩
    · refine .pending c₁ hne (h.runningConn.trans hrun) (by rwa [hpc])
        (fun c' hc' => hnone c' (hother c' hc')) (fun hlost => ?_)
      rw [h.currentOp]
      exact hcurrent (hpc.symm.trans hlost)
    · rw [hmark] at hbefore
      cases hbefore

/-- The work stays where it is. -/
theorem InHand.onward (h : InHand s op t r w) (hsame : s.SameAt s' t)
    (hpeer : s'.toPeer t = s.toPeer t) (honward : r.Onward r')
    (hrun : s.coord.runningConn = some t → s'.coord.runningConn = some t) :
    InHand s' op t r' w := by
  cases h with
  | sent hr hpc htask hwaits m hm htype honly hin =>
    refine .sent (honward.inWork hr) ?_ htask hwaits m ?_ htype ?_ ?_
    · rwa [hsame.pc]
    · rwa [hpeer]
    · rwa [hpeer, honward.authority]
    · rwa [hsame.incoming]
  | starting hr hpc m hw hm hin =>
    refine .starting (honward.inWork hr) ?_ m hw ?_ ?_
    · rwa [hsame.pc]
    · rwa [honward.authority]
    · rwa [hsame.incoming]
  | working hr hpc m hw hm hin hruns =>
    refine .working (honward.inWork hr) ?_ m hw ?_ ?_ ?_
    · rwa [hsame.pc]
    · rwa [honward.authority]
    · rwa [hsame.incoming]
    · rw [hsame.incoming]
      exact honward.runsAfter hruns
  | reported hr hpc hw pre m hm hin hpre hruns =>
    refine .reported (honward.inWork hr) ?_ hw pre m ?_ ?_ hpre (honward.runsAfter hruns)
    · rwa [hsame.pc]
    · rwa [honward.authority]
    · rwa [hsame.incoming]
  | confirming hr hpc hw =>
    obtain rfl := honward.reported hr
    exact .confirming hr (hsame.pc.trans hpc) hw
  | dropped hr hpc hw hin =>
    refine .dropped (honward.live hr) ?_ hw ?_
    · rwa [hsame.pc]
    · rwa [hsame.incoming]
  | given hr hpc hw hqueue hrunning =>
    exact .given (honward.live hr) (hsame.pc.trans hpc) hw (hsame.toCoord.trans hqueue)
      (hrun hrunning)

end Frame

/-! ### The threads that pass the work on -/

section Threads

variable {s s' : Cluster} {op : OperationId} {c : ConnId}

/-- A step of the coordinator that sends nothing on other connections leaves them alone. -/
theorem Cluster.coordStep_elsewhere {a : Action} (hconn : a.conn = c)
    (hsent : ∀ c', c' ≠ c → sentTo c' (s.coord.step a).2 = []) :
    Elsewhere s (s.coordStep a).1 c := by
  subst hconn
  refine ⟨fun c' hc => ⟨s.coordStep_sameAt hc, ?_⟩, fun p hp => ?_⟩
  · rw [Cluster.coordStep_toPeer, hsent c' hc, List.append_nil]
  · exact ((s.coord.step_moves a).listed.1 p hp).imp_right And.left

/-- The thread goes on and sends nothing. -/
structure Onto (s s' : Cluster) (c : ConnId) (new : Pc) : Prop extends Elsewhere s s' c where
  pc : s'.coord.pc c = new
  worker : s'.worker = s.worker
  toCoord : s'.toCoord = s.toCoord
  toPeer : ∀ c', s'.toPeer c' = s.toPeer c'

/-- A step that moves one thread on and sends nothing. -/
theorem Cluster.coordStep_onto {a : Action} {k : Coord} {new : Pc} {evs : List Event}
    (hconn : a.conn = c) (hstep : s.coord.step a = (k.goto c new, evs))
    (hsent : ∀ c', sentTo c' evs = []) : Onto s (s.coordStep a).1 c new := by
  refine ⟨Cluster.coordStep_elsewhere hconn fun c' _ => ?_, ?_, rfl, rfl, fun c' => ?_⟩
  · rw [hstep]
    exact hsent c'
  · rw [Cluster.coordStep_coord, hstep, Coord.goto_pc_self]
  · rw [Cluster.coordStep_toPeer, hstep, hsent, List.append_nil]

/-- All the others stay beside the work. -/
theorem Elsewhere.others (h : Elsewhere s s' c) (others : ∀ c', c' ≠ c → s.Aside op c') :
    ∀ c', c' ≠ c → s'.Aside op c' :=
  fun c' hc => h.aside hc (others c' hc)

/-- The connection itself stays spent, as long as it is not listed again. -/
theorem Onto.spent {new : Pc} (h : Onto s s' c new) (hspent : s.Spent c)
    (hlisted : ∀ p ∈ s'.coord.workers, p ∈ s.coord.workers) : s'.Spent c := by
  refine ⟨fun w hw => hspent.worker w (by rwa [← h.worker]), ?_, ?_,
    fun p hp => hspent.unlisted p (hlisted p hp)⟩
  · rw [h.toCoord]
    exact hspent.received
  · unfold Cluster.Gone
    rw [h.toPeer, h.worker]
    exact hspent.undelivered

/-- No connection is marked after a step that unmarks the one that moved. -/
theorem Elsewhere.unmarked (h : Elsewhere s s' c) (unmarked : s.Unmarked)
    (hpc : (s'.coord.pc c).marks = none) (hrun : s'.coord.runningConn = none)
    (hfinished : s'.coord.finished = s.coord.finished) : s'.Unmarked := by
  refine ⟨hrun, fun c' => ?_, hfinished.trans unmarked.finished⟩
  by_cases hc : c' = c
  · rw [hc]
    exact hpc
  · rw [(h.same c' hc).1.pc]
    exact unmarked.marks c'

/-- A connection that is spent, and whose thread has something at hand, takes the next step of its
    thread or none. -/
theorem Cluster.Spent.step (h : s.Spent c) (hunborn : s.coord.pc c ≠ .unborn)
    (hreading : s.coord.pc c ≠ .reading) {a : ClusterAction} (hconn : a.conn = c)
    (hrecoverable : s.Recoverable a) : (s.step a).1 = s ∨ ∃ ch, ¬ s.coord.NoneLeft c ∧
      s.coord.step (.proceed c ch) = s.coord.advance c ch ∧
      (s.step a).1 = (s.coordStep (.proceed c ch)).1 := by
  have hmoves := s.step_moves a
  generalize (s.step a).1 = s', (s.step a).2 = evs at hmoves ⊢
  have hexited : ∀ w, s.worker c = some w → ∀ pc, w.pc = pc → pc ≠ .exited → False :=
    fun w hw pc hpc hne => hne (hpc ▸ h.worker w hw)
  cases hmoves with
  | idle => exact Or.inl rfl
  | received c' m rest hpc hqueue =>
    obtain rfl : c' = c := hconn
    exact absurd hpc hreading
  | coord a ha =>
    obtain rfl : a.conn = c := hconn
    rcases Coord.step_of_started (s := s.coord) (a := a) ⟨hunborn, hreading⟩ with
      hidle | ⟨ch, heq, hstep⟩
    · exact Or.inl (Cluster.coordStep_idle hidle)
    · rw [heq] at hrecoverable hstep ⊢
      exact Or.inr ⟨ch, hrecoverable, hstep, rfl⟩
  | start c' workdir mode wid boot hfresh =>
    obtain rfl : c' = c := hconn
    exact absurd (Cluster.of_isFresh hfresh).1 hunborn
  | own a c' w pc evs hw hmove hc' =>
    obtain rfl : c' = c := hc'.symm.trans hconn
    cases hmove with
    | stay => exact Or.inl (Cluster.workerStep_idle hw)
    | giveUp =>
      left
      rw [← h.worker w hw]
      exact Cluster.workerStep_idle hw
    | registered hpc | started m hpc | worked m pc ok hpc | failed m text hpc
    | completed m text hpc => exact (hexited w hw _ hpc (by simp)).elim
  | deliver c' w pc m rest hw hqueue hmove =>
    obtain rfl : c' = c := hconn
    cases hmove with
    | acknowledged _ hpc | refused _ hpc | dispatched _ hpc | shutDown _ hpc | ignored _ hpc =>
      exact (hexited w hw _ hpc (by simp)).elim
  | client => exact absurd hrecoverable id

/-- The thread that has the request chooses the first listed worker, and binds the operation. -/
theorem Relay.choose (inv : MemberInv s) {auth : AuthorityEnvelope}
    (hpc : s.coord.pc c = .dispatchLock op auth) (hset : auth.isUnset = false)
    (hspent : s.Spent c) (hnew : s.coord.store.ops.find op = none)
    (others : ∀ c', c' ≠ c → s.Aside op c') (unmarked : s.Unmarked) {ch : Choice}
    (hleft : ¬ s.coord.NoneLeft c)
    (hstep : s.coord.step (.proceed c ch) = s.coord.advance c ch) :
    Relay (s.coordStep (.proceed c ch)).1 op := by
  rw [Coord.advance, hpc] at hstep
  dsimp only at hstep
  unfold Coord.dispatchLock at hstep
  cases hworkers : s.coord.workers with
  | nil => exact absurd ⟨hworkers, by rw [hpc]; rfl⟩ hleft
  | cons p rest =>
    obtain ⟨wid, t⟩ := p
    rw [hworkers] at hstep
    dsimp only at hstep
    have honto := s.coordStep_onto (c := c) rfl hstep fun _ => rfl
    have hlisted : (wid, t) ∈ s.coord.workers := by
      rw [hworkers]
      exact List.mem_cons_self
    have hne : t ≠ c := hspent.unlisted _ hlisted
    obtain ⟨w, hw, -⟩ := inv.listed _ hlisted
    have hcoord := congrArg Prod.fst hstep
    have hfind : (s.coordStep (.proceed c ch)).1.coord.store.ops.find op =
        some (({ authority := auth } : OperationRuntime).dispatch auth).1 := by
      rw [Cluster.coordStep_coord, hcoord]
      refine registry_find_self (registry.step s.coord.store.ops (.create op auth)).1
        (c := .dispatch op auth) ?_
      exact (OperationRegistry.find_create ..).trans ((if_pos rfl).trans (by rw [hnew]; rfl))
    obtain ⟨hauth, hstate, hrec, hterm⟩ :=
      OperationRuntime.dispatch_live (r := { authority := auth }) (e := auth) rfl rfl
    refine .chosen c t _ (Or.inl ?_) (honto.spent hspent fun p hp => ?_) hne ?_ ?_ hfind
      ⟨hrec, ?_, ?_⟩ (Or.inl hstate) (honto.others others) (honto.unmarked unmarked ?_ ?_ ?_)
    · rw [honto.pc, hauth]
    · rwa [Cluster.coordStep_coord, hcoord] at hp
    · rw [honto.worker, hw]
      exact Option.some_ne_none w
    · rw [(honto.same t hne).1.pc]
      exact (others t hne).listed _ hlisted rfl
    · rw [hterm]
      rfl
    · rwa [hauth]
    · rw [honto.pc]
      rfl
    · rw [Cluster.coordStep_coord, hcoord]
      exact unmarked.running
    · rw [Cluster.coordStep_coord, hcoord]
      rfl

/-- The thread that has lost its worker goes on to the choice of the next one, and chooses it. -/
theorem Relay.recover (inv : MemberInv s) {r : OperationRuntime}
    (hpc : (s.coord.pc c).Recovers) (hspent : s.Spent c) (hcurrent : s.coord.currentOp = op)
    (hfind : s.coord.store.ops.find op = some r) (hopen : r.Open)
    (hr : isTerminal r.machine.state = false) (others : ∀ c', c' ≠ c → s.Aside op c')
    (unmarked : s.Unmarked) {ch : Choice} (hleft : ¬ s.coord.NoneLeft c)
    (hstep : s.coord.step (.proceed c ch) = s.coord.advance c ch) :
    Relay (s.coordStep (.proceed c ch)).1 op := by
  have hon {k : Coord} {new : Pc} {evs : List Event}
      (hstep : s.coord.step (.proceed c ch) = (k.goto c new, evs))
      (hsent : ∀ c', sentTo c' evs = []) (hnew : new.Recovers) (r' : OperationRuntime)
      (hr' : isTerminal r'.machine.state = false)
      (hopen' : r'.Open) (hk : k.workers = s.coord.workers ∧ k.currentOp = s.coord.currentOp ∧
        k.runningConn = s.coord.runningConn ∧ k.finished = s.coord.finished)
      (hfind' : k.store.ops.find op = some r') : Relay (s.coordStep (.proceed c ch)).1 op := by
    have honto := s.coordStep_onto (c := c) rfl hstep hsent
    have hcoord : (s.coordStep (.proceed c ch)).1.coord = k.goto c new := congrArg Prod.fst hstep
    obtain ⟨hworkers, hcurrent', hrun, hfinished⟩ := hk
    refine .lost c r' ?_ (honto.spent hspent fun p hp => ?_) ?_ ?_ hopen' hr'
      (honto.others others) (honto.unmarked unmarked ?_ ?_ ?_)
    · rwa [honto.pc]
    · rw [hcoord] at hp
      exact hworkers ▸ hp
    · rw [hcoord]
      exact hcurrent'.trans hcurrent
    · rw [hcoord]
      exact hfind'
    · rw [honto.pc]
      cases new <;> first | rfl | cases hnew
    · rw [hcoord]
      exact hrun.trans unmarked.running
    · rw [hcoord]
      exact hfinished
  rw [Coord.advance] at hstep
  cases hwhere : s.coord.pc c with
  | lostCheck =>
    rw [hwhere] at hstep
    dsimp only at hstep
    rw [unmarked.finished, if_neg Bool.false_ne_true] at hstep
    exact hon hstep (fun _ => rfl) trivial r hr hopen ⟨rfl, rfl, rfl, rfl⟩ hfind
  | lostTransfer =>
    rw [hwhere] at hstep
    exact hon hstep (fun _ => rfl) trivial r hr hopen ⟨rfl, rfl, rfl, rfl⟩ hfind
  | lostBuild cur =>
    rw [hwhere] at hstep
    exact hon hstep (fun _ => rfl) trivial r hr hopen ⟨rfl, rfl, rfl, rfl⟩ hfind
  | lostReport cur b =>
    rw [hwhere] at hstep
    obtain ⟨hopen', hr'⟩ := hopen.reportFailure hr cur true
    refine hon hstep (fun _ => rfl) trivial (r.reportFailure cur true).1 hr' hopen'
      ⟨rfl, rfl, rfl, rfl⟩ ?_
    have hops : (s.coord.store.appendFailure (b.build ch.drawn)).1.ops = s.coord.store.ops := by
      rw [FailureStore.appendFailure_eq]
    show (registry.step (s.coord.store.appendFailure (b.build ch.drawn)).1.ops
      (.reportFailure s.coord.currentOp cur true)).1.find op = _
    rw [hops, hcurrent]
    exact registry_find_self _ (c := .reportFailure op cur true) hfind
  | lostChoose cur =>
    rw [hwhere] at hstep
    dsimp only at hstep
    unfold Coord.lostChoose at hstep
    have hworkers : s.coord.workers ≠ [] := fun hnone =>
      hleft ⟨hnone, by rw [hwhere]; rfl⟩
    obtain ⟨t, ht⟩ := Option.ne_none_iff_exists'.mp (inv.replacement_ne_none hworkers)
    rw [ht, hcurrent] at hstep
    dsimp only at hstep
    obtain ⟨p, hp, rfl⟩ := inv.replacement ht
    have honto := s.coordStep_onto (c := c) rfl hstep fun _ => rfl
    have hne : p.2 ≠ c := hspent.unlisted p hp
    obtain ⟨w, hw, -⟩ := inv.listed p hp
    have hcoord := congrArg Prod.fst hstep
    obtain ⟨hauth, hstate, hrec, hterm⟩ :=
      OperationRuntime.dispatch_live (e := Coord.newAttempt cur ch.drawn) hopen.unrecorded hr
    refine .chosen c p.2 (r.dispatch (Coord.newAttempt cur ch.drawn)).1 (Or.inr ⟨Or.inl ?_, ?_⟩)
      (honto.spent hspent fun p hp => ?_) hne ?_ ?_ ?_ ⟨hrec, ?_, ?_⟩ (Or.inl hstate)
      (honto.others others) (honto.unmarked unmarked ?_ ?_ ?_)
    · rw [honto.pc, hauth]
    · rw [Cluster.coordStep_coord, hcoord]
      exact hcurrent
    · rwa [Cluster.coordStep_coord, hcoord] at hp
    · rw [honto.worker, hw]
      exact Option.some_ne_none w
    · rw [(honto.same p.2 hne).1.pc]
      exact (others p.2 hne).listed p hp rfl
    · rw [Cluster.coordStep_coord, hcoord]
      exact registry_find_self _ (c := .dispatch op (Coord.newAttempt cur ch.drawn)) hfind
    · rw [hterm]
      exact hopen.terminal
    · rw [hauth]
      simp [AuthorityEnvelope.isUnset, Coord.newAttempt]
    · rw [honto.pc]
      rfl
    · rw [Cluster.coordStep_coord, hcoord]
      exact unmarked.running
    · rw [Cluster.coordStep_coord, hcoord]
      rfl
  | unborn | reading | handle | dispatchLock | dispatchSend | dispatchMark | dispatchRun
  | completeConfirm | completeAck | completeFence | completeSave | saving | lostLock | lostVerify
  | lostSend | lostMark | ended =>
    rw [hwhere] at hpc
    exact absurd hpc id

/-- The thread that has chosen a worker sends it the work, and is about to note it. -/
theorem Relay.send {t : ConnId} {r : OperationRuntime} (hspent : s.Spent c) (hne : t ≠ c)
    (hmember : s.worker t ≠ none) (htarget : (s.coord.pc t).Attending)
    (hfind : s.coord.store.ops.find op = some r) (hopen : r.Open) (hr : r.InWork)
    (others : ∀ c', c' ≠ c → s.Aside op c') (unmarked : s.Unmarked) {ch : Choice} {new : Pc}
    {m : WireMessage} (hstep : s.coord.step (.proceed c ch) = (s.coord.goto c new, [.sent t m]))
    (haside : new.Aside op) (hhand : new.atHand = []) (hmarks : new.marks = some t)
    (hcurrent : new = .lostMark t → s.coord.currentOp = op) (htype : m.type = .DISPATCH)
    (hfor : m.IsFor op r.authority) : Relay (s.coordStep (.proceed c ch)).1 op := by
  obtain ⟨w, hw⟩ := Option.ne_none_iff_exists'.mp hmember
  have hcoord : (s.coordStep (.proceed c ch)).1.coord = s.coord.goto c new :=
    congrArg Prod.fst hstep
  have hpc : (s.coordStep (.proceed c ch)).1.coord.pc c = new := by
    rw [hcoord, Coord.goto_pc_self]
  have hsame : ∀ c', c' ≠ c → s.SameAt (s.coordStep (.proceed c ch)).1 c' :=
    fun c' hc => s.coordStep_sameAt hc
  have hpeer : ∀ c', c' ≠ t →
      (s.coordStep (.proceed c ch)).1.toPeer c' = s.toPeer c' := by
    intro c' hc
    rw [Cluster.coordStep_toPeer, hstep]
    simp [sentTo, Ne.symm hc]
  have hqueue : (s.coordStep (.proceed c ch)).1.toPeer t = s.toPeer t ++ [m] := by
    rw [Cluster.coordStep_toPeer, hstep]
    simp [sentTo]
  have hworkers : (s.coordStep (.proceed c ch)).1.coord.workers = s.coord.workers := by
    rw [hcoord]
    rfl
  have hothers : ∀ c', c' ≠ t → (s.coordStep (.proceed c ch)).1.Aside op c' := by
    intro c' hc'
    by_cases hc : c' = c
    · subst hc
      refine ⟨by rwa [hpc], fun m' hm' => ?_, fun w' hw' => ?_, ?_, fun p hp hconn => ?_⟩
      · unfold Cluster.incoming at hm'
        rw [hpc, hhand, Cluster.coordStep_toCoord, hspent.received] at hm'
        cases hm'
      · rw [hspent.worker w' hw']
        rfl
      · rw [hpeer c' hc']
        exact hspent.undelivered
      · rw [hworkers] at hp
        exact absurd hconn (hspent.unlisted p hp)
    · have hold := others c' hc
      refine ⟨?_, ?_, hold.worker, ?_, fun p hp hconn => ?_⟩
      · rw [(hsame c' hc).pc]
        exact hold.pc
      · rw [(hsame c' hc).incoming]
        exact hold.messages
      · rw [hpeer c' hc']
        exact hold.undelivered
      · rw [hworkers] at hp
        rw [(hsame c' hc).pc]
        exact hold.listed p hp hconn
  have hmarked : (s.coordStep (.proceed c ch)).1.MarkedFor op t := by
    refine .pending c (Ne.symm hne) ?_ ?_ (fun c' hc => ?_) (fun hlost => ?_)
    · rw [hcoord]
      exact unmarked.running
    · rwa [hpc]
    · rw [(hsame c' hc).pc]
      exact unmarked.marks c'
    · rw [hcoord]
      exact hcurrent (hpc.symm.trans hlost)
  have htaside := others t hne
  refine .held t w r hw (by rw [hcoord]; exact hfind) hopen ?_ hothers hmarked
    (by rw [hcoord]; exact unmarked.finished)
  by_cases hexited : w.pc = .exited
  · refine .dropped hr.live ?_ (Or.inl hexited) fun m' hm' => Or.inl ?_
    · rwa [(hsame t hne).pc]
    · rw [(hsame t hne).incoming] at hm'
      exact htaside.messages m' hm'
  · have hnone : ∀ m' ∈ s.toPeer t, m'.type ≠ .DISPATCH := by
      refine htaside.undelivered.resolve_right ?_
      rintro ⟨w', hw', hgone⟩
      rw [hw] at hw'
      obtain rfl := Option.some.inj hw'
      exact hexited hgone
    refine .sent hr ?_ (htaside.worker w hw) hexited m ?_ htype (fun m' hm' htype' => ?_) ?_
    · rwa [(hsame t hne).pc]
    · rw [hqueue]
      exact List.mem_append_right _ (List.mem_singleton_self m)
    · rw [hqueue] at hm'
      rcases List.mem_append.mp hm' with hold | hnew
      · exact absurd htype' (hnone m' hold)
      · obtain rfl := List.mem_singleton.mp hnew
        exact hfor
    · rw [(hsame t hne).incoming]
      exact htaside.messages

/-- A thread that has chosen a worker sends it the work, after it has seen that the operation is not
    ended if it recovers it. -/
theorem Relay.dispatch {t : ConnId} {r : OperationRuntime}
    (hpc : s.coord.pc c = .dispatchSend op r.authority t ∨
      (s.coord.pc c = .lostVerify r.authority (some t) ∨ s.coord.pc c = .lostSend r.authority t) ∧
        s.coord.currentOp = op)
    (hspent : s.Spent c) (hne : t ≠ c) (hmember : s.worker t ≠ none)
    (htarget : (s.coord.pc t).Attending) (hfind : s.coord.store.ops.find op = some r)
    (hopen : r.Open) (hr : r.InWork) (others : ∀ c', c' ≠ c → s.Aside op c')
    (unmarked : s.Unmarked) {ch : Choice}
    (hstep : s.coord.step (.proceed c ch) = s.coord.advance c ch) :
    Relay (s.coordStep (.proceed c ch)).1 op := by
  rw [Coord.advance] at hstep
  rcases hpc with hpc | ⟨hpc | hpc, hcurrent⟩
  · rw [hpc] at hstep
    exact Relay.send hspent hne hmember htarget hfind hopen hr others unmarked hstep rfl rfl rfl
      (fun h => by cases h) rfl ⟨rfl, rfl⟩
  · rw [hpc] at hstep
    dsimp only at hstep
    have hlive : isTerminal (s.coord.store.ops.state s.coord.currentOp) = false := by
      rw [hcurrent, OperationRegistry.state, hfind]
      exact hr.live
    rw [hlive, if_neg Bool.false_ne_true] at hstep
    have honto := s.coordStep_onto (c := c) rfl hstep fun _ => rfl
    have hcoord := congrArg Prod.fst hstep
    rw [← Cluster.coordStep_coord] at hcoord
    refine .chosen c t r (Or.inr ⟨Or.inr honto.pc, ?_⟩)
      (honto.spent hspent fun p hp => ?_) hne ?_ ?_ ?_ hopen hr (honto.others others)
      (honto.unmarked unmarked ?_ ?_ ?_)
    · rwa [hcoord]
    · rwa [hcoord] at hp
    · rwa [honto.worker]
    · rwa [(honto.same t hne).1.pc]
    · rwa [hcoord]
    · rw [honto.pc]
      rfl
    · rw [hcoord]
      exact unmarked.running
    · rw [hcoord]
      rfl
  · rw [hpc] at hstep
    dsimp only at hstep
    rw [hcurrent] at hstep
    exact Relay.send hspent hne hmember htarget hfind hopen hr others unmarked hstep trivial rfl rfl
      (fun _ => hcurrent) rfl ⟨rfl, rfl⟩

/-- A request that is received, or that goes on to the choice of a worker. -/
theorem Relay.request (inv : MemberInv s) {q : WireMessage} (htype : q.type = .DISPATCH)
    (hop : q.op = op) (hpc : (s.coord.pc c).Attending) (hw : s.worker c = none)
    (hin : s.incoming c = [q]) (hpeer : ∀ m ∈ s.toPeer c, m.type ≠ .DISPATCH)
    (hnew : s.coord.store.ops.find op = none) (others : ∀ c', c' ≠ c → s.Aside op c')
    (unmarked : s.Unmarked) {a : ClusterAction} (hconn : a.conn = c)
    (hrecoverable : s.Recoverable a) : Relay (s.step a).1 op := by
  have hstay : Relay s op := .asked c q htype hop hpc hw hin hpeer hnew others unmarked
  have hmoves := s.step_moves a
  generalize (s.step a).1 = s', (s.step a).2 = evs at hmoves ⊢
  cases hmoves with
  | idle => exact hstay
  | received c' m rest hread hqueue =>
    obtain rfl : c' = c := hconn
    have hreceives := s.received_receives hread hqueue
    refine .asked c' q htype hop ?_ ?_ ((hreceives.incoming c').trans hin) ?_ ?_
      (hreceives.others others) (hreceives.unmarked unmarked ?_ ?_ ?_)
    · rw [hreceives.coord, Coord.goto_pc_self]
      trivial
    · rwa [hreceives.worker]
    · rwa [hreceives.toPeer]
    · rwa [hreceives.coord]
    · rw [hreceives.coord, Coord.goto_pc_self]
      rfl
    · rw [hreceives.coord]
      exact unmarked.running
    · rw [hreceives.coord]
      rfl
  | coord a ha =>
    obtain rfl : a.conn = c := hconn
    cases hwhere : s.coord.pc a.conn with
    | unborn =>
      cases a with
      | accept c' =>
        have hstep : s.coord.step (.accept c') = (s.coord.goto c' .reading, []) := by
          simp only [Action.conn] at hwhere
          simp [Coord.step, hwhere]
        have honto := s.coordStep_onto (c := c') rfl hstep fun _ => rfl
        have hcoord := congrArg Prod.fst hstep
        rw [← Cluster.coordStep_coord] at hcoord
        refine .asked c' q htype hop ?_ hw ?_ ?_ ?_ (honto.others others)
          (honto.unmarked unmarked ?_ ?_ ?_)
        · rw [honto.pc]
          trivial
        · unfold Cluster.incoming at hin ⊢
          rw [hwhere] at hin
          rw [honto.pc]
          exact hin
        · rwa [honto.toPeer]
        · rwa [hcoord]
        · rw [honto.pc]
          rfl
        · rw [hcoord]
          exact unmarked.running
        · rw [hcoord]
          rfl
      | receive c' m => exact absurd rfl (ha c' m)
      | disconnect c' | proceed c' ch =>
        simp only [Action.conn] at hwhere
        rw [Cluster.coordStep_idle (by simp [Coord.step, Coord.advance, Pc.needsLock, hwhere])]
        exact hstay
    | reading =>
      cases a with
      | disconnect c' =>
        -- the end of the connection is not seen before the request is received
        dsimp only [Action.conn] at hwhere hin
        rw [Cluster.incoming, hwhere, hrecoverable.1] at hin
        cases hin
      | receive c' m => exact absurd rfl (ha c' m)
      | accept c' | proceed c' ch =>
        simp only [Action.conn] at hwhere
        rw [Cluster.coordStep_idle (by simp [Coord.step, Coord.advance, Pc.needsLock, hwhere])]
        exact hstay
    | handle m =>
      rcases Coord.step_of_started (s := s.coord) (a := a) (by simp [hwhere]) with
        hidle | ⟨ch, -, hstep⟩
      · rw [Cluster.coordStep_idle hidle]
        exact hstay
      · unfold Cluster.incoming at hin
        rw [hwhere] at hin
        obtain ⟨rfl, hqueue⟩ := List.cons.inj hin
        rw [Coord.advance, hwhere] at hstep
        dsimp only at hstep
        unfold Coord.handleMessage at hstep
        rw [htype, hop] at hstep
        have honto := s.coordStep_onto (c := a.conn) rfl hstep fun _ => rfl
        have hcoord := congrArg Prod.fst hstep
        rw [← Cluster.coordStep_coord] at hcoord
        refine .choosing a.conn _ honto.pc rfl (honto.spent ⟨?_, hqueue, Or.inl hpeer, ?_⟩ ?_) ?_
          (honto.others others) (honto.unmarked unmarked ?_ ?_ ?_)
        · intro w hw'
          rw [hw] at hw'
          cases hw'
        · rintro p hp hp'
          obtain ⟨w, hw', -⟩ := inv.listed p hp
          rw [hp', hw] at hw'
          cases hw'
        · rw [hcoord]
          exact fun _ hp => hp
        · rwa [hcoord]
        · rw [honto.pc]
          rfl
        · rw [hcoord]
          exact unmarked.running
        · rw [hcoord]
          rfl
    | dispatchLock | dispatchSend | dispatchMark | dispatchRun | completeConfirm | completeAck
    | completeFence | completeSave | saving | lostLock | lostCheck | lostTransfer | lostBuild
    | lostReport | lostChoose | lostVerify | lostSend | lostMark | ended =>
      rw [hwhere] at hpc
      exact absurd hpc id
  | start c' workdir mode wid boot hfresh =>
    obtain rfl : c' = c := hconn
    obtain ⟨hunborn, -, hqueue⟩ := Cluster.of_isFresh hfresh
    rw [Cluster.incoming, hunborn, hqueue] at hin
    cases hin
  | own a c' w pc evs hw' hmove hc' =>
    obtain rfl : c' = c := hc'.symm.trans hconn
    rw [hw] at hw'
    cases hw'
  | deliver c' w pc m rest hw' hqueue hmove =>
    obtain rfl : c' = c := hconn
    rw [hw] at hw'
    cases hw'
  | client => exact absurd hrecoverable id

end Threads

end FailureFabric
