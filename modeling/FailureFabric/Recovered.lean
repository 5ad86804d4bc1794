import FailureFabric.AtWork

namespace FailureFabric

open Library

/-!
# The work is recovered

A worker may be killed at any time, or fail, or give up.  When one operation is asked for, and every
loss of the worker that has the work is noticed, the work is passed on from worker to worker until
it is done, or until a thread that has to choose one finds that there is no worker left.

* `Relay.step` — every step that leaves the work recoverable keeps it in one hand.
-/

section Relay

variable {s s' : Cluster} {op : OperationId}

/-- A step on a connection beside the work, while no running connection is noted. -/
theorem Cluster.Unmarked.beside (h : s.Unmarked) (inv : MemberInv s) {a : ClusterAction}
    (haside : s.Aside op a.conn) (hrecoverable : s.Recoverable a) :
    Beside s (s.step a).1 op a.conn :=
  haside.step inv rfl hrecoverable h.finished (by rw [h.running]; simp) (Or.inl (h.marks _))

/-- What is recorded of the operation stays recorded. -/
theorem Cluster.confirmed_stays {e : AuthorityEnvelope}
    (h : s.coord.store.ops.ConfirmedWith op e) (a : ClusterAction) :
    (s.step a).1.coord.store.ops.ConfirmedWith op e := by
  have hmoves := s.step_moves a
  generalize (s.step a).1 = s', (s.step a).2 = evs at hmoves ⊢
  cases hmoves with
  | received c m rest hpc hqueue => exact (s.coord.step_moves (.receive c m)).confirmed_stays h
  | coord a ha => exact (s.coord.step_moves a).confirmed_stays h
  | idle | start | own | deliver | client => exact h

/-- A step beside the work leaves it in the hand of the worker, and may note the connection. -/
theorem Relay.heldBeside (inv : MemberInv s) {t : ConnId} {w : Worker} {r : OperationRuntime}
    (hw : s.worker t = some w) (hfind : s.coord.store.ops.find op = some r) (hopen : r.Open)
    (hheld : InHand s op t r w) (others : ∀ c', c' ≠ t → s.Aside op c')
    (hmarked : s.MarkedFor op t) (hfinished : s.coord.finished = false) {a : ClusterAction}
    (hconn : a.conn ≠ t) (hrecoverable : s.Recoverable a) : Relay (s.step a).1 op := by
  have hgoesOn (h : Apart s (s.step a).1 op a.conn) (hafter : (s.step a).1.MarkedFor op t)
      (hrun : s.coord.runningConn = some t → (s.step a).1.coord.runningConn = some t) :
      Relay (s.step a).1 op := by
    obtain ⟨r', hfind', honward⟩ := h.onward hfind
    obtain ⟨hsame, hpeer⟩ := h.same t (Ne.symm hconn)
    exact .held t w r' (hsame.worker.trans hw) hfind' (honward.isOpen hopen)
      (hheld.onward hsame hpeer honward hrun) (h.others others) hafter
      (h.finished.trans hfinished)
  have hnot : s.coord.runningConn ≠ some a.conn := by
    cases hmarked with
    | noted hrun =>
      rw [hrun]
      simpa using Ne.symm hconn
    | pending _ _ hrun =>
      rw [hrun]
      simp
  have hbeside (hquiet : (s.coord.pc a.conn).marks = none ∨
      ∀ ch, a ≠ .coord (.proceed a.conn ch)) : Relay (s.step a).1 op := by
    have h := (others a.conn hconn).step inv rfl hrecoverable hfinished hnot hquiet
    exact hgoesOn h.toApart (h.markedFor hmarked) fun hrun => h.runningConn.trans hrun
  by_cases hproceeds : ∃ ch, a = .coord (.proceed a.conn ch)
  · cases hmarked with
    | noted _ _ hmarks => exact hbeside (Or.inl (hmarks _))
    | pending c hne hrun hmark hother hcurrent =>
      by_cases hc : a.conn = c
      · -- the thread that has sent the work notes the connection
        subst hc
        obtain ⟨ch, ha⟩ := hproceeds
        have hstep : (s.step a).1 = (s.coordStep (.proceed a.conn ch)).1 :=
          congrArg (fun a => (s.step a).1) ha
        rcases (others a.conn hconn).noted inv ch hmark hcurrent with
          hidle | ⟨hapart, hnone, hrun', hcurrent'⟩
        · rw [hstep, hidle]
          exact .held t w r hw hfind hopen hheld others
            (.pending a.conn hne hrun hmark hother hcurrent) hfinished
        · rw [← hstep] at hapart hnone hrun' hcurrent'
          refine hgoesOn hapart (.noted hrun' hcurrent' fun c' => ?_) fun _ => hrun'
          by_cases hc' : c' = a.conn
          · rwa [hc']
          · rw [(hapart.same c' hc').1.pc]
            exact hother c' hc'
      · exact hbeside (Or.inl (hother a.conn hc))
  · exact hbeside (Or.inr fun ch ha => hproceeds ⟨ch, ha⟩)

/-- **Step lemma.** Every step that leaves the work recoverable keeps it in one hand, or it is
    done. -/
theorem Relay.step (h : Relay s op) (inv : MemberInv s) {a : ClusterAction}
    (hrecoverable : s.Recoverable a) : Relay (s.step a).1 op := by
  cases h with
  | asked c q htype hop hpc hw hin hpeer hnew others unmarked =>
    by_cases hconn : a.conn = c
    · exact Relay.request inv htype hop hpc hw hin hpeer hnew others unmarked hconn hrecoverable
    · have hbeside := unmarked.beside inv (others a.conn hconn) hrecoverable
      obtain ⟨hsame, hpeer'⟩ := hbeside.same c (Ne.symm hconn)
      exact .asked c q htype hop (by rwa [hsame.pc]) (hsame.worker.trans hw)
        (hsame.incoming.trans hin) (by rwa [hpeer']) (hbeside.unknown hnew)
        (hbeside.others others) (hbeside.unmarked unmarked)
  | choosing c auth hpc hset hspent hnew others unmarked =>
    by_cases hconn : a.conn = c
    · rcases hspent.step (by simp [hpc]) (by simp [hpc]) hconn hrecoverable with
        hidle | ⟨ch, hleft, hstep, hafter⟩
      · rw [hidle]
        exact .choosing c auth hpc hset hspent hnew others unmarked
      · rw [hafter]
        exact Relay.choose inv hpc hset hspent hnew others unmarked hleft hstep
    · have hbeside := unmarked.beside inv (others a.conn hconn) hrecoverable
      obtain ⟨hsame, -⟩ := hbeside.same c (Ne.symm hconn)
      exact .choosing c auth (hsame.pc.trans hpc) hset
        (hbeside.toElsewhere.spent (Ne.symm hconn) hspent) (hbeside.unknown hnew)
        (hbeside.others others) (hbeside.unmarked unmarked)
  | chosen c t r hpc hspent hne hmember htarget hfind hopen hr others unmarked =>
    by_cases hconn : a.conn = c
    · have hstarted : s.coord.pc c ≠ .unborn ∧ s.coord.pc c ≠ .reading := by
        rcases hpc with hpc | ⟨hpc | hpc, -⟩ <;> simp [hpc]
      rcases hspent.step hstarted.1 hstarted.2 hconn hrecoverable with
        hidle | ⟨ch, -, hstep, hafter⟩
      · rw [hidle]
        exact .chosen c t r hpc hspent hne hmember htarget hfind hopen hr others unmarked
      · rw [hafter]
        exact Relay.dispatch hpc hspent hne hmember htarget hfind hopen hr others unmarked hstep
    · have hbeside := unmarked.beside inv (others a.conn hconn) hrecoverable
      obtain ⟨hsame, -⟩ := hbeside.same c (Ne.symm hconn)
      obtain ⟨r', hfind', honward⟩ := hbeside.onward hfind
      have htarget' : (s.step a).1.worker t ≠ none ∧ ((s.step a).1.coord.pc t).Attending := by
        by_cases ht : t = a.conn
        · rw [ht] at hmember htarget ⊢
          exact ⟨hbeside.member hmember, hbeside.attending hmember htarget⟩
        · obtain ⟨hsame', -⟩ := hbeside.same t ht
          rw [hsame'.worker, hsame'.pc]
          exact ⟨hmember, htarget⟩
      refine .chosen c t r' ?_ (hbeside.toElsewhere.spent (Ne.symm hconn) hspent) hne htarget'.1
        htarget'.2 hfind' (honward.isOpen hopen) (honward.inWork hr) (hbeside.others others)
        (hbeside.unmarked unmarked)
      rwa [hsame.pc, honward.authority, hbeside.currentOp]
  | held t w r hw hfind hopen hheld others hmarked hfinished =>
    by_cases hconn : a.conn = t
    · exact Relay.heldStep inv hw hfind hopen hheld others hmarked hfinished hconn hrecoverable
    · exact Relay.heldBeside inv hw hfind hopen hheld others hmarked hfinished hconn hrecoverable
  | lost t r hpc hspent hcurrent hfind hopen hr others unmarked =>
    by_cases hconn : a.conn = t
    · have hstarted : s.coord.pc t ≠ .unborn ∧ s.coord.pc t ≠ .reading := by
        constructor <;>
        · intro hwhere
          rw [hwhere] at hpc
          exact hpc
      rcases hspent.step hstarted.1 hstarted.2 hconn hrecoverable with
        hidle | ⟨ch, hleft, hstep, hafter⟩
      · rw [hidle]
        exact .lost t r hpc hspent hcurrent hfind hopen hr others unmarked
      · rw [hafter]
        exact Relay.recover inv hpc hspent hcurrent hfind hopen hr others unmarked hleft hstep
    · have hbeside := unmarked.beside inv (others a.conn hconn) hrecoverable
      obtain ⟨hsame, -⟩ := hbeside.same t (Ne.symm hconn)
      obtain ⟨r', hfind', honward⟩ := hbeside.onward hfind
      exact .lost t r' (by rwa [hsame.pc]) (hbeside.toElsewhere.spent (Ne.symm hconn) hspent)
        (hbeside.currentOp.trans hcurrent) hfind' (honward.isOpen hopen) (honward.live hr)
        (hbeside.others others) (hbeside.unmarked unmarked)
  | done e h => exact .done e (Cluster.confirmed_stays h a)

end Relay

/-! ### Before the request -/

/-- Nobody has asked for the operation yet. -/
structure Cluster.Unasked (s : Cluster) (op : OperationId) : Prop where
  aside : ∀ c, s.Aside op c
  unmarked : s.Unmarked
  unknown : s.coord.store.ops.find op = none

section Unasked

variable {s : Cluster} {op : OperationId}

theorem unasked_boot {file : Option (List UInt8)}
    (hnew : (Cluster.boot file).coord.store.ops.find op = none) :
    (Cluster.boot file).Unasked op where
  aside := fun _ => ⟨trivial, fun _ hm => (by cases hm), fun _ hw => (by cases hw),
    Or.inl fun _ hm => (by cases hm), fun _ hp => (by cases hp)⟩
  unmarked := ⟨rfl, fun _ => rfl, rfl⟩
  unknown := hnew

/-- **Step lemma.** Workers may join, and may be killed. -/
theorem Cluster.Unasked.step (h : s.Unasked op) (inv : MemberInv s) {a : ClusterAction}
    (hrecoverable : s.Recoverable a) : (s.step a).1.Unasked op := by
  have hbeside := h.unmarked.beside inv (h.aside a.conn) hrecoverable
  refine ⟨fun c => ?_, hbeside.unmarked h.unmarked, hbeside.unknown h.unknown⟩
  by_cases hc : c = a.conn
  · rw [hc]
    exact hbeside.aside
  · exact hbeside.toElsewhere.aside hc (h.aside c)

/-- A client has connected, and has sent nothing. -/
structure Cluster.Listens (s : Cluster) (c : ConnId) : Prop where
  worker : s.worker c = none
  pc : (s.coord.pc c).Attending
  incoming : s.incoming c = []

/-- The client asks. -/
theorem Cluster.Unasked.ask (h : s.Unasked op) {c : ConnId} (hlistens : s.Listens c)
    {q : WireMessage} (htype : q.type = .DISPATCH) (hop : q.op = op) :
    Relay (s.step (.client c q)).1 op := by
  have hstep : (s.step (.client c q)).1 =
      { s with toCoord := Function.update s.toCoord c (s.toCoord c ++ [q]) } := by
    simp [Cluster.step, hlistens.worker]
  have hnot : ¬ s.Gone c := by
    rintro ⟨w, hw, -⟩
    rw [hlistens.worker] at hw
    cases hw
  rw [hstep]
  refine .asked c q htype hop hlistens.pc hlistens.worker ?_ ((h.aside c).undelivered.resolve_right
    hnot) h.unknown (fun c' hc' => ?_) ⟨h.unmarked.running, h.unmarked.marks, h.unmarked.finished⟩
  · have hin := hlistens.incoming
    unfold Cluster.incoming at hin ⊢
    dsimp only
    rw [Function.update_self, ← List.append_assoc, hin]
    rfl
  · have helse : Elsewhere s
        { s with toCoord := Function.update s.toCoord c (s.toCoord c ++ [q]) } c :=
      ⟨fun c₁ hc₁ => ⟨⟨rfl, rfl, Function.update_of_ne hc₁ ..⟩, rfl⟩, fun _ hp => Or.inl hp⟩
    exact helse.aside hc' (h.aside c')

/-- The request is no registration. -/
theorem MemberInv.ask (inv : MemberInv s) {c : ConnId} (hlistens : s.Listens c) {q : WireMessage}
    (htype : q.type = .DISPATCH) : MemberInv (s.step (.client c q)).1 := by
  have hnone := hlistens.worker
  have hstep : (s.step (.client c q)).1 =
      { s with toCoord := Function.update s.toCoord c (s.toCoord c ++ [q]) } := by
    simp [Cluster.step, hnone]
  rw [hstep]
  refine inv.peer (c := c) [q] rfl (fun c' hc => ⟨rfl, Function.update_of_ne hc ..⟩)
    (Function.update_self ..) (fun w hw => ?_) (fun w hw => ?_) (fun m hm hregister => ?_)
  · rw [hnone] at hw
    cases hw
  · dsimp only at hw
    rw [hnone] at hw
    cases hw
  · rw [List.mem_singleton.mp hm, htype] at hregister
    cases hregister

end Unasked

/-! ### The activity ends -/

/-- Some process takes a step, or the end of a connection is noticed, the work stays recoverable,
    and something changes. -/
def Cluster.Copes (s s' : Cluster) : Prop :=
  ∃ a, (s.Inner a ∨ ∃ c, a = .coord (.disconnect c)) ∧ s.Recoverable a ∧ s' = (s.step a).1 ∧ s' ≠ s

/-- **Termination.** The processes cannot go on forever. -/
theorem Cluster.UsedIn.copes_terminates {s : Cluster} {conns : Finset ConnId}
    (hin : s.UsedIn conns) : Terminates Cluster.Copes s := by
  -- the end of any connection may be noticed
  refine hin.terminates_of (fun _ => true) ?_
  rintro s s' ⟨a, ha, -, hafter, hne⟩
  refine ⟨a, ha.imp_right ?_, hafter, hne⟩
  rintro ⟨c, rfl⟩
  rfl

/-! ### Where it ends -/

/-- The operation is completed and recorded, or a thread that has to choose a worker finds none. -/
def Cluster.Recovered (op : OperationId) (s : Cluster) : Prop :=
  s.coord.store.ops.Confirmed op ∨ ∃ c, s.coord.NoneLeft c

section Rest

variable {s : Cluster} {op : OperationId}

/-- A thread at rest is not about to note anything. -/
theorem Pc.marks_of_resting {pc : Pc} (h : pc.resting = true) : pc.marks = none := by
  cases pc <;> first | rfl | cases h

/-- At rest, what is attended to is handled. -/
theorem Cluster.AtRest.attended (hrest : s.AtRest) {c : ConnId}
    (hpc : (s.coord.pc c).Attending) :
    s.incoming c = [] ∧ (s.Used c → s.coord.pc c = .reading) := by
  have hresting := hrest.coord.resting c
  cases hwhere : s.coord.pc c with
  | unborn | reading =>
    refine ⟨?_, fun hused => ?_⟩
    · by_contra hne
      have hqueue : s.toCoord c ≠ [] := by
        rintro hempty
        simp [Cluster.incoming, hwhere, hempty, Pc.atHand] at hne
      have hended := hrest.received c hqueue
      rw [hwhere] at hended
      cases hended
    · first | rfl | exact absurd hwhere (hrest.accepted c hused)
  | handle m =>
    rw [hwhere] at hresting
    cases hresting
  | dispatchLock | dispatchSend | dispatchMark | dispatchRun | completeConfirm | completeAck
  | completeFence | completeSave | saving | lostLock | lostCheck | lostTransfer | lostBuild
  | lostReport | lostChoose | lostVerify | lostSend | lostMark | ended =>
    rw [hwhere] at hpc
    exact absurd hpc id

/-- Where nothing can go on, the work is done, or there is no worker left. -/
theorem Relay.recovered (h : Relay s op) (hlock : s.coord.LockInv)
    (hstuck : ∀ s', ¬ s.Copes s') : s.Recovered op := by
  by_cases hleft : ∃ c, s.coord.NoneLeft c
  · exact Or.inr hleft
  have hrest : s.AtRest := by
    refine (Cluster.restsBut_of_stuck hlock fun a hinner hnot => ?_).atRest
    rw [Cluster.attempt_reads]
    by_contra hne
    refine hstuck _ ⟨a, Or.inl hinner, ?_, rfl, hne⟩
    cases a with
    | coord a =>
      cases a with
      | accept | receive => trivial
      | disconnect c => exact absurd rfl (hnot c)
      | proceed c ch => exact fun hnone => hleft ⟨c, hnone⟩
    | proceed | deliver => trivial
    | start | lose | kill | client => exact absurd hinner id
  have hbusy {c : ConnId} {pc : Pc} (hpc : s.coord.pc c = pc) (hpc' : pc.resting = false) :
      s.Recovered op := by
    have hresting := hrest.coord.resting c
    rw [hpc, hpc'] at hresting
    cases hresting
  cases h with
  | asked c q _ _ hpc _ hin =>
    have hempty := (hrest.attended hpc).1
    rw [hin] at hempty
    cases hempty
  | choosing c auth hpc => exact hbusy hpc rfl
  | chosen c t r hpc =>
    rcases hpc with hpc | ⟨hpc | hpc, -⟩
    · exact hbusy hpc rfl
    · exact hbusy hpc rfl
    · exact hbusy hpc rfl
  | held t w r hw hfind hopen hheld others hmarked hfinished =>
    have hused : s.Used t := Or.inl (by simp [hw])
    have hidle : w.pc = .exited ∨ w.receives = true ∧ s.toPeer t = [] := hrest.workers t w hw
    have hworks {pc : WorkerPc} (hpc : w.pc = pc) (htask : pc.task ≠ none) : s.Recovered op :=
      absurd (hpc ▸ hrest.task_eq_none hw) htask
    cases hheld with
    | sent _ _ _ hwaits m hm =>
      rcases hidle with hexited | ⟨-, hempty⟩
      · exact absurd hexited hwaits
      · rw [hempty] at hm
        cases hm
    | starting _ _ m hw' => exact hworks hw' (by simp [WorkerPc.task])
    | working _ _ m hw' =>
      rcases hw' with hw' | hw' <;> exact hworks hw' (by simp [WorkerPc.task])
    | reported _ hpc _ pre m _ hlast =>
      have hempty := (hrest.attended hpc).1
      rw [hlast] at hempty
      simp at hempty
    | confirming _ hpc | given _ hpc => exact hbusy hpc rfl
    | dropped hr hpc hw' hin =>
      rcases hw' with hexited | ⟨m, hfailing⟩
      · -- the end of the connection can be noticed
        obtain ⟨hempty, hreading⟩ := hrest.attended hpc
        have hwhere := hreading hused
        have hqueue : s.toCoord t = [] := by
          rw [Cluster.incoming, hwhere] at hempty
          exact hempty
        have hrun : s.coord.runningConn = some t := by
          cases hmarked with
          | noted hrun => exact hrun
          | pending c _ _ hmarks =>
            rw [Pc.marks_of_resting (hrest.coord.resting c)] at hmarks
            cases hmarks
        refine absurd ⟨.coord (.disconnect t), Or.inr ⟨t, rfl⟩, ⟨hqueue, fun w' hw' => ?_⟩, rfl,
          fun heq => ?_⟩ (hstuck _)
        · obtain rfl := Option.some.inj (hw.symm.trans hw')
          exact ⟨hexited, Or.inr hrun⟩
        · have hsame := congrArg (fun s : Cluster => s.coord.pc t) heq
          simp [Cluster.step, Cluster.coordStep, Coord.step, hwhere] at hsame
      · exact hworks hfailing (by simp [WorkerPc.task])
  | lost t r hpc =>
    cases hwhere : s.coord.pc t with
    | lostCheck | lostTransfer | lostBuild | lostReport | lostChoose => exact hbusy hwhere rfl
    | unborn | reading | handle | dispatchLock | dispatchSend | dispatchMark | dispatchRun
    | completeConfirm | completeAck | completeFence | completeSave | saving | lostLock | lostVerify
    | lostSend | lostMark | ended =>
      rw [hwhere] at hpc
      exact absurd hpc id
  | done e h =>
    obtain ⟨r, hr, hrec, hstate, -⟩ := h
    exact Or.inl ⟨r, hr, hrec, hstate⟩

end Rest

/-! ### The result -/

/-- The invariant of the runs after the request. -/
structure RecoveryInv (op : OperationId) (s : Cluster) : Prop where
  member : MemberInv s
  lock : s.coord.LockInv
  relay : Relay s op

/-- **Step lemma.** -/
theorem RecoveryInv.step {s : Cluster} {op : OperationId} (inv : RecoveryInv op s)
    {a : ClusterAction} (hrecoverable : s.Recoverable a) : RecoveryInv op (s.step a).1 :=
  ⟨inv.member.step hrecoverable, s.lockInv_step inv.lock a, inv.relay.step inv.member hrecoverable⟩

/-- Before the request, workers join, and some may be killed. -/
theorem unasked_run {file : Option (List UInt8)} {op : OperationId}
    (hnew : (Cluster.boot file).coord.store.ops.find op = none) {acts : List ClusterAction}
    (hrecoverable : cluster.Always Cluster.Recoverable (.boot file) acts) :
    MemberInv (cluster.run (.boot file) acts) ∧ (cluster.run (.boot file) acts).Unasked op :=
  Machine.always_induction (M := cluster) (P := fun s => MemberInv s ∧ s.Unasked op)
    (fun _ _ ha inv => ⟨inv.1.step ha, inv.2.step inv.1 ha⟩)
    ⟨memberInv_boot file, unasked_boot hnew⟩ hrecoverable

/-- **Work is recovered.** A client asks for one new operation, and workers may be killed, fail or
    give up at any time.  As long as the work stays recoverable, the processes left to themselves
    come to rest, whichever of them takes the next step; and then the operation is completed and
    recorded, unless a thread that has to choose a worker finds that there is none. -/
theorem work_recovered (file : Option (List UInt8)) (before after : List ClusterAction)
    (c : ConnId) (q : WireMessage) (htype : q.type = .DISPATCH)
    (hnew : (Cluster.boot file).coord.store.ops.find q.op = none)
    (hbefore : cluster.Always Cluster.Recoverable (.boot file) before)
    (hlistens : (cluster.run (.boot file) before).Listens c)
    (hafter : cluster.Always Cluster.Recoverable
      (cluster.run (.boot file) (before ++ [.client c q])) after) :
    Settles Cluster.Copes (Cluster.Recovered q.op)
      (cluster.run (.boot file) (before ++ .client c q :: after)) := by
  obtain ⟨hmember, hunasked⟩ := unasked_run hnew hbefore
  have hlock : ∀ acts, (cluster.run (.boot file) acts).coord.LockInv := fun acts =>
    Machine.run_induction (M := cluster) (P := fun s => s.coord.LockInv)
      (fun s a inv => s.lockInv_step inv a) (lockInv_boot file) acts
  have hasked : RecoveryInv q.op (cluster.run (.boot file) (before ++ [.client c q])) := by
    have hstep := hlock (before ++ [.client c q])
    rw [Machine.run_concat] at hstep ⊢
    exact ⟨hmember.ask hlistens htype, hstep, hunasked.ask hlistens htype rfl⟩
  have hinv : RecoveryInv q.op (cluster.run (.boot file) (before ++ .client c q :: after)) := by
    rw [show before ++ .client c q :: after = before ++ [.client c q] ++ after by simp,
      Machine.run_append]
    exact Machine.always_induction (M := cluster) (fun _ _ ha inv => inv.step ha) hasked hafter
  refine (Cluster.usedIn_run file _).copes_terminates.settles (fun s s' inv hstep => ?_) hinv
    (fun s inv hstuck => inv.relay.recovered inv.lock hstuck)
  obtain ⟨a, -, hrecoverable, rfl, -⟩ := hstep
  exact inv.step hrecoverable

/-- A second worker starts on connection 2 and registers. -/
def secondJoins : List ClusterAction :=
  [.start 2 [] (Text.ofLiteral "normal") ⟨.ofByte 9⟩ ⟨.ofByte 10⟩, .proceed 2 true,
    .coord (.accept 2),
    .coord (.receive 2 { type := .REGISTER, worker := ⟨.ofByte 9⟩, boot := ⟨.ofByte 10⟩ }),
    .coord (.proceed 2 {}), .deliver 2]

/-- What a client on connection 1 asks for. -/
def sampleRequest : WireMessage := { type := .DISPATCH, op := sampleOp }

/-- The first worker is sent the work, takes it, and is killed. -/
def firstKilled : List ClusterAction := askedRun.map .coord ++ [.deliver 0, .kill 0]

/-- A step that starts nothing and notices no end leaves the work recoverable if the thread that
    takes it finds a worker when it has to choose one. -/
def Cluster.finds (s : Cluster) : ClusterAction → Bool
  | .coord (.proceed c _) => !decide (s.coord.NoneLeft c)
  | .coord (.accept _) | .coord (.receive ..) | .proceed .. | .deliver _ | .lose _ | .kill _ => true
  | .coord (.disconnect _) | .start .. | .client .. => false

theorem always_recoverable {s : Cluster} {acts : List ClusterAction}
    (h : cluster.Always (fun s a => s.finds a = true) s acts) :
    cluster.Always Cluster.Recoverable s acts := by
  refine h.imp fun s a ha => ?_
  cases a with
  | coord a =>
    cases a with
    | proceed c ch => exact of_decide_eq_false ((Bool.not_eq_true' _).mp ha)
    | accept | receive => trivial
    | disconnect => cases ha
  | proceed | deliver | lose | kill => trivial
  | start | client => cases ha

/-- Two workers join, a client asks, the first worker takes the work and is killed; when they are
    left alone, the second one does it. -/
theorem work_recovered_killed :
    Settles Cluster.Copes (Cluster.Recovered sampleOp) (cluster.run (.boot none)
      (workerJoins ++ secondJoins ++ .client 1 sampleRequest :: firstKilled)) := by
  have hjoin : cluster.Always Cluster.Recoverable (.boot none) (workerJoins ++ secondJoins) := by
    refine (Machine.always_append ..).mpr ⟨⟨⟨rfl, fun _ _ h => by cases h⟩,
      always_recoverable (by decide +kernel)⟩, ⟨rfl, fun c w hw => ?_⟩,
      always_recoverable (by decide +kernel)⟩
    -- the only worker so far is the first one
    by_cases hc : c = 0
    · have hfirst : ((cluster.run (.boot none) workerJoins).worker 0).all
          (fun w => w.wid ≠ ⟨.ofByte 9⟩) = true := by decide +kernel
      rw [hc] at hw
      rw [hw] at hfirst
      exact of_decide_eq_true hfirst
    · have hunused := Cluster.usedIn_run none workerJoins c
        (by simpa [workerJoins, ClusterAction.conn, Action.conn] using hc)
      rw [hunused.2.1] at hw
      cases hw
  have hlistens : (cluster.run (.boot none) (workerJoins ++ secondJoins)).Listens 1 := by
    obtain ⟨hpc, hw, hqueue⟩ := Cluster.usedIn_run none (workerJoins ++ secondJoins) 1 (by decide)
    refine ⟨hw, by rw [hpc]; trivial, ?_⟩
    rw [Cluster.incoming, hpc, hqueue]
    rfl
  exact work_recovered none (workerJoins ++ secondJoins) firstKilled 1 sampleRequest rfl rfl hjoin
    hlistens (always_recoverable (by decide +kernel))

end FailureFabric
