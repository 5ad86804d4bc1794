import FailureFabric.Relay

namespace FailureFabric

open Library

/-!
# The connection that has the work

What the worker that has been sent the work does, and what the thread of its connection does with
what it reports.

* `InHand.goesOn` — the thread handles a message, and the work stays in the hand of the worker;
* `Relay.heldThread`, `Relay.heldWorker` — the steps of the thread and of the worker.
-/

section AtWork

variable {s s' : Cluster} {op : OperationId} {t : ConnId} {r r' : OperationRuntime}
  {w w' : Worker}

theorem Pc.Attending.marks {pc : Pc} (h : pc.Attending) : pc.marks = none := by
  cases pc <;> first | rfl | exact absurd h id

theorem InHand.marks (h : InHand s op t r w) : (s.coord.pc t).marks = none := by
  cases h with
  | sent _ hpc | starting _ hpc | working _ hpc | reported _ hpc | dropped _ hpc => exact hpc.marks
  | confirming _ hpc | given _ hpc =>
    rw [hpc]
    rfl

/-- A step on the connection that has the work leaves it there if it keeps the running
    connection. -/
theorem Relay.stays (h : Elsewhere s s' t) (hw : s'.worker t = some w')
    (hfind : s'.coord.store.ops.find op = some r') (hopen : r'.Open) (hheld : InHand s' op t r' w')
    (others : ∀ c', c' ≠ t → s.Aside op c') (hmarked : s.MarkedFor op t)
    (hfinished : s.coord.finished = false) (hsaved : s'.coord.finished = s.coord.finished)
    (hrun : s'.coord.runningConn = s.coord.runningConn)
    (hcurrent : s'.coord.currentOp = s.coord.currentOp) : Relay s' op := by
  refine .held t w' r' hw hfind hopen hheld (h.others others) ?_ (hsaved.trans hfinished)
  have hmarks : ∀ c', (s.coord.pc c').marks = none → (s'.coord.pc c').marks = none := by
    intro c' hnone
    by_cases hc : c' = t
    · rw [hc]
      exact hheld.marks
    · rwa [(h.same c' hc).1.pc]
  cases hmarked with
  | noted hrunning hop hnone =>
    exact .noted (hrun.trans hrunning) (hcurrent.trans hop) fun c' => hmarks c' (hnone c')
  | pending c hne hrunning hmark hother hop =>
    have hpc := (h.same c hne).1.pc
    refine .pending c hne (hrun.trans hrunning) (by rwa [hpc])
      (fun c' hc' => hmarks c' (hother c' hc')) fun hlost => ?_
    rw [hcurrent]
    exact hop (hpc.symm.trans hlost)

/-! ### The thread -/

/-- The thread reads on, and has handled nothing or a message that is no report of the end. -/
theorem InHand.goesOn (h : InHand s op t r w) (hbefore : (s.coord.pc t).Attending)
    (hafter : (s'.coord.pc t).Attending) {more : List WireMessage}
    (hpeer : s'.toPeer t = s.toPeer t ++ more) (hmore : ∀ m ∈ more, m.type ≠ .DISPATCH)
    (honward : r.Onward r')
    (hin : s.incoming t = s'.incoming t ∨ ∃ m, s.incoming t = m :: s'.incoming t ∧
      m.type ≠ .COMPLETE ∧
      (m.Tells .RUNNING op r.authority → r.InWork → r'.machine.state = .RUNNING)) :
    InHand s' op t r' w := by
  have hkeeps : ∀ m ∈ s'.incoming t, m ∈ s.incoming t := by
    intro m hm
    rcases hin with hsame | ⟨m', hcons, -⟩
    · rwa [hsame]
    · rw [hcons]
      exact List.mem_cons_of_mem _ hm
  cases h with
  | sent hr hpc htask hwaits m hm htype honly hregisters =>
    refine .sent (honward.inWork hr) hafter htask hwaits m ?_ htype (fun m' hm' htype' => ?_)
      fun m' hm' => hregisters m' (hkeeps m' hm')
    · rw [hpeer]
      exact List.mem_append_left _ hm
    · rw [hpeer] at hm'
      rw [honward.authority]
      have hold := (List.mem_append.mp hm').resolve_right fun hnew => hmore m' hnew htype'
      exact honly m' hold htype'
  | starting hr hpc m hw hm hregisters =>
    exact .starting (honward.inWork hr) hafter m hw (by rwa [honward.authority])
      fun m' hm' => hregisters m' (hkeeps m' hm')
  | working hr hpc m hw hm htypes hruns =>
    refine .working (honward.inWork hr) hafter m hw (by rwa [honward.authority])
      (fun m' hm' => htypes m' (hkeeps m' hm')) ?_
    rcases hin with hsame | ⟨m', hcons, -, hrunning⟩
    · rw [← hsame]
      exact honward.runsAfter hruns
    · rw [hcons] at hruns
      exact honward.runsAfter_cons hruns fun htells => hrunning htells hr
  | reported hr hpc hw pre m hm hlast hpre hruns =>
    rcases hin with hsame | ⟨m', hcons, hne, hrunning⟩
    · exact .reported (honward.inWork hr) hafter hw pre m (by rwa [honward.authority])
        (hsame.symm.trans hlast) hpre (honward.runsAfter hruns)
    · rw [hcons] at hlast
      cases pre with
      | nil =>
        obtain ⟨rfl, -⟩ := List.cons.inj hlast
        exact absurd hm.type hne
      | cons m₁ pre =>
        obtain ⟨rfl, hrest⟩ := List.cons.inj hlast
        exact .reported (honward.inWork hr) hafter hw pre m (by rwa [honward.authority]) hrest
          (fun m' hm' => hpre m' (List.mem_cons_of_mem _ hm'))
          (honward.runsAfter_cons hruns fun htells => hrunning htells hr)
  | confirming hr hpc | given hr hpc =>
    rw [hpc] at hbefore
    exact absurd hbefore id
  | dropped hr hpc hw htypes =>
    exact .dropped (honward.live hr) hafter hw fun m' hm' => htypes m' (hkeeps m' hm')

/-- What a thread has handled is taken off the front. -/
theorem Cluster.incoming_handled {m : WireMessage} (hpc : s.coord.pc t = .handle m)
    (hafter : (s'.coord.pc t).atHand = []) (hqueue : s'.toCoord t = s.toCoord t) :
    s.incoming t = m :: s'.incoming t := by
  unfold Cluster.incoming
  rw [hpc, hafter, hqueue]
  rfl

/-- A call on another operation leaves what the registry knows of this one. -/
theorem registry_find_other {reg : OperationRegistry} {rc : RegistryCall} (h : op ≠ rc.op) :
    (registry.step reg rc).1.find op = reg.find op := by
  rw [registry_find_step, if_neg h]

/-- The worker's registration is answered, and the work stays where it is. -/
theorem Relay.heldRegister (inv : MemberInv s) (hw : s.worker t = some w)
    (hfind : s.coord.store.ops.find op = some r) (hopen : r.Open) (hheld : InHand s op t r w)
    (others : ∀ c', c' ≠ t → s.Aside op c') (hmarked : s.MarkedFor op t)
    (hfinished : s.coord.finished = false) {a : Action} (hconn : a.conn = t) {m : WireMessage}
    (hpc : s.coord.pc t = .handle m) {ch : Choice}
    (hstep : s.coord.step a = s.coord.handleMessage t m ch) (htype : m.type = .REGISTER) :
    Relay (s.coordStep a).1 op := by
  obtain ⟨w₁, hw₁, hname⟩ := inv.registers t m (by simp [Cluster.incoming, hpc, Pc.atHand]) htype
  rw [Coord.handleMessage_register ch htype (hname ▸ inv.named _ _ hw₁)] at hstep
  have helse : Elsewhere s (s.coordStep a).1 t := Cluster.coordStep_elsewhere hconn fun c' hc => by
    rw [hstep]
    simp [sentTo, Ne.symm hc]
  have hcoord := congrArg Prod.fst hstep
  rw [← Cluster.coordStep_coord] at hcoord
  have hafter : (s.coordStep a).1.coord.pc t = .reading := by rw [hcoord, Coord.goto_pc_self]
  have hfind' : (s.coordStep a).1.coord.store.ops.find op = some r := by rwa [hcoord]
  have hpeer : (s.coordStep a).1.toPeer t =
      s.toPeer t ++ [{ type := .REGISTER_ACK, worker := m.worker }] := by
    rw [Cluster.coordStep_toPeer, hstep]
    simp [sentTo]
  refine Relay.stays helse hw hfind' hopen ?_ others hmarked hfinished ?_ ?_ ?_
  · refine hheld.goesOn ?_ ?_ hpeer (fun m' hm' => ?_) (Or.inl rfl)
      (Or.inr ⟨m, ?_, ?_, fun htells => ?_⟩)
    · rw [hpc]
      trivial
    · rw [hafter]
      trivial
    · rw [List.mem_singleton.mp hm']
      simp
    · exact Cluster.incoming_handled hpc (by rw [hafter]; rfl) rfl
    · rw [htype]
      simp
    · exact absurd (htells.type.symm.trans htype) (by simp)
  all_goals rw [hcoord]; rfl

/-- A step of the thread that sends nothing and keeps the running connection. -/
theorem Relay.staysOnto (hw : s.worker t = some w) (others : ∀ c', c' ≠ t → s.Aside op c')
    (hmarked : s.MarkedFor op t) (hfinished : s.coord.finished = false) {a : Action}
    (hconn : a.conn = t) {k : Coord} {new : Pc} {evs : List Event}
    (hstep : s.coord.step a = (k.goto t new, evs)) (hsent : ∀ c', sentTo c' evs = [])
    (hk : k.currentOp = s.coord.currentOp ∧ k.runningConn = s.coord.runningConn ∧
      k.finished = s.coord.finished)
    (hfind : k.store.ops.find op = some r') (hopen : r'.Open)
    (hheld : Onto s (s.coordStep a).1 t new → InHand (s.coordStep a).1 op t r' w) :
    Relay (s.coordStep a).1 op := by
  have honto := s.coordStep_onto hconn hstep hsent
  have hcoord : (s.coordStep a).1.coord = k.goto t new := congrArg Prod.fst hstep
  refine Relay.stays honto.toElsewhere hw ?_ hopen (hheld honto) others hmarked hfinished ?_ ?_ ?_
  all_goals rw [hcoord]
  · exact hfind
  · exact hk.2.2
  · exact hk.2.1
  · exact hk.1

/-- A report that the worker runs, or that it has failed, is handled. -/
theorem Relay.heldCall (hw : s.worker t = some w) (hfind : s.coord.store.ops.find op = some r)
    (hopen : r.Open) (others : ∀ c', c' ≠ t → s.Aside op c') (hmarked : s.MarkedFor op t)
    (hfinished : s.coord.finished = false) {a : Action} (hconn : a.conn = t) (rc : RegistryCall)
    (hstep : s.coord.step a =
      ((s.coord.call rc).1.goto t .reading, [.applied rc (s.coord.call rc).2]))
    (hheld : Onto s (s.coordStep a).1 t .reading →
      (op ≠ rc.op → InHand (s.coordStep a).1 op t r w) ∧
      (op = rc.op → (rc.onRuntime r).1.Open ∧ InHand (s.coordStep a).1 op t (rc.onRuntime r).1 w)) :
    Relay (s.coordStep a).1 op := by
  have honto := s.coordStep_onto hconn hstep fun _ => rfl
  by_cases hop : op = rc.op
  · obtain ⟨hopen', hheld'⟩ := (hheld honto).2 hop
    refine Relay.staysOnto hw others hmarked hfinished hconn hstep (fun _ => rfl) ⟨rfl, rfl, rfl⟩ ?_
      hopen' fun _ => hheld'
    subst hop
    exact registry_find_self _ hfind
  · exact Relay.staysOnto hw others hmarked hfinished hconn hstep (fun _ => rfl) ⟨rfl, rfl, rfl⟩
      ((registry_find_other hop).trans hfind) hopen fun _ => (hheld honto).1 hop

/-- The thread handles what the worker has sent. -/
theorem Relay.heldHandle (inv : MemberInv s) (hw : s.worker t = some w)
    (hfind : s.coord.store.ops.find op = some r) (hopen : r.Open) (hheld : InHand s op t r w)
    (others : ∀ c', c' ≠ t → s.Aside op c') (hmarked : s.MarkedFor op t)
    (hfinished : s.coord.finished = false) {a : Action} (hconn : a.conn = t) {m : WireMessage}
    (hpc : s.coord.pc t = .handle m) {ch : Choice}
    (hstep : s.coord.step a = s.coord.handleMessage t m ch) : Relay (s.coordStep a).1 op := by
  have hbefore : (s.coord.pc t).Attending := by
    rw [hpc]
    trivial
  have hhandled {new : Pc} (hnew : new.atHand = []) (honto : Onto s (s.coordStep a).1 t new) :
      s.incoming t = m :: (s.coordStep a).1.incoming t :=
    Cluster.incoming_handled hpc (by rw [honto.pc, hnew]) rfl
  by_cases hregister : m.type = .REGISTER
  · exact Relay.heldRegister inv hw hfind hopen hheld others hmarked hfinished hconn hpc hstep
      hregister
  by_cases hrunning : m.type = .RUNNING
  · unfold Coord.handleMessage at hstep
    rw [hrunning] at hstep
    refine Relay.heldCall hw hfind hopen others hmarked hfinished hconn (.run m.op m.authority)
      hstep fun honto => ?_
    have hgoes {r' : OperationRuntime} (honward : r.Onward r')
        (hruns : m.Tells .RUNNING op r.authority → r.InWork → r'.machine.state = .RUNNING) :
        InHand (s.coordStep a).1 op t r' w :=
      hheld.goesOn hbefore (by rw [honto.pc]; trivial)
        ((honto.toPeer t).trans (List.append_nil _).symm) (fun _ hm => by cases hm) honward
        (Or.inr ⟨m, hhandled rfl honto, by simp [hrunning], hruns⟩)
    refine ⟨fun hop => hgoes (Or.inl rfl) fun htells => absurd htells.isFor.op.symm hop,
      fun hop => ?_⟩
    have honward : r.Onward (r.run m.authority).1 := r.run_cases m.authority
    refine ⟨honward.isOpen hopen, hgoes honward fun htells hr => ?_⟩
    rw [htells.isFor.authority]
    exact hopen.run_self hr
  have hmem : m ∈ s.incoming t := by simp [Cluster.incoming, hpc, Pc.atHand]
  have hneither : ¬ (m.type = .REGISTER ∨ m.type = .RUNNING) := by
    rintro (h | h)
    · exact hregister h
    · exact hrunning h
  cases hheld with
  | sent _ _ _ _ _ _ _ _ hin | starting _ _ _ _ _ hin => exact absurd (hin m hmem) hregister
  | working _ _ _ _ _ hin => exact absurd (hin m hmem) hneither
  | confirming _ hpc' | given _ hpc' =>
    rw [hpc] at hpc'
    cases hpc'
  | reported hr _ hexited pre m₁ hm₁ hlast hpre hruns =>
    have hcons : s.incoming t = m :: s.toCoord t := by simp [Cluster.incoming, hpc, Pc.atHand]
    cases pre with
    | cons m₂ pre =>
      obtain ⟨rfl, -⟩ := List.cons.inj (hcons.symm.trans hlast)
      exact absurd (hpre m List.mem_cons_self) hneither
    | nil =>
      -- the report of the end, and the operation runs
      obtain ⟨rfl, -⟩ := List.cons.inj (hcons.symm.trans hlast)
      have hstate : r.machine.state = .RUNNING := by
        rcases hruns with hstate | ⟨_, hm, -⟩
        · exact hstate
        · cases hm
      unfold Coord.handleMessage at hstep
      rw [hm₁.type, hm₁.isFor.op, hm₁.isFor.authority] at hstep
      have hok : (s.coord.call (.reportCompletion op r.authority false)).2 = .OK := by
        show (registry.step s.coord.store.ops (.reportCompletion op r.authority false)).2 = .OK
        rw [registry_step_result, RegistryCall.op, hfind]
        exact hopen.reportCompletion_self hstate
      dsimp only at hstep
      rw [if_pos hok] at hstep
      rcases r.reportCompletion_cases r.authority with ⟨hno, -⟩ | ⟨-, hreported, -⟩
      · exact absurd (hopen.reportCompletion_self hstate) hno
      · have hafter : (registry.step s.coord.store.ops
            (.reportCompletion op r.authority false)).1.find op =
              some { r with machine := ⟨.COMPLETION_REPORTED⟩ } := by
          rw [← hreported]
          exact registry_find_self _ (c := .reportCompletion op r.authority false) hfind
        exact Relay.staysOnto hw others hmarked hfinished hconn hstep (fun _ => rfl)
          ⟨rfl, rfl, rfl⟩ hafter ⟨hopen.unrecorded, hopen.terminal, hopen.authority⟩
          fun honto => .confirming rfl honto.pc hexited
  | dropped hr _ hexited hin =>
    have hfailure : m.type = .FAILURE := by
      rcases hin m hmem with h | h | h
      · exact absurd h hregister
      · exact absurd h hrunning
      · exact h
    unfold Coord.handleMessage at hstep
    rw [hfailure] at hstep
    refine Relay.heldCall hw hfind hopen others hmarked hfinished hconn
      (.reportFailure m.op m.authority m.flag) hstep fun honto => ?_
    have hdrops {r' : OperationRuntime} (hr' : isTerminal r'.machine.state = false) :
        InHand (s.coordStep a).1 op t r' w :=
      .dropped hr' (by rw [honto.pc]; trivial) hexited fun m' hm' =>
        hin m' (by rw [hhandled rfl honto]; exact List.mem_cons_of_mem _ hm')
    refine ⟨fun _ => hdrops hr, fun _ => ?_⟩
    obtain ⟨hopen', hr'⟩ := hopen.reportFailure hr m.authority m.flag
    exact ⟨hopen', hdrops hr'⟩

/-- The thread confirms the report, and the operation is done. -/
theorem Relay.heldConfirm (hfind : s.coord.store.ops.find op = some r) (hopen : r.Open)
    (hr : r.machine.state = .COMPLETION_REPORTED)
    (hpc : s.coord.pc t = .completeConfirm op r.authority) {a : Action} {ch : Choice}
    (hstep : s.coord.step a = s.coord.advance t ch) : Relay (s.coordStep a).1 op := by
  rw [Coord.advance, hpc] at hstep
  obtain ⟨hrec, hstate⟩ := hopen.confirmCompletion_reported hopen.fence_self hr
  refine .done (r.confirmCompletion r.authority).1.terminal
    ⟨(r.confirmCompletion r.authority).1, ?_, hrec, hstate, rfl⟩
  rw [Cluster.coordStep_coord, hstep]
  exact registry_find_self _ (c := .confirmCompletion op r.authority) hfind

/-- The thread that has lost the worker takes it out of the table, and passes the work on. -/
theorem Relay.heldLost (inv : MemberInv s) (hw : s.worker t = some w)
    (hfind : s.coord.store.ops.find op = some r) (hopen : r.Open)
    (hr : isTerminal r.machine.state = false) (hpc : s.coord.pc t = .lostLock)
    (hexited : w.pc = .exited) (hqueue : s.toCoord t = []) (hrun : s.coord.runningConn = some t)
    (others : ∀ c', c' ≠ t → s.Aside op c') (hmarked : s.MarkedFor op t)
    (hfinished : s.coord.finished = false) {a : Action} (hconn : a.conn = t) {ch : Choice}
    (hstep : s.coord.step a = s.coord.advance t ch) : Relay (s.coordStep a).1 op := by
  rw [Coord.advance, hpc] at hstep
  dsimp only at hstep
  rw [Coord.lostLock, if_pos hrun] at hstep
  have honto := s.coordStep_onto hconn hstep fun _ => rfl
  have hcoord := congrArg Prod.fst hstep
  rw [← Cluster.coordStep_coord] at hcoord
  obtain ⟨hcurrent, hmarks⟩ : s.coord.currentOp = op ∧ ∀ c, (s.coord.pc c).marks = none := by
    cases hmarked with
    | noted _ hcurrent hmarks => exact ⟨hcurrent, hmarks⟩
    | pending _ _ hnone =>
      rw [hrun] at hnone
      cases hnone
  have hworkers : (s.coordStep a).1.coord.workers =
      s.coord.workers.filter (·.1 ≠ (s.coord.conn t).wid) := by
    rw [hcoord]
    rfl
  refine .lost t r ?_ ⟨fun w' hw' => ?_, ?_, Or.inr ⟨w, ?_, hexited⟩, fun p hp => ?_⟩ ?_ ?_ hopen hr
    (honto.others others) ⟨?_, fun c => ?_, ?_⟩
  · rw [honto.pc]
    trivial
  · rw [honto.worker, hw] at hw'
    obtain rfl := Option.some.inj hw'
    exact hexited
  · rwa [honto.toCoord]
  · rwa [honto.worker]
  · rw [hworkers] at hp
    exact inv.lost hp
  · rw [hcoord]
    exact hcurrent
  · rwa [hcoord]
  · rw [hcoord]
    rfl
  · by_cases hc : c = t
    · rw [hc, honto.pc]
      rfl
    · rw [(honto.same c hc).1.pc]
      exact hmarks c
  · rw [hcoord]
    exact hfinished

/-- **Step lemma, thread.** -/
theorem Relay.heldThread (inv : MemberInv s) (hw : s.worker t = some w)
    (hfind : s.coord.store.ops.find op = some r) (hopen : r.Open) (hheld : InHand s op t r w)
    (others : ∀ c', c' ≠ t → s.Aside op c') (hmarked : s.MarkedFor op t)
    (hfinished : s.coord.finished = false) {a : Action} (hconn : a.conn = t)
    (ha : ∀ c m, a ≠ .receive c m) (hrecoverable : s.Recoverable (.coord a)) :
    Relay (s.coordStep a).1 op := by
  have hidle (hsame : s.coord.step a = (s.coord, [])) : Relay (s.coordStep a).1 op := by
    rw [Cluster.coordStep_idle hsame]
    exact .held t w r hw hfind hopen hheld others hmarked hfinished
  have hstarted (hpc : s.coord.pc t ≠ .unborn ∧ s.coord.pc t ≠ .reading) :
      (Relay (s.coordStep a).1 op) ∨ ∃ ch, s.coord.step a = s.coord.advance t ch := by
    rcases Coord.step_of_started (s := s.coord) (a := a) (hconn ▸ hpc) with hsame | ⟨ch, -, hstep⟩
    · exact Or.inl (hidle hsame)
    · exact Or.inr ⟨ch, hconn ▸ hstep⟩
  cases hpc : s.coord.pc t with
  | unborn =>
    cases a with
    | accept c =>
      obtain rfl : c = t := hconn
      have hstep : s.coord.step (.accept c) = (s.coord.goto c .reading, []) := by
        simp [Coord.step, hpc]
      refine Relay.staysOnto hw others hmarked hfinished rfl hstep (fun _ => rfl) ⟨rfl, rfl, rfl⟩
        hfind hopen fun honto => hheld.goesOn (by rw [hpc]; trivial) (by rw [honto.pc]; trivial)
          ((honto.toPeer c).trans (List.append_nil _).symm) (fun _ hm => by cases hm) (Or.inl rfl)
          (Or.inl ?_)
      rw [Cluster.incoming, Cluster.incoming, honto.pc, honto.toCoord, hpc]
      rfl
    | disconnect c | proceed c ch =>
      obtain rfl : c = t := hconn
      exact hidle (by simp [Coord.step, Coord.advance, Pc.needsLock, hpc])
    | receive c m => exact absurd rfl (ha c m)
  | reading =>
    cases a with
    | disconnect c =>
      obtain rfl : c = t := hconn
      obtain ⟨hexited, hsaved | hrun⟩ := hrecoverable.2 w hw
      · rw [hfinished] at hsaved
        cases hsaved
      have hempty : s.incoming c = [] := by simp [Cluster.incoming, hpc, Pc.atHand, hrecoverable.1]
      have hstep : s.coord.step (.disconnect c) = (s.coord.goto c .lostLock, []) := by
        simp [Coord.step, hpc]
      refine Relay.staysOnto hw others hmarked hfinished rfl hstep (fun _ => rfl) ⟨rfl, rfl, rfl⟩
        hfind hopen fun honto => ?_
      have hgiven (hr : isTerminal r.machine.state = false) :
          InHand (s.coordStep (.disconnect c)).1 op c r w :=
        .given hr honto.pc hexited (honto.toCoord ▸ hrecoverable.1) (by simpa [Coord.step, hpc])
      cases hheld with
      | sent _ _ _ hwaits => exact absurd hexited hwaits
      | starting _ _ m hw' | working _ _ m hw' => simp [hexited] at hw'
      | reported _ _ _ pre m _ hlast => simp [hempty] at hlast
      | confirming _ hpc' | given _ hpc' =>
        rw [hpc] at hpc'
        cases hpc'
      | dropped hr => exact hgiven hr
    | accept c | proceed c ch =>
      obtain rfl : c = t := hconn
      exact hidle (by simp [Coord.step, Coord.advance, Pc.needsLock, hpc])
    | receive c m => exact absurd rfl (ha c m)
  | handle m =>
    rcases hstarted (by simp [hpc]) with hstays | ⟨ch, hstep⟩
    · exact hstays
    · rw [Coord.advance, hpc] at hstep
      exact Relay.heldHandle inv hw hfind hopen hheld others hmarked hfinished hconn hpc hstep
  | dispatchLock | dispatchSend | dispatchMark | dispatchRun | completeConfirm | completeAck
  | completeFence | completeSave | saving | lostLock | lostCheck | lostTransfer | lostBuild
  | lostReport | lostChoose | lostVerify | lostSend | lostMark | ended =>
    rcases hstarted (by simp [hpc]) with hstays | ⟨ch, hstep⟩
    · exact hstays
    · cases hheld with
      | sent _ hpc' | starting _ hpc' | working _ hpc' | reported _ hpc' | dropped _ hpc' =>
        rw [hpc] at hpc'
        exact absurd hpc' id
      | confirming hr hpc' => exact Relay.heldConfirm hfind hopen hr hpc' hstep
      | given hr hpc' hexited hqueue hrun =>
        exact Relay.heldLost inv hw hfind hopen hr hpc' hexited hqueue hrun others hmarked hfinished
          hconn hstep

/-! ### The worker -/

/-- The worker has become `w'`, has sent `posted`, and has this left to receive. -/
structure Works (s s' : Cluster) (t : ConnId) (w' : Worker) (posted queue : List WireMessage) :
    Prop extends Elsewhere s s' t where
  coord : s'.coord = s.coord
  worker : s'.worker t = some w'
  toCoord : s'.toCoord t = s.toCoord t ++ posted
  toPeer : s'.toPeer t = queue

theorem Cluster.workerStep_works (s : Cluster) (t : ConnId) (w' : Worker)
    (queue : List WireMessage) (evs : List WorkerEvent) :
    Works s (Cluster.workerStep { s with toPeer := Function.update s.toPeer t queue } t w' evs).1 t
      w' (evs.filterMap WorkerEvent.posted) queue where
  same := fun _ hc => ⟨⟨rfl, workerStep_worker_of_ne hc, workerStep_toCoord_of_ne hc⟩,
    Function.update_of_ne hc ..⟩
  listed := fun _ hp => Or.inl hp
  coord := rfl
  worker := workerStep_worker
  toCoord := workerStep_toCoord
  toPeer := Function.update_self ..

theorem Works.incoming {posted queue : List WireMessage} (h : Works s s' t w' posted queue) :
    s'.incoming t = s.incoming t ++ posted := by
  unfold Cluster.incoming
  rw [h.coord, h.toCoord, List.append_assoc]

theorem Works.attending {posted queue : List WireMessage} (h : Works s s' t w' posted queue)
    (hpc : (s.coord.pc t).Attending) : (s'.coord.pc t).Attending := by
  rwa [h.coord]

/-- A worker that gives up drops the work, unless it has reported the end. -/
theorem InHand.giveUp (h : InHand s op t r w)
    (hworks : Works s s' t { w with pc := .exited } [] (s.toPeer t)) :
    InHand s' op t r { w with pc := .exited } := by
  have hincoming : s'.incoming t = s.incoming t := hworks.incoming.trans (List.append_nil _)
  have hdrops (hr : r.InWork) (hpc : (s.coord.pc t).Attending)
      (hin : ∀ m ∈ s.incoming t, m.type = .REGISTER ∨ m.type = .RUNNING) :
      InHand s' op t r { w with pc := .exited } := by
    refine .dropped hr.live (hworks.attending hpc) (Or.inl rfl) fun m hm => ?_
    rw [hincoming] at hm
    exact (hin m hm).imp_right Or.inl
  cases h with
  | sent hr hpc _ _ _ _ _ _ hin | starting hr hpc _ _ _ hin =>
    exact hdrops hr hpc fun m hm => Or.inl (hin m hm)
  | working hr hpc _ _ _ hin => exact hdrops hr hpc hin
  | reported hr hpc _ pre m hm hlast hpre hruns =>
    exact .reported hr (hworks.attending hpc) rfl pre m hm (hincoming.trans hlast) hpre hruns
  | confirming hr hpc => exact .confirming hr (by rwa [hworks.coord]) rfl
  | dropped hr hpc _ hin =>
    exact .dropped hr (hworks.attending hpc) (Or.inl rfl) (by rwa [hincoming])
  | given hr hpc _ hqueue hrun =>
    refine .given hr (by rwa [hworks.coord]) rfl ?_ (by rwa [hworks.coord])
    rw [hworks.toCoord, hqueue]
    rfl

/-- A worker that takes its next step keeps the work, or passes it on. -/
theorem InHand.own (h : InHand s op t r w) (hw : s.worker t = some w) {pc : WorkerPc}
    {evs : List WorkerEvent} (hmove : w.Moves pc none evs)
    (hworks : Works s s' t { w with pc } (evs.filterMap WorkerEvent.posted) (s.toPeer t)) :
    InHand s' op t r { w with pc } := by
  have hincoming := hworks.incoming
  cases hmove with
  | stay =>
    refine h.onward ⟨by rw [hworks.coord], hworks.worker.trans hw.symm, ?_⟩ hworks.toPeer
      (Or.inl rfl) (by rw [hworks.coord]; exact id)
    exact hworks.toCoord.trans (List.append_nil _)
  | giveUp => exact h.giveUp hworks
  | registered hpc =>
    cases h with
    | sent hr hattending htask hwaits m hm htype honly hin =>
      refine .sent hr (hworks.attending hattending) rfl (by simp) m ?_ htype ?_ fun m' hm' => ?_
      · rwa [hworks.toPeer]
      · rwa [hworks.toPeer]
      · rw [hincoming] at hm'
        rcases List.mem_append.mp hm' with hold | hnew
        · exact hin m' hold
        · rw [List.mem_singleton.mp hnew]
          rfl
    | starting _ _ _ hw | working _ _ _ hw | reported _ _ hw | confirming _ _ hw | dropped _ _ hw
    | given _ _ hw => simp [hpc] at hw
  | started m hpc =>
    cases h with
    | starting hr hattending m' hw hm hin =>
      obtain rfl : m = m' := WorkerPc.starting.inj (hpc.symm.trans hw)
      refine .working hr (hworks.attending hattending) m (Or.inl rfl) hm (fun m' hm' => ?_)
        (Or.inr ⟨w.report m .RUNNING [], ?_, rfl, hm.op, hm.authority⟩)
      · rw [hincoming] at hm'
        rcases List.mem_append.mp hm' with hold | hnew
        · exact Or.inl (hin m' hold)
        · rw [List.mem_singleton.mp hnew]
          exact Or.inr rfl
      · rw [hincoming]
        exact List.mem_append_right _ (List.mem_singleton_self _)
    | sent _ _ htask =>
      rw [hpc] at htask
      cases htask
    | working _ _ _ hw | reported _ _ hw | confirming _ _ hw | dropped _ _ hw | given _ _ hw =>
      simp [hpc] at hw
  | worked m pc ok hpc hnext =>
    cases h with
    | working hr hattending m' hw hm hin hruns =>
      obtain rfl : m = m' := by simpa [hpc] using hw
      have hsame : s'.incoming t = s.incoming t := hincoming.trans (List.append_nil _)
      rcases hnext with rfl | rfl
      · refine .dropped hr.live (hworks.attending hattending) (Or.inr ⟨m, rfl⟩) fun m' hm' => ?_
        rw [hsame] at hm'
        exact (hin m' hm').imp_right Or.inl
      · refine .working hr (hworks.attending hattending) m (Or.inr rfl) hm ?_ ?_
        · rwa [hsame]
        · rwa [hsame]
    | sent _ _ htask =>
      rw [hpc] at htask
      cases htask
    | starting _ _ _ hw | reported _ _ hw | confirming _ _ hw | dropped _ _ hw | given _ _ hw =>
      simp [hpc] at hw
  | failed m text hpc =>
    cases h with
    | dropped hr hattending hw hin =>
      refine .dropped hr (hworks.attending hattending) (Or.inl rfl) fun m' hm' => ?_
      rw [hincoming] at hm'
      rcases List.mem_append.mp hm' with hold | hnew
      · exact hin m' hold
      · rw [List.mem_singleton.mp hnew]
        exact Or.inr (Or.inr rfl)
    | sent _ _ htask =>
      rw [hpc] at htask
      cases htask
    | starting _ _ _ hw | working _ _ _ hw | reported _ _ hw | confirming _ _ hw | given _ _ hw =>
      simp [hpc] at hw
  | completed m text hpc =>
    cases h with
    | working hr hattending m' hw hm hin hruns =>
      obtain rfl : m = m' := by simpa [hpc] using hw
      exact .reported hr (hworks.attending hattending) rfl (s.incoming t)
        (w.report m .COMPLETE text) ⟨rfl, hm.op, hm.authority⟩ hincoming hin hruns
    | sent _ _ htask =>
      rw [hpc] at htask
      cases htask
    | starting _ _ _ hw | reported _ _ hw | confirming _ _ hw | dropped _ _ hw | given _ _ hw =>
      simp [hpc] at hw

/-- A worker that receives a message takes the work, drops it, or waits on. -/
theorem InHand.deliver (h : InHand s op t r w) {pc : WorkerPc} {m : WireMessage}
    {rest : List WireMessage} (hqueue : s.toPeer t = m :: rest) (hmove : w.Moves pc (some m) [])
    (hworks : Works s s' t { w with pc } [] rest) : InHand s' op t r { w with pc } := by
  have hincoming : s'.incoming t = s.incoming t := hworks.incoming.trans (List.append_nil _)
  have hwaiting : w.pc = .registering ∨ w.pc = .waiting := by
    cases hmove with
    | acknowledged _ hpc | refused _ hpc => exact Or.inl hpc
    | dispatched _ hpc | shutDown _ hpc | ignored _ hpc => exact Or.inr hpc
  cases h with
  | sent hr hattending _ _ m' hm' htype honly hin =>
    have hattends := hworks.attending hattending
    rw [hqueue] at hm' honly
    have hdrops : InHand s' op t r { w with pc := .exited } := by
      refine .dropped hr.live hattends (Or.inl rfl) fun m hm => Or.inl ?_
      rw [hincoming] at hm
      exact hin m hm
    have hwaits (hne : m.type ≠ .DISPATCH) (hpc : pc = .waiting) :
        InHand s' op t r { w with pc } := by
      subst hpc
      have hrest : m' ∈ rest := by
        rcases List.mem_cons.mp hm' with rfl | hrest
        · exact absurd htype hne
        · exact hrest
      refine .sent hr hattends rfl (by simp) m' ?_ htype (fun m₁ hm₁ => ?_) ?_
      · rwa [hworks.toPeer]
      · rw [hworks.toPeer] at hm₁
        exact honly m₁ (List.mem_cons_of_mem _ hm₁)
      · rwa [hincoming]
    cases hmove with
    | acknowledged _ _ hack => exact hwaits (by simp [hack]) rfl
    | ignored _ _ hne => exact hwaits hne rfl
    | refused | shutDown => exact hdrops
    | dispatched _ _ hdispatch =>
      exact .starting hr hattends m rfl (honly m List.mem_cons_self hdispatch) (by rwa [hincoming])
  | starting _ _ _ hw | working _ _ _ hw | reported _ _ hw | confirming _ _ hw | dropped _ _ hw
  | given _ _ hw => rcases hwaiting with hpc | hpc <;> simp [hpc] at hw

/-- **Step lemma.** Every step on the connection that has the work keeps the work in one hand. -/
theorem Relay.heldStep (inv : MemberInv s) (hw : s.worker t = some w)
    (hfind : s.coord.store.ops.find op = some r) (hopen : r.Open) (hheld : InHand s op t r w)
    (others : ∀ c', c' ≠ t → s.Aside op c') (hmarked : s.MarkedFor op t)
    (hfinished : s.coord.finished = false) {a : ClusterAction} (hconn : a.conn = t)
    (hrecoverable : s.Recoverable a) : Relay (s.step a).1 op := by
  have hstay : Relay s op := .held t w r hw hfind hopen hheld others hmarked hfinished
  have hworks {s' : Cluster} {w' : Worker} {posted queue : List WireMessage}
      (h : Works s s' t w' posted queue) (hheld' : InHand s' op t r w') : Relay s' op := by
    refine Relay.stays h.toElsewhere h.worker ?_ hopen hheld' others hmarked hfinished ?_ ?_ ?_
    all_goals rw [h.coord]
    exact hfind
  have hmoves := s.step_moves a
  generalize (s.step a).1 = s', (s.step a).2 = evs at hmoves ⊢
  cases hmoves with
  | idle => exact hstay
  | received c m rest hpc hqueue =>
    obtain rfl : c = t := hconn
    have hreceives := s.received_receives hpc hqueue
    refine Relay.stays hreceives.toElsewhere ?_ ?_ hopen (hheld.goesOn ?_ ?_
      ((hreceives.toPeer c).trans (List.append_nil _).symm) (fun m hm => by cases hm) (Or.inl rfl)
      (Or.inl (hreceives.incoming c).symm)) others hmarked hfinished ?_ ?_ ?_
    · rwa [hreceives.worker]
    · rwa [hreceives.coord]
    · rw [hpc]
      trivial
    · rw [hreceives.coord, Coord.goto_pc_self]
      trivial
    all_goals rw [hreceives.coord]; rfl
  | coord a ha =>
    exact Relay.heldThread inv hw hfind hopen hheld others hmarked hfinished hconn ha hrecoverable
  | start c workdir mode wid boot hfresh =>
    obtain rfl : c = t := hconn
    rw [(Cluster.of_isFresh hfresh).2.1] at hw
    cases hw
  | own a c w₁ pc evs hw₁ hmove hc =>
    obtain rfl : c = t := hc.symm.trans hconn
    obtain rfl : w = w₁ := Option.some.inj (hw.symm.trans hw₁)
    have hnext := s.workerStep_works c { w with pc } (s.toPeer c) evs
    rw [Function.update_eq_self] at hnext
    exact hworks hnext (hheld.own hw hmove hnext)
  | deliver c w₁ pc m rest hw₁ hqueue hmove =>
    obtain rfl : c = t := hconn
    obtain rfl : w = w₁ := Option.some.inj (hw.symm.trans hw₁)
    have hnext := s.workerStep_works c { w with pc } rest []
    exact hworks hnext (hheld.deliver hqueue hmove hnext)
  | client => exact absurd hrecoverable id

end AtWork

end FailureFabric
