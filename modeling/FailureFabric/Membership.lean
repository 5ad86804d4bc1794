import FailureFabric.Delivery

namespace FailureFabric

open Library

/-!
# Who is a member

The coordinator knows a worker by the id that it registers under.  When no two worker processes draw
the same id, the tables are what they are meant to be: an entry of `g_workers` stands for one
process, the replacement for a lost worker is one of the entries, and the loss of a running worker
takes its entry out.

* `Cluster.Recoverable` — the actions that leave the work on an operation recoverable;
* `MemberInv` — the tables, and the registrations on their way to them;
* `MemberInv.replacement`, `MemberInv.lost` — what is chosen, and what a loss takes out.
-/

/-- The thread is about to choose a worker. -/
def Pc.chooses : Pc → Bool
  | dispatchLock .. | lostChoose _ => true
  | _ => false

/-- The thread is about to choose a worker, and there is none. -/
def Coord.NoneLeft (s : Coord) (c : ConnId) : Prop := s.workers = [] ∧ (s.pc c).chooses = true

instance (s : Coord) (c : ConnId) : Decidable (s.NoneLeft c) :=
  inferInstanceAs (Decidable (_ ∧ _))

/-- The action leaves the work recoverable: no two workers draw the same id, a thread that chooses
    a worker finds one, and the end of a connection is seen when everything that came on it is
    received, and that of a worker's when the process is gone and when it is the running connection,
    unless a completion has been saved.  A worker may be killed at any time, give up, or fail. -/
def Cluster.Recoverable (s : Cluster) : ClusterAction → Prop
  | .coord (.disconnect c) =>
    s.toCoord c = [] ∧ ∀ w, s.worker c = some w →
      w.pc = .exited ∧ (s.coord.finished = true ∨ s.coord.runningConn = some c)
  | .coord (.proceed c _) => ¬ s.coord.NoneLeft c
  | .coord (.accept _) | .coord (.receive ..) => True
  | .start _ _ _ wid _ => wid.isNull = false ∧ ∀ c w, s.worker c = some w → w.wid ≠ wid
  | .proceed .. | .deliver _ | .lose _ | .kill _ => True
  | .client .. => False

/-- The tables name processes by their ids, and a registration carries the id of its sender. -/
structure MemberInv (s : Cluster) : Prop where
  reg : s.coord.RegInv
  named : ∀ c w, s.worker c = some w → w.wid.isNull = false
  distinct : ∀ c c' w w', s.worker c = some w → s.worker c' = some w' → w.wid = w'.wid → c = c'
  registers : ∀ c, ∀ m ∈ s.incoming c, m.type = .REGISTER →
    ∃ w, s.worker c = some w ∧ m.worker = w.wid
  listed : ∀ p ∈ s.coord.workers, ∃ w, s.worker p.2 = some w ∧ p.1 = w.wid
  ordered : ∀ c ∈ s.coord.regOrder, ∃ w, s.worker c = some w ∧ (s.coord.conn c).wid = w.wid

section Tables

variable {s s' : Cluster} {c : ConnId}

/-- The replacement is one of the listed workers. -/
theorem MemberInv.replacement (inv : MemberInv s) {r : ConnId}
    (h : s.coord.replacement = some r) : ∃ p ∈ s.coord.workers, p.2 = r := by
  rcases Coord.listed_of_replacement h with ⟨-, p, hp, hwid⟩ | hlisted
  · obtain ⟨w, hw, hname⟩ := inv.ordered r (inv.reg.of_replacement h)
    obtain ⟨w', hw', hname'⟩ := inv.listed p hp
    refine ⟨p, hp, inv.distinct _ _ w' w hw' hw ?_⟩
    rw [← hname', hwid, hname]
  · exact hlisted

/-- Where a worker is listed, there is a replacement. -/
theorem MemberInv.replacement_ne_none (inv : MemberInv s) (h : s.coord.workers ≠ []) :
    s.coord.replacement ≠ none := by
  obtain ⟨p, hp⟩ := List.exists_mem_of_ne_nil _ h
  unfold Coord.replacement
  split
  · next hworkers => exact absurd hworkers h
  · next horder _ =>
    have hordered := inv.reg.listed p hp
    rw [horder] at hordered
    cases hordered
  · split_ifs <;> exact Option.some_ne_none _

/-- The entries that a loss leaves are not those of the lost connection. -/
theorem MemberInv.lost (inv : MemberInv s) {p : WorkerId × ConnId}
    (hp : p ∈ s.coord.workers.filter (·.1 ≠ (s.coord.conn c).wid)) : p.2 ≠ c := by
  obtain ⟨hlisted, hne⟩ := List.mem_filter.mp hp
  rintro rfl
  obtain ⟨w, hw, hname⟩ := inv.listed p hlisted
  obtain ⟨w', hw', hname'⟩ := inv.ordered p.2 (inv.reg.listed p hlisted)
  obtain rfl : w = w' := Option.some.inj (hw.symm.trans hw')
  simp [hname, hname'] at hne

/-! ### The invariant -/

/-- A registration under a worker's own id. -/
theorem Coord.handleMessage_register {k : Coord} {m : WireMessage} (ch : Choice)
    (htype : m.type = .REGISTER) (hnull : m.worker.isNull = false) :
    k.handleMessage c m ch =
      ({ k with
          conn := Function.update k.conn c
            { k.conn c with worker := true, wid := m.worker, boot := m.boot }
          workers := k.setWorker c m.worker ch.workers
          regOrder := k.regOrder ++ [c] }.goto c .reading,
        [.sent c { type := .REGISTER_ACK, worker := m.worker }]) := by
  unfold handleMessage
  rw [htype]
  simp [hnull]

/-- **Step lemma, coordinator.** -/
theorem MemberInv.coordStep (inv : MemberInv s) {a : Action} (ha : ∀ c m, a ≠ .receive c m) :
    MemberInv (s.coordStep a).1 := by
  have hkeeps : ∀ c, ∀ m ∈ (s.coordStep a).1.incoming c, m ∈ s.incoming c := by
    intro c m hm
    rcases s.coordStep_incoming ha c with hsame | ⟨m', -, -, hincoming⟩
    · rwa [hsame]
    · rw [hincoming]
      exact List.mem_cons_of_mem _ hm
  suffices htables : (∀ p ∈ (s.coord.step a).1.workers, ∃ w, s.worker p.2 = some w ∧ p.1 = w.wid) ∧
      ∀ c ∈ (s.coord.step a).1.regOrder, ∃ w, s.worker c = some w ∧
        ((s.coord.step a).1.conn c).wid = w.wid from
    ⟨inv.reg.step a, inv.named, inv.distinct, fun c m hm => inv.registers c m (hkeeps c m hm),
      htables.1, htables.2⟩
  rcases s.coord.tables_step a with ⟨hworkers, horder, hwids⟩ | ⟨m, ch, ha', hpc, htype, -⟩
  · refine ⟨fun p hp => inv.listed p (hworkers p hp), fun c hc => ?_⟩
    rw [hwids]
    exact inv.ordered c (horder ▸ hc)
  · obtain ⟨w, hw, hname⟩ :=
      inv.registers a.conn m (by simp [Cluster.incoming, hpc, Pc.atHand]) htype
    have hnull : m.worker.isNull = false := hname ▸ inv.named _ w hw
    rcases Coord.step_of_started (s := s.coord) (a := a) (by simp [hpc]) with hidle | ⟨ch, -, hstep⟩
    · rw [hidle]
      exact ⟨inv.listed, inv.ordered⟩
    · rw [hstep, Coord.advance, hpc]
      dsimp only
      rw [Coord.handleMessage_register ch htype hnull]
      refine ⟨fun p hp => ?_, fun c hc => ?_⟩
      · rcases Coord.mem_setWorker hp with hold | rfl
        · exact inv.listed p hold
        · exact ⟨w, hw, hname⟩
      · dsimp only [Coord.goto] at hc ⊢
        by_cases hconn : c = a.conn
        · subst hconn
          exact ⟨w, hw, by rw [Function.update_self]; exact hname⟩
        · rw [Function.update_of_ne hconn]
          refine inv.ordered c ((List.mem_append.mp hc).resolve_right fun hnew => ?_)
          exact hconn (List.mem_singleton.mp hnew)

/-- **Step lemma, reception.** -/
theorem MemberInv.received (inv : MemberInv s) {m : WireMessage} {rest : List WireMessage}
    (hpc : s.coord.pc c = .reading) (hqueue : s.toCoord c = m :: rest) :
    MemberInv (Cluster.coordStep { s with toCoord := Function.update s.toCoord c rest }
      (.receive c m)).1 := by
  have hcoord : (Cluster.coordStep { s with toCoord := Function.update s.toCoord c rest }
      (.receive c m)).1.coord = s.coord.goto c (.handle m) := by
    simp [Cluster.coordStep, Coord.step, hpc]
  refine ⟨?_, inv.named, inv.distinct, fun c' m' hm => ?_, ?_, ?_⟩
  · exact inv.reg.step (.receive c m)
  · rw [Cluster.received_incoming hpc hqueue] at hm
    exact inv.registers c' m' hm
  · rw [hcoord]
    exact inv.listed
  · rw [hcoord]
    exact inv.ordered

/-- **Step lemma, peer.** A step of a worker or of a client keeps the tables if it keeps the ids of
    the workers apart and registers under its own. -/
theorem MemberInv.peer (inv : MemberInv s) (more : List WireMessage) (hcoord : s'.coord = s.coord)
    (hother : ∀ c', c' ≠ c → s'.worker c' = s.worker c' ∧ s'.toCoord c' = s.toCoord c')
    (hmore : s'.toCoord c = s.toCoord c ++ more)
    (hkept : ∀ w, s.worker c = some w → ∃ w', s'.worker c = some w' ∧ w'.wid = w.wid)
    (hnamed : ∀ w', s'.worker c = some w' → w'.wid.isNull = false ∧
      ∀ c' w, c' ≠ c → s.worker c' = some w → w.wid ≠ w'.wid)
    (hregisters : ∀ m ∈ more, m.type = .REGISTER →
      ∃ w', s'.worker c = some w' ∧ m.worker = w'.wid) : MemberInv s' := by
  have hstays : ∀ c' w, s.worker c' = some w → ∃ w', s'.worker c' = some w' ∧ w'.wid = w.wid := by
    intro c' w hw
    by_cases hc : c' = c
    · subst hc
      exact hkept w hw
    · exact ⟨w, by rwa [(hother c' hc).1], rfl⟩
  refine ⟨by rw [hcoord]; exact inv.reg, fun c' w hw => ?_, fun c₁ c₂ w₁ w₂ hw₁ hw₂ hwid => ?_,
    fun c' m hm htype => ?_, fun p hp => ?_, fun c' hc => ?_⟩
  · by_cases hc : c' = c
    · subst hc
      exact (hnamed w hw).1
    · exact inv.named c' w (by rwa [(hother c' hc).1] at hw)
  · by_cases hc₁ : c₁ = c <;> by_cases hc₂ : c₂ = c
    · exact hc₁.trans hc₂.symm
    · subst hc₁
      rw [(hother c₂ hc₂).1] at hw₂
      exact absurd hwid.symm ((hnamed w₁ hw₁).2 c₂ w₂ hc₂ hw₂)
    · subst hc₂
      rw [(hother c₁ hc₁).1] at hw₁
      exact absurd hwid ((hnamed w₂ hw₂).2 c₁ w₁ hc₁ hw₁)
    · rw [(hother c₁ hc₁).1] at hw₁
      rw [(hother c₂ hc₂).1] at hw₂
      exact inv.distinct c₁ c₂ w₁ w₂ hw₁ hw₂ hwid
  · have hold : m ∈ s.incoming c' → ∃ w, s'.worker c' = some w ∧ m.worker = w.wid := by
      intro hm
      obtain ⟨w, hw, hname⟩ := inv.registers c' m hm htype
      obtain ⟨w', hw', hwid⟩ := hstays c' w hw
      exact ⟨w', hw', hname.trans hwid.symm⟩
    unfold Cluster.incoming at hm hold
    rw [hcoord] at hm
    by_cases hc : c' = c
    · subst hc
      rw [hmore, ← List.append_assoc] at hm
      rcases List.mem_append.mp hm with hbefore | hnew
      · exact hold hbefore
      · exact hregisters m hnew htype
    · rw [(hother c' hc).2] at hm
      exact hold hm
  · rw [hcoord] at hp
    obtain ⟨w, hw, hname⟩ := inv.listed p hp
    obtain ⟨w', hw', hwid⟩ := hstays p.2 w hw
    exact ⟨w', hw', hname.trans hwid.symm⟩
  · rw [hcoord] at hc ⊢
    obtain ⟨w, hw, hname⟩ := inv.ordered c' hc
    obtain ⟨w', hw', hwid⟩ := hstays c' w hw
    exact ⟨w', hw', hname.trans hwid.symm⟩

/-- A worker sends under its own id. -/
theorem Worker.Moves.worker_of_posted {w : Worker} {pc : WorkerPc}
    {evs : List WorkerEvent} {m : WireMessage} (h : w.Moves pc none evs)
    (hm : m ∈ evs.filterMap WorkerEvent.posted) :
    m.worker = w.wid := by
  cases h with
  | stay | giveUp | worked => cases hm
  | registered | started | failed | completed =>
    obtain rfl := List.mem_singleton.mp hm
    rfl

/-- **Step lemma.** Every step that leaves the work recoverable keeps the tables. -/
theorem MemberInv.step (inv : MemberInv s) {a : ClusterAction} (ha : s.Recoverable a) :
    MemberInv (s.step a).1 := by
  have hmoves := s.step_moves a
  generalize (s.step a).1 = s', (s.step a).2 = evs at hmoves ⊢
  have hnamed : ∀ c w, s.worker c = some w → w.wid.isNull = false ∧
      ∀ c' w', c' ≠ c → s.worker c' = some w' → w'.wid ≠ w.wid :=
    fun c w hw => ⟨inv.named c w hw, fun c' w' hc hw' hwid =>
      hc (inv.distinct c' c w' w hw' hw hwid)⟩
  cases hmoves with
  | idle => exact inv
  | received c m rest hpc hqueue => exact inv.received hpc hqueue
  | coord a hnot => exact inv.coordStep hnot
  | start c workdir mode wid boot hfresh =>
    obtain ⟨-, hnone, -⟩ := Cluster.of_isFresh hfresh
    refine inv.peer (c := c) [] rfl (fun c' hc => ⟨Cluster.workerStep_worker_of_ne hc,
      Cluster.workerStep_toCoord_of_ne hc⟩) Cluster.workerStep_toCoord
      (fun w hw => by rw [hnone] at hw; cases hw) (fun w' hw' => ?_) (fun m hm => by cases hm)
    rw [Cluster.workerStep_worker] at hw'
    obtain rfl := Option.some.inj hw'
    exact ⟨ha.1, fun c' w _ hw => ha.2 c' w hw⟩
  | own a c w pc evs hw hmove =>
    refine inv.peer (c := c) _ rfl (fun c' hc => ⟨Cluster.workerStep_worker_of_ne hc,
      Cluster.workerStep_toCoord_of_ne hc⟩) Cluster.workerStep_toCoord
      (fun w' hw' => ⟨_, Cluster.workerStep_worker, ?_⟩) (fun w' hw' => ?_)
      (fun m hm _ => ⟨_, Cluster.workerStep_worker, hmove.worker_of_posted hm⟩)
    · rw [hw] at hw'
      obtain rfl := Option.some.inj hw'
      rfl
    · rw [Cluster.workerStep_worker] at hw'
      obtain rfl := Option.some.inj hw'
      exact hnamed c w hw
  | deliver c w pc m rest hw hqueue hmove =>
    refine inv.peer (c := c) [] rfl (fun c' hc => ⟨Cluster.workerStep_worker_of_ne hc,
      Cluster.workerStep_toCoord_of_ne hc⟩) Cluster.workerStep_toCoord
      (fun w' hw' => ⟨_, Cluster.workerStep_worker, ?_⟩) (fun w' hw' => ?_)
      (fun m hm => by cases hm)
    · rw [hw] at hw'
      obtain rfl := Option.some.inj hw'
      rfl
    · rw [Cluster.workerStep_worker] at hw'
      obtain rfl := Option.some.inj hw'
      exact hnamed c w hw
  | client => exact absurd ha id

end Tables

theorem memberInv_boot (file : Option (List UInt8)) : MemberInv (.boot file) where
  reg := (handshakeInv_boot file).reg
  named := fun _ _ h => by cases h
  distinct := fun _ _ _ _ h => by cases h
  registers := fun _ _ h => by cases h
  listed := fun _ h => by cases h
  ordered := fun _ h => by cases h

end FailureFabric
