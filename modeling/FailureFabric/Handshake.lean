import FailureFabric.Effects
import FailureFabric.Targets

namespace FailureFabric

open Library

/-!
# The handshake

A worker that has sent its registration takes the next message for the answer to it, and gives up
if it is anything else.  The coordinator may be sending work, acknowledgements and refusals on the
same connection from other threads.  Still the first message that the worker receives is the answer:
nobody dispatches to a connection that is not registered, and the answer is sent in the critical
section that registers.

* `Coord.RegInv` — targets are registered;
* `Coord.sent_cases` — what a step sends, and to whom;
* `Unregistered`, `Registered` — a connection of a worker before and after its registration;
* `HandshakeInv` — the invariant;
* `Cluster.Handshakes`, `workers_handshake` — the result.
-/

/-! ### What the coordinator sends -/

/-- The thread has handled a report of a completion, and will answer it. -/
def Pc.answering : Pc → Bool
  | completeConfirm .. | completeAck .. | completeFence _ => true
  | _ => false

/-- Workers that are listed, and targets that are chosen, are registered. -/
structure Coord.RegInv (s : Coord) : Prop where
  listed : ∀ p ∈ s.workers, p.2 ∈ s.regOrder
  aimed : ∀ c t, (s.pc c).target = some t → t ∈ s.regOrder

/-- A replacement is registered. -/
theorem Coord.RegInv.of_replacement {s : Coord} (inv : s.RegInv) {r : ConnId}
    (h : s.replacement = some r) : r ∈ s.regOrder := by
  unfold replacement at h
  split at h
  · cases h
  · cases h
  · next wid w rest r' rest' hworkers horder =>
    split_ifs at h
    · obtain rfl := Option.some.inj h
      rw [horder]
      exact List.mem_cons_self
    · obtain rfl := Option.some.inj h
      exact inv.listed (wid, w) (by rw [hworkers]; exact List.mem_cons_self)

section Sends

variable {s s' : Coord} {c : ConnId} {a : Action} {evs : List Event}

/-- The handling of a message sends only if the message is a registration. -/
theorem Coord.handleMessage_sent {c' : ConnId} {m m' : WireMessage} {ch : Choice}
    (h : .sent c' m' ∈ (s.handleMessage c m ch).2) : m.type = .REGISTER := by
  unfold handleMessage at h
  split at h
  · next htype => exact htype
  all_goals simp at h

/-- A thread sends to its target, or on its own connection while it answers or handles a message. -/
theorem Coord.Moves.sent_cases {r : ConnId} {m : WireMessage} (h : s.Moves c a s' evs)
    (hev : .sent r m ∈ evs) : (s.pc c).target = some r ∨
      r = c ∧ ((s.pc c).answering = true ∨ ∃ m₀, s.pc c = .handle m₀) := by
  cases h with
  | localStep a new evs hlocal =>
    generalize s.pc c = pc at hlocal
    cases hlocal with
    | sentDispatch op auth target | sentAgain fresh r =>
      obtain ⟨rfl, -⟩ := Event.sent.inj (List.mem_singleton.mp hev)
      exact Or.inl rfl
    | sentAck op e | sentFence op =>
      obtain ⟨rfl, -⟩ := Event.sent.inj (List.mem_singleton.mp hev)
      exact Or.inr ⟨rfl, Or.inl rfl⟩
    | receive | accept | disconnect | asked | ignored | noWorkers | notRunning | allDone | recover
    | built | noReplacement | gaveUp | verified => simp at hev
  | register a m₀ wid order hold =>
    obtain ⟨rfl, -⟩ := Event.sent.inj (List.mem_singleton.mp hev)
    exact Or.inr ⟨rfl, Or.inr ⟨m₀, hold⟩⟩
  | idle | callStep | dispatchLock | marked | markedAgain | lost | saveStart | saveItem
  | saveEnd => simp at hev
  | transferred a ch => simp [lostTransfer] at hev
  | recorded a ch cur b => simp [lostReport] at hev

/-- The step answers the registration that its thread handles, and makes it. -/
structure Coord.Registers (s : Coord) (a : Action) (m₀ m : WireMessage) : Prop where
  handled : s.pc a.conn = .handle m₀
  type : m.type = .REGISTER_ACK
  worker : m₀.worker.isNull = false → m.worker = m₀.worker
  ordered : (s.step a).1.regOrder = s.regOrder ++ [a.conn]
  sent : (s.step a).2 = [.sent a.conn m]

/-- A thread that handles a registration makes it, answers it, and reads on. -/
theorem Coord.step_registration {m₀ : WireMessage} (hpc : s.pc a.conn = .handle m₀)
    (htype : m₀.type = .REGISTER) :
    s.step a = (s, []) ∨ (s.step a).1.pc a.conn = .reading ∧ ∃ m, s.Registers a m₀ m := by
  rcases step_of_started (s := s) (a := a) (by simp [hpc]) with hidle | ⟨ch, -, hstep⟩
  · exact Or.inl hidle
  · right
    have hhandled : s.step a = s.handleMessage a.conn m₀ ch := by rw [hstep, advance, hpc]
    unfold handleMessage at hhandled
    rw [htype] at hhandled
    dsimp only at hhandled
    refine ⟨?_, { type := .REGISTER_ACK, worker := registeredId m₀ ch }, hpc, rfl, fun hnull => ?_,
      ?_, ?_⟩
    · rw [hhandled]
      exact goto_pc_self ..
    · exact if_neg (by simp [hnull])
    · rw [hhandled]
      rfl
    · rw [hhandled]
      rfl

/-- A step sends to a target, answers a report, or answers a registration that it makes. -/
theorem Coord.sent_cases {m : WireMessage} (h : .sent c m ∈ (s.step a).2) :
    (s.pc a.conn).target = some c ∨ c = a.conn ∧
      ((s.pc c).answering = true ∨ ∃ m₀, s.Registers a m₀ m) := by
  rcases (s.step_moves a).sent_cases h with htarget | ⟨rfl, hanswers | ⟨m₀, hm₀⟩⟩
  · exact Or.inl htarget
  · exact Or.inr ⟨rfl, Or.inl hanswers⟩
  · refine Or.inr ⟨rfl, Or.inr ⟨m₀, ?_⟩⟩
    have htype : m₀.type = .REGISTER := by
      rcases step_of_started (s := s) (a := a) (by simp [hm₀]) with hidle | ⟨ch, -, hstep⟩
      · rw [hidle] at h
        cases h
      · rw [hstep, advance, hm₀] at h
        exact handleMessage_sent h
    rcases step_registration hm₀ htype with hidle | ⟨-, m', hregisters⟩
    · rw [hidle] at h
      cases h
    · rw [hregisters.sent] at h
      obtain ⟨-, rfl⟩ := Event.sent.inj (List.mem_singleton.mp h)
      exact hregisters

/-- What is registered stays registered. -/
theorem Coord.regOrder_grows (s : Coord) (a : Action) :
    ∀ c ∈ s.regOrder, c ∈ (s.step a).1.regOrder := by
  intro c hc
  rcases s.tables_step a with ⟨-, horder, -⟩ | ⟨m, ch, -, -, -, -, horder, -⟩
  · rwa [horder]
  · rw [horder]
    exact List.mem_append_left _ hc

/-- A connection is registered by its own thread. -/
theorem Coord.conn_of_registered (h : c ∈ (s.step a).1.regOrder) (hnew : c ∉ s.regOrder) :
    c = a.conn ∧ ∃ m, s.pc a.conn = .handle m ∧ m.type = .REGISTER := by
  rcases s.tables_step a with ⟨-, horder, -⟩ | ⟨m, ch, -, hm, htype, -, horder, -⟩
  · rw [horder] at h
    exact absurd h hnew
  · rw [horder] at h
    rcases List.mem_append.mp h with hold | hconn
    · exact absurd hold hnew
    · exact ⟨List.mem_singleton.mp hconn, m, hm, htype⟩

/-- **Step lemma.** Targets stay registered. -/
theorem Coord.RegInv.step (inv : s.RegInv) (a : Action) : (s.step a).1.RegInv := by
  have hmoves := s.step_moves a
  have hgrows := s.regOrder_grows a
  constructor
  · intro p hp
    rcases s.tables_step a with ⟨hworkers, -, -⟩ | ⟨m, ch, -, -, -, hworkers, horder, -⟩
    · exact hgrows _ (inv.listed p (hworkers p hp))
    · rcases hworkers p hp with hold | rfl
      · exact hgrows _ (inv.listed p hold)
      · rw [horder]
        exact List.mem_append_right _ (List.mem_singleton_self _)
  · intro c t ht
    by_cases hc : c = a.conn
    · subst hc
      rcases hmoves.target_of ht with hold | ⟨w, hw, rfl⟩ | hreplacement
      · exact hgrows t (inv.aimed _ t hold)
      · exact hgrows _ (inv.listed w hw)
      · exact hgrows t (inv.of_replacement hreplacement)
    · rw [hmoves.pc_of_ne hc] at ht
      exact hgrows t (inv.aimed c t ht)

/-- A thread answers because it handled a message. -/
theorem Coord.Moves.to_answering (h : s.Moves c a s' evs) (hpc : (s'.pc c).answering = true) :
    (s.pc c).answering = true ∨ ∃ m, s.pc c = .handle m := by
  cases h with
  | idle => exact Or.inl hpc
  | localStep a new evs hlocal =>
    rw [goto_pc_self] at hpc
    generalize s.pc c = pc at hlocal
    cases hlocal with
    | asked m | ignored m => exact Or.inr ⟨m, rfl⟩
    | accept | receive | disconnect | noWorkers | sentDispatch | sentAck | sentFence | notRunning
    | allDone | recover | built | noReplacement | gaveUp | verified | sentAgain => cases hpc
  | callStep ch rc new hcall =>
    rw [goto_pc_self] at hpc
    generalize s.pc c = pc at hcall
    generalize (s.call rc).2 = res at hcall
    cases hcall with
    | running m | failure m | reported m | notReported m => exact Or.inr ⟨m, rfl⟩
    | confirm => exact Or.inl rfl
    | started | redispatch => cases hpc
  | register a m wid order hold => exact Or.inr ⟨m, hold⟩
  | dispatchLock | marked | markedAgain | lost | saveStart | saveItem | saveEnd =>
    rw [goto_pc_self] at hpc
    cases hpc
  | transferred | recorded => simp [lostTransfer, lostReport, Pc.answering] at hpc

/-- A thread that is unborn after its step has not moved. -/
theorem Coord.Moves.of_unborn (h : s.Moves c a s' evs) (hpc : s'.pc c = .unborn) :
    s' = s ∧ evs = [] := by
  cases h with
  | idle => exact ⟨rfl, rfl⟩
  | localStep a new evs hlocal =>
    rw [goto_pc_self] at hpc
    subst hpc
    generalize s.pc c = pc at hlocal
    cases hlocal
  | callStep ch rc new hcall =>
    rw [goto_pc_self] at hpc
    subst hpc
    generalize s.pc c = pc at hcall
    generalize (s.call rc).2 = res at hcall
    cases hcall
  | register | dispatchLock | marked | markedAgain | lost | saveStart | saveItem | saveEnd =>
    rw [goto_pc_self] at hpc
    cases hpc
  | transferred | recorded => simp [lostTransfer, lostReport] at hpc

end Sends

/-! ### The connections of workers -/

/-- The connection of a worker before its registration is made: nothing was sent on it to the
    worker, and nothing to the coordinator but the registration. -/
structure Unregistered (s : Cluster) (c : ConnId) (w : Worker) : Prop where
  pc : w.pc = .register ∨ w.pc = .registering ∨ w.pc = .exited
  toPeer : s.toPeer c = []
  toCoord : ∀ m ∈ s.toCoord c, m = w.registration
  handled : ∀ m, s.coord.pc c = .handle m → m = w.registration
  silent : (s.coord.pc c).answering = false
  fresh : w.pc = .register → s.toCoord c = [] ∧ ∀ m, s.coord.pc c ≠ .handle m

/-- The message answers the registration of the worker. -/
structure WireMessage.Answers (m : WireMessage) (w : Worker) : Prop where
  type : m.type = .REGISTER_ACK
  worker : w.wid.isNull = false → m.worker = w.wid

/-- The connection of a worker after its registration: as long as the worker waits for the answer,
    that is the next message. -/
structure Registered (s : Cluster) (c : ConnId) (w : Worker) : Prop where
  pc : w.pc ≠ .register
  answer : w.pc = .registering → ∃ m rest, s.toPeer c = m :: rest ∧ m.Answers w

/-- Every connection of a worker is in one of the two states, and an unused one has no traffic. -/
structure HandshakeInv (s : Cluster) : Prop where
  reg : s.coord.RegInv
  unborn : ∀ c, s.coord.pc c = .unborn → c ∉ s.coord.regOrder ∧ s.toPeer c = []
  unregistered : ∀ c w, s.worker c = some w → c ∉ s.coord.regOrder → Unregistered s c w
  registered : ∀ c w, s.worker c = some w → c ∈ s.coord.regOrder → Registered s c w

section Invariant

variable {s : Cluster} {c : ConnId} {w : Worker}

theorem sentTo_eq_nil {evs : List Event} (h : ∀ m, .sent c m ∉ evs) : sentTo c evs = [] :=
  List.eq_nil_iff_forall_not_mem.mpr fun m hm => h m (mem_sentTo hm)

/-- Nothing is sent on a connection that is not registered, and not registered by the step. -/
theorem HandshakeInv.sentTo_eq_nil (inv : HandshakeInv s) {a : Action}
    (hreg : c ∉ (s.coord.step a).1.regOrder) (hsilent : (s.coord.pc c).answering = false) :
    sentTo c (s.coord.step a).2 = [] := by
  refine FailureFabric.sentTo_eq_nil (fun m hm => ?_)
  rcases Coord.sent_cases hm with htarget | ⟨rfl, hanswers | ⟨m₀, hregisters⟩⟩
  · exact hreg (s.coord.regOrder_grows a c (inv.reg.aimed a.conn c htarget))
  · rw [hsilent] at hanswers
    cases hanswers
  · rw [hregisters.ordered] at hreg
    exact hreg (List.mem_append_right _ (List.mem_singleton_self _))

/-- **Step lemma, coordinator.** A step keeps the invariant if what it receives of a worker that is
    not registered is the registration. -/
theorem HandshakeInv.coordStep (inv : HandshakeInv s) (a : Action)
    (hreceived : ∀ c m w, .received c m ∈ (s.coord.step a).2 → s.worker c = some w →
      c ∉ s.coord.regOrder → m = w.registration ∧ w.pc ≠ .register) :
    HandshakeInv (s.coordStep a).1 := by
  have hmoves := s.coord.step_moves a
  constructor
  · exact inv.reg.step a
  · intro c hpc
    by_cases hc : c = a.conn
    · subst hc
      obtain ⟨hs', hevs⟩ := hmoves.of_unborn hpc
      have hold : s.coord.pc a.conn = .unborn := by rw [← hs']; exact hpc
      obtain ⟨hreg, hqueue⟩ := inv.unborn _ hold
      dsimp only [Cluster.coordStep]
      rw [hs', hevs, hqueue]
      exact ⟨hreg, rfl⟩
    · have hold : s.coord.pc c = .unborn := by rw [← hmoves.pc_of_ne hc]; exact hpc
      obtain ⟨hreg, hqueue⟩ := inv.unborn c hold
      have hnew : c ∉ (s.coord.step a).1.regOrder :=
        fun hnew => hc (Coord.conn_of_registered hnew hreg).1
      refine ⟨hnew, ?_⟩
      dsimp only [Cluster.coordStep]
      rw [hqueue, inv.sentTo_eq_nil hnew (by rw [hold]; rfl)]
      rfl
  · intro c w hw hnew
    have hreg : c ∉ s.coord.regOrder := fun hold => hnew (s.coord.regOrder_grows a c hold)
    have hold := inv.unregistered c w hw hreg
    have hhandled : ∀ m, (s.coord.step a).1.pc c = .handle m →
        m = w.registration ∧ w.pc ≠ .register := by
      intro m hm
      by_cases hc : c = a.conn
      · subst hc
        rcases hmoves.to_handle hm with ⟨hs', -⟩ | hevs
        · rw [hs'] at hm
          exact ⟨hold.handled m hm, fun hpc => (hold.fresh hpc).2 m hm⟩
        · exact hreceived _ m w (by rw [hevs]; exact List.mem_cons_self) hw hreg
      · rw [hmoves.pc_of_ne hc] at hm
        exact ⟨hold.handled m hm, fun hpc => (hold.fresh hpc).2 m hm⟩
    refine ⟨hold.pc, ?_, hold.toCoord, fun m hm => (hhandled m hm).1, ?_, ?_⟩
    · dsimp only [Cluster.coordStep]
      rw [hold.toPeer, inv.sentTo_eq_nil hnew hold.silent]
      rfl
    · by_contra hanswers
      rw [Bool.not_eq_false] at hanswers
      by_cases hc : c = a.conn
      · subst hc
        rcases hmoves.to_answering hanswers with hbefore | ⟨m, hm⟩
        · rw [hold.silent] at hbefore
          cases hbefore
        -- it would have handled the registration
        · rcases Coord.step_registration hm (by rw [hold.handled m hm]; rfl) with
            hidle | ⟨-, m', hregisters⟩
          · have hsame : (s.coordStep a).1.coord = s.coord := congrArg Prod.fst hidle
            rw [hsame, hm] at hanswers
            cases hanswers
          · refine hnew ?_
            rw [show (s.coordStep a).1.coord.regOrder = _ from hregisters.ordered]
            exact List.mem_append_right _ (List.mem_singleton_self _)
      · rw [show (s.coordStep a).1.coord.pc c = _ from hmoves.pc_of_ne hc, hold.silent] at hanswers
        cases hanswers
    · exact fun hpc => ⟨(hold.fresh hpc).1, fun m hm => (hhandled m hm).2 hpc⟩
  · intro c w hw hnew
    by_cases hreg : c ∈ s.coord.regOrder
    · have hold := inv.registered c w hw hreg
      refine ⟨hold.pc, fun hpc => ?_⟩
      obtain ⟨m, rest, hqueue, hm⟩ := hold.answer hpc
      refine ⟨m, rest ++ sentTo c (s.coord.step a).2, ?_, hm⟩
      dsimp only [Cluster.coordStep]
      rw [hqueue]
      rfl
    -- the registration is made in this step, and answered
    · obtain ⟨rfl, m₀, hm₀, htype⟩ := Coord.conn_of_registered hnew hreg
      have hold := inv.unregistered _ w hw hreg
      obtain rfl := hold.handled m₀ hm₀
      refine ⟨fun hpc => (hold.fresh hpc).2 _ hm₀, fun _ => ?_⟩
      rcases Coord.step_registration hm₀ htype with hidle | ⟨-, m, hregisters⟩
      · have hsame : (s.coordStep a).1.coord = s.coord := congrArg Prod.fst hidle
        rw [hsame] at hnew
        exact absurd hnew hreg
      · refine ⟨m, [], ?_, hregisters.type, hregisters.worker⟩
        dsimp only [Cluster.coordStep]
        rw [hold.toPeer, hregisters.sent]
        simp [sentTo]

/-- A step that changes one connection and not the coordinator keeps the invariant if that
    connection is as it has to be. -/
theorem HandshakeInv.frame {s' : Cluster} (inv : HandshakeInv s) (hcoord : s'.coord = s.coord)
    (hother : ∀ c', c' ≠ c → s'.worker c' = s.worker c' ∧ s'.toCoord c' = s.toCoord c' ∧
      s'.toPeer c' = s.toPeer c')
    (hunborn : s.coord.pc c = .unborn → s'.toPeer c = [])
    (hunregistered : ∀ w, s'.worker c = some w → c ∉ s.coord.regOrder → Unregistered s' c w)
    (hregistered : ∀ w, s'.worker c = some w → c ∈ s.coord.regOrder → Registered s' c w) :
    HandshakeInv s' := by
  constructor
  · rw [hcoord]
    exact inv.reg
  · intro c' hpc
    rw [hcoord] at hpc ⊢
    refine ⟨(inv.unborn c' hpc).1, ?_⟩
    by_cases hc : c' = c
    · subst hc
      exact hunborn hpc
    · rw [(hother c' hc).2.2]
      exact (inv.unborn c' hpc).2
  · intro c' w hw hreg
    rw [hcoord] at hreg
    by_cases hc : c' = c
    · subst hc
      exact hunregistered w hw hreg
    · obtain ⟨hworker, htoCoord, htoPeer⟩ := hother c' hc
      rw [hworker] at hw
      have hold := inv.unregistered c' w hw hreg
      constructor
      · exact hold.pc
      · rw [htoPeer]
        exact hold.toPeer
      · rw [htoCoord]
        exact hold.toCoord
      · rw [hcoord]
        exact hold.handled
      · rw [hcoord]
        exact hold.silent
      · rw [htoCoord, hcoord]
        exact hold.fresh
  · intro c' w hw hreg
    rw [hcoord] at hreg
    by_cases hc : c' = c
    · subst hc
      exact hregistered w hw hreg
    · obtain ⟨hworker, -, htoPeer⟩ := hother c' hc
      rw [hworker] at hw
      have hold := inv.registered c' w hw hreg
      refine ⟨hold.pc, ?_⟩
      rw [htoPeer]
      exact hold.answer

/-- **Step lemma, worker.** A worker's own step keeps the invariant. -/
theorem HandshakeInv.workerStep (inv : HandshakeInv s) {pc : WorkerPc} {evs : List WorkerEvent}
    (hw : s.worker c = some w) (h : w.Moves pc none evs) :
    HandshakeInv (s.workerStep c { w with pc } evs).1 := by
  refine inv.frame (c := c) rfl (fun c' hc => ⟨Cluster.workerStep_worker_of_ne hc,
    Cluster.workerStep_toCoord_of_ne hc, rfl⟩) (fun hpc => (inv.unborn c hpc).2) ?_ ?_
  · intro w' hw' hreg
    rw [Cluster.workerStep_worker] at hw'
    obtain rfl := Option.some.inj hw'
    have hold := inv.unregistered c w hw hreg
    cases h with
    | stay =>
      refine ⟨hold.pc, hold.toPeer, ?_, hold.handled, hold.silent, ?_⟩
      all_goals
        rw [Cluster.workerStep_toCoord, List.filterMap_nil, List.append_nil]
      · exact hold.toCoord
      · exact hold.fresh
    | giveUp =>
      refine ⟨Or.inr (Or.inr rfl), hold.toPeer, ?_, hold.handled, hold.silent,
        fun hpc => by cases hpc⟩
      rw [Cluster.workerStep_toCoord, List.filterMap_nil, List.append_nil]
      exact hold.toCoord
    | registered hpc =>
      refine ⟨Or.inr (Or.inl rfl), hold.toPeer, ?_, hold.handled, hold.silent,
        fun hpc => by cases hpc⟩
      rw [Cluster.workerStep_toCoord, (hold.fresh hpc).1]
      intro m hm
      exact List.mem_singleton.mp hm
    | started m hpc | worked m pc ok hpc hnext | failed m text hpc | completed m text hpc =>
      have := hold.pc
      rw [hpc] at this
      rcases this with hno | hno | hno <;> cases hno
  · intro w' hw' hreg
    rw [Cluster.workerStep_worker] at hw'
    obtain rfl := Option.some.inj hw'
    have hold := inv.registered c w hw hreg
    cases h with
    | stay => exact ⟨hold.pc, hold.answer⟩
    | registered hpc => exact absurd hpc hold.pc
    | worked m pc ok hpc hnext =>
      constructor
      · rcases hnext with rfl | rfl <;> exact fun hno => by cases hno
      · rcases hnext with rfl | rfl <;> exact fun hno => by cases hno
    | giveUp | started | failed | completed =>
      exact ⟨fun hno => (by cases hno), fun hno => (by cases hno)⟩

/-- **Step lemma, delivery.** A worker that receives the next message keeps the invariant. -/
theorem HandshakeInv.deliver (inv : HandshakeInv s) {pc : WorkerPc} {m : WireMessage}
    {rest : List WireMessage} (hw : s.worker c = some w) (hqueue : s.toPeer c = m :: rest)
    (h : w.Moves pc (some m) []) :
    HandshakeInv (Cluster.workerStep { s with toPeer := Function.update s.toPeer c rest } c
      { w with pc } []).1 := by
  have hempty : s.toPeer c ≠ [] := by simp [hqueue]
  refine inv.frame (c := c) rfl (fun c' hc => ⟨Cluster.workerStep_worker_of_ne hc,
    Cluster.workerStep_toCoord_of_ne hc, Function.update_of_ne hc ..⟩)
    (fun hpc => absurd (inv.unborn c hpc).2 hempty) ?_ ?_
  · intro w' hw' hreg
    exact absurd (inv.unregistered c w hw hreg).toPeer hempty
  · intro w' hw' hreg
    rw [Cluster.workerStep_worker] at hw'
    obtain rfl := Option.some.inj hw'
    cases h with
    | acknowledged | refused | dispatched | shutDown | ignored =>
      exact ⟨fun hno => (by cases hno), fun hno => (by cases hno)⟩

/-- A worker that starts is on a connection that nobody has used. -/
theorem HandshakeInv.start (inv : HandshakeInv s) (hfresh : s.isFresh c = true)
    (hw : w.pc = .register) : HandshakeInv (s.workerStep c w []).1 := by
  obtain ⟨hpc, -, hqueue⟩ := Cluster.of_isFresh hfresh
  obtain ⟨hunregistered, hpeer⟩ := inv.unborn c hpc
  refine inv.frame (c := c) rfl (fun c' hc => ⟨Cluster.workerStep_worker_of_ne hc,
    Cluster.workerStep_toCoord_of_ne hc, rfl⟩) (fun _ => hpeer) ?_ ?_
  · intro w' hw' hreg
    rw [Cluster.workerStep_worker] at hw'
    obtain rfl := Option.some.inj hw'
    have hidle : (s.workerStep c w []).1.toCoord c = [] := by
      rw [Cluster.workerStep_toCoord, hqueue]
      rfl
    refine ⟨Or.inl hw, hpeer, ?_, ?_, ?_, fun _ => ⟨hidle, ?_⟩⟩
    · rw [hidle]
      exact fun m hm => by cases hm
    all_goals
      rw [Cluster.workerStep_coord, hpc]
    · exact fun m hm => by cases hm
    · rfl
    · exact fun m hm => by cases hm
  · exact fun w' hw' hreg => absurd hreg hunregistered

/-- A message that arrives at the coordinator is no longer on its way. -/
theorem HandshakeInv.popCoord (inv : HandshakeInv s) {m : WireMessage} {rest : List WireMessage}
    (hqueue : s.toCoord c = m :: rest) :
    HandshakeInv { s with toCoord := Function.update s.toCoord c rest } := by
  refine inv.frame (c := c) rfl (fun c' hc => ⟨rfl, Function.update_of_ne hc .., rfl⟩)
    (fun hpc => (inv.unborn c hpc).2) ?_ ?_
  · intro w hw hreg
    have hold := inv.unregistered c w hw hreg
    refine { hold with toCoord := ?_, fresh := fun hpc => ?_ }
    · exact fun m' hm' => hold.toCoord m' (mem_of_mem_pop hqueue hm')
    · rw [(hold.fresh hpc).1] at hqueue
      cases hqueue
  · intro w hw hreg
    have hold := inv.registered c w hw hreg
    exact ⟨hold.pc, hold.answer⟩

/-- **Step lemma.** Every step of the cluster keeps the invariant. -/
theorem HandshakeInv.step (inv : HandshakeInv s) (a : ClusterAction) :
    HandshakeInv (s.step a).1 := by
  have hmoves := s.step_moves a
  generalize (s.step a).1 = s', (s.step a).2 = evs at hmoves ⊢
  cases hmoves with
  | idle => exact inv
  | received c m rest hpc hqueue =>
    refine (inv.popCoord hqueue).coordStep _ (fun c' m' w hev hw hreg => ?_)
    obtain ⟨rfl, rfl⟩ := Action.receive.inj (Coord.receive_of_received hev)
    have hold := inv.unregistered _ w hw hreg
    refine ⟨hold.toCoord _ (by rw [hqueue]; exact List.mem_cons_self), fun hpc => ?_⟩
    rw [(hold.fresh hpc).1] at hqueue
    cases hqueue
  | coord a ha =>
    exact inv.coordStep a (fun c m w hev _ _ => absurd (Coord.receive_of_received hev) (ha c m))
  | start c workdir mode wid boot hfresh => exact inv.start hfresh rfl
  | own a c w pc evs hw hmove => exact inv.workerStep hw hmove
  | deliver c w pc m rest hw hqueue hmove => exact inv.deliver hw hqueue hmove
  | client c m hw =>
    have hnone : ∀ w, s.worker c ≠ some w := fun w hno => by rw [hw] at hno; cases hno
    exact inv.frame (c := c) rfl (fun c' hc => ⟨rfl, Function.update_of_ne hc .., rfl⟩)
      (fun hpc => (inv.unborn c hpc).2) (fun w hno _ => absurd hno (hnone w))
      (fun w hno _ => absurd hno (hnone w))

end Invariant

theorem handshakeInv_boot (file : Option (List UInt8)) : HandshakeInv (.boot file) where
  reg := ⟨fun _ hp => (by cases hp), fun _ _ ht => (by cases ht)⟩
  unborn := fun _ _ => ⟨List.not_mem_nil, rfl⟩
  unregistered := fun _ _ hw => by cases hw
  registered := fun _ _ hw => by cases hw

/-- **Run lemma.** The invariant holds in every run of the cluster. -/
theorem handshakeInv_run (file : Option (List UInt8)) (acts : List ClusterAction) :
    HandshakeInv (cluster.run (.boot file) acts) :=
  Machine.run_induction (fun _ a inv => inv.step a) (handshakeInv_boot file) acts

/-- No worker is sent anything before it has registered, and the next message for a worker that
    waits for the answer is the answer. -/
structure Cluster.Handshakes (s : Cluster) : Prop where
  silent : ∀ c w, s.worker c = some w → w.pc = .register → s.toPeer c = []
  answered : ∀ c w, s.worker c = some w → w.pc = .registering →
    ∀ m rest, s.toPeer c = m :: rest → m.Answers w

theorem HandshakeInv.handshakes {s : Cluster} (inv : HandshakeInv s) : s.Handshakes := by
  constructor
  · intro c w hw hpc
    have hreg : c ∉ s.coord.regOrder := fun hreg => (inv.registered c w hw hreg).pc hpc
    exact (inv.unregistered c w hw hreg).toPeer
  · intro c w hw hpc m rest hqueue
    have hreg : c ∈ s.coord.regOrder := by
      by_contra hreg
      rw [(inv.unregistered c w hw hreg).toPeer] at hqueue
      cases hqueue
    obtain ⟨m', rest', hqueue', hm'⟩ := (inv.registered c w hw hreg).answer hpc
    rw [hqueue] at hqueue'
    obtain ⟨rfl, -⟩ := List.cons.inj hqueue'
    exact hm'

/-- **The handshake works.** In every run of the cluster, no worker is sent anything before it has
    registered; and the next message for a worker that waits for the answer to its registration is
    that answer, with the worker's own id if it has given one: never work, an acknowledgement or a
    refusal from another thread of the coordinator, for which the worker would exit. -/
theorem workers_handshake (file : Option (List UInt8)) (acts : List ClusterAction) :
    (cluster.run (.boot file) acts).Handshakes :=
  (handshakeInv_run file acts).handshakes

end FailureFabric
