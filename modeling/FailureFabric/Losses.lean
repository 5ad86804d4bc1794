import FailureFabric.Ownership
import FailureFabric.InFlight

namespace FailureFabric

open Library

/-!
# Operations of lost workers

The thread of a connection that ended looks at the running connection, at the current operation
and at whether the coordinator has finished.  There is one of each, for all the workers and for all
the operations that were sent to them.

* `Held` — the operation was sent on the connection last, and is still in flight;
* `lossStands` — the condition on a step under which a loss is that of the current operation;
* `LossInv` — what the connection of a lost worker holds, its thread is still to report;
* `losses_handled` — in every run whose steps meet the condition, a connection whose loss has been
  handled holds nothing.
-/

/-- The thread is past the first critical section of a loss. -/
def Pc.lost : Pc → Bool
  | lostCheck | lostTransfer | lostBuild _ | lostReport .. | lostChoose _ | lostVerify ..
  | lostSend .. | lostMark _ | ended => true
  | _ => false

/-- The operation was dispatched again, and is about to be sent on another connection. -/
def Coord.MovesOn (s : Coord) (op : OperationId) (c : ConnId) : Prop :=
  ∃ c' auth target, s.pending c' = some (op, auth, target) ∧ target ≠ c

/-- The operation was sent on the connection last, is in flight, and does not move on. -/
structure Held (s : Coord) (t : List Event) (op : OperationId) (c : ConnId) : Prop where
  last : lastSent t op = some c
  flight : (s.store.ops.state op).inFlight = true
  waits : ¬ s.MovesOn op c

/-- Whenever in the run a connection's loss has been handled, the connection holds nothing. -/
def LossesHandled (s₀ : Coord) (acts : List Action) : Prop :=
  ∀ pre post, acts = pre ++ post → ∀ c op, (coordinator.run s₀ pre).pc c = .ended →
    ¬ Held (coordinator.run s₀ pre) (s₀.trace pre) op c

/-- The step loses no operation of a lost worker. -/
def lossStands (p : Coord × List Event) : Action → Prop
  | .proceed c _ =>
    match p.1.pc c with
    -- nothing is bound for, or sent on, a connection that is known to be lost
    | .dispatchLock .. => ∀ w ∈ p.1.workers.head?, (p.1.pc w.2).lost = false
    | .dispatchSend _ _ target => (p.1.pc target).lost = false
    | .lostChoose _ => ∀ r ∈ p.1.replacement, (p.1.pc r).lost = false
    | .lostSend _ r => (p.1.pc r).lost = false
    -- no recovery loses its operation to the mark of another one
    | .dispatchMark op _ _ => op = p.1.currentOp ∨ ∀ c', (p.1.pc c').redispatches = false ∧
        ((p.1.pc c').lost = true → ¬ Held p.1 p.2 p.1.currentOp c')
    -- the connection is the running one, and holds the current operation only
    | .lostLock => ∀ op, Held p.1 p.2 op c → p.1.runningConn = some c ∧ op = p.1.currentOp
    -- no other operation has finished
    | .lostCheck => p.1.finished = true → ¬ Held p.1 p.2 p.1.currentOp c
    | .lostReport .. => Held p.1 p.2 p.1.currentOp c → ¬ p.1.store.ops.Recorded p.1.currentOp
    | _ => True
  | _ => True

/-! ### The condition -/

section Condition

variable {s : Coord} {t : List Event} {a : Action} {c : ConnId} {op : OperationId}
  {auth : AuthorityEnvelope} {target : ConnId} {calls : List RegistryCall}

/-- Under the condition the current operation changes only when no recovery has chosen a
    replacement for it and no lost connection holds it. -/
theorem currentOp_of_lossStands (hC : lossStands (s, t) a) :
    (s.step a).1.currentOp = s.currentOp ∨ ∀ c', (s.pc c').redispatches = false ∧
      ((s.pc c').lost = true → ¬ Held s t s.currentOp c') := by
  rcases (s.step_moves a).currentOp_eq with heq | ⟨ch, auth, target, ha, hold⟩
  · exact Or.inl heq
  · rw [ha] at hC
    simp only [lossStands, hold] at hC
    exact hC

/-- Under the condition nothing is sent on a connection that is known to be lost. -/
theorem lost_of_sent {m : WireMessage} (hC : lossStands (s, t) a)
    (hev : .sent target m ∈ (s.step a).2) (htype : m.type = .DISPATCH) :
    (s.pc target).lost = false := by
  obtain ⟨ch, ha, hpc⟩ := Coord.proceeds_of_sent hev htype
  rw [ha] at hC
  rcases hpc with hold | hold <;>
  · simp only [lossStands, hold] at hC
    exact hC

/-- Under the condition nothing is bound for a connection that is known to be lost. -/
theorem Coord.Binds.lost_target (h : s.Binds c a op auth target calls)
    (hC : lossStands (s, t) a) : (s.pc target).lost = false := by
  cases h with
  | client ch _ _ wid _ rest hpc hworkers =>
    simp only [lossStands, hpc] at hC
    exact hC (wid, target) (by rw [hworkers]; rfl)
  | recovery ch cur drawn r hpc hr =>
    simp only [lossStands, hpc] at hC
    exact hC _ hr

/-- Under the condition a recovery keeps the operation that it chose a replacement for. -/
theorem currentOp_of_chosen (hC : lossStands (s, t) a) (c : ConnId)
    (hre : (s.pc c).redispatches = true) : (s.step a).1.currentOp = s.currentOp :=
  (currentOp_of_lossStands hC).resolve_right (fun h => absurd (hre.symm.trans (h c).1) (by simp))

end Condition

/-! ### What a lost connection holds -/

/-- The thread is still to report the failure of the operation. -/
def Coord.Handles (s : Coord) (c : ConnId) (op : OperationId) : Prop :=
  match s.pc c with
  | .lostCheck | .lostTransfer => op = s.currentOp
  | .lostBuild cur | .lostReport cur _ =>
    op = s.currentOp ∧ s.store.ops.currentAuthority op = cur
  | .lostChoose _ | .lostVerify .. | .lostSend .. | .lostMark _ | .ended => False
  | _ => True

/-- What a lost connection holds, its thread is still to report. -/
structure LossInv (s : Coord) (t : List Event) : Prop where
  settled : SettledInv s t
  handles : ∀ c op, Held s t op c → s.Handles c op

/-- `report_failure` under an operation's own authority fails an operation that is in flight. -/
theorem OperationRuntime.reportFailure_own {r : OperationRuntime}
    (hopen : r.terminalRecorded = false) (hauth : r.authority.isUnset = false)
    (hflight : r.machine.state.inFlight = true) :
    (r.reportFailure r.authority true).1.machine.state = .FAILED_AMBIGUOUS := by
  have hfence := fenceFailure_self hauth
  have hallowed : isAllowed r.machine.state .FAILED_AMBIGUOUS = true := by
    generalize r.machine.state = state at hflight
    cases state with
    | DISPATCHED | RUNNING => decide
    | _ => exact absurd hflight (by simp [OperationState.inFlight])
  unfold OperationRuntime.reportFailure
  rw [hopen, hfence, OperationStateMachine.transition, if_pos rfl, if_pos hallowed]
  rfl

section Invariant

variable {s : Coord} {t : List Event} {a : Action} {c : ConnId} {op : OperationId}

/-- What a connection holds it held before, when the step neither sends on it nor binds for it. -/
theorem SettledInv.held_before (inv : SettledInv s t)
    (hcur : ∀ c', (s.pc c').redispatches = true → (s.step a).1.currentOp = s.currentOp)
    (hsent : ∀ m, .sent c m ∈ (s.step a).2 → m.type ≠ .DISPATCH)
    (hbind : ∀ auth calls, ¬ s.Binds a.conn a op auth c calls)
    (h : Held (s.step a).1 (t ++ (s.step a).2) op c) :
    Held s t op c ∧
      (s.step a).1.store.ops.currentAuthority op = s.store.ops.currentAuthority op := by
  have hlive := OperationState.live_of_inFlight h.flight
  have hnone : ∀ x m, .sent x m ∈ (s.step a).2 → m.type = .DISPATCH → m.op ≠ op := by
    rintro x m hev htype rfl
    have hlast := h.last
    rw [((s.step_moves a).sent_dispatch hev htype).1, lastSent_sent htype] at hlast
    exact hsent m (by rw [← Option.some.inj hlast]; exact hev) htype
  have hlast : lastSent t op = some c := by rw [← lastSent_of_not_sent hnone]; exact h.last
  -- what the step binds it binds for another connection
  have hfree : ∀ auth target calls, s.Binds a.conn a op auth target calls →
      (s.step a).1.pending a.conn ≠ some (op, auth, target) := by
    intro auth target calls hbinds hp
    refine h.waits ⟨a.conn, auth, target, hp, ?_⟩
    rintro rfl
    exact hbind auth calls hbinds
  have hsettled := inv.sent op c hlast
  refine ⟨⟨hlast, ?_, ?_⟩, ?_⟩
  · rcases (s.step_moves a).inFlight_of hsettled h.flight with
      hold | ⟨auth, target, calls, hbinds, hp⟩
    · exact hold
    · exact absurd hp (hfree auth target calls hbinds)
  · rintro ⟨c', auth, target, hp, hne⟩
    exact h.waits ⟨c', auth, target, Coord.pending_stays hp (hcur c') hlive hnone, hne⟩
  · obtain ⟨r, hr, -⟩ := hsettled
    rcases (s.step_moves a).restless_of hr with
      ⟨auth, target, calls, hbinds, -, hp⟩ | ⟨r', hr', hauth, -⟩
    · exact absurd (hp hlive) (hfree auth target calls hbinds)
    · rw [OperationRegistry.currentAuthority, OperationRegistry.currentAuthority, hr, hr']
      exact hauth

/-- A thread whose place is the same is still to report what it was. -/
theorem Coord.Handles.of_pc {s' : Coord} (h : s.Handles c op) (hpc : s'.pc c = s.pc c)
    (hauth : s'.store.ops.currentAuthority op = s.store.ops.currentAuthority op)
    (hcur : op = s.currentOp → s'.currentOp = s.currentOp) : s'.Handles c op := by
  unfold Coord.Handles at h ⊢
  rw [hpc]
  generalize s.pc c = pc at h
  cases pc with
  | lostCheck | lostTransfer => exact h.trans (hcur h).symm
  | lostBuild cur | lostReport cur _ => exact ⟨h.1.trans (hcur h.1).symm, hauth.trans h.2⟩
  | lostChoose | lostVerify | lostSend | lostMark | ended => exact h
  | _ => trivial

/-- The report of a lost connection's thread fails what the connection held. -/
theorem LossInv.failed (inv : LossInv s t) {cur : AuthorityEnvelope} {b : FailureRecordBuilder}
    (hpc : s.pc c = .lostReport cur b) (hopen : ¬ s.store.ops.Recorded op) (h : Held s t op c) :
    (registry.step s.store.ops (.reportFailure op cur true)).1.state op = .FAILED_AMBIGUOUS := by
  obtain ⟨-, rfl⟩ : op = s.currentOp ∧ s.store.ops.currentAuthority op = cur := by
    have hhandles := inv.handles c op h
    rwa [Coord.Handles, hpc] at hhandles
  obtain ⟨r, hr, hsettled⟩ := inv.settled.sent op c h.last
  have hrec := OperationRegistry.not_recorded hopen hr
  have hauth : r.authority.isUnset = false :=
    (hsettled.resolve_left (by rw [hrec]; exact Bool.false_ne_true)).2
  have hflight : r.machine.state.inFlight = true := by
    have hflight := h.flight
    rwa [OperationRegistry.state, hr] at hflight
  have hcur : s.store.ops.currentAuthority op = r.authority := by
    rw [OperationRegistry.currentAuthority, hr]
  have hafter : (registry.step s.store.ops (.reportFailure op r.authority true)).1.find op =
      some (r.reportFailure r.authority true).1 :=
    registry_find_self s.store.ops (c := .reportFailure op r.authority true) hr
  rw [hcur, OperationRegistry.state, hafter]
  exact r.reportFailure_own hrec hauth hflight

/-- The thread of a lost connection is still to report what the connection still holds. -/
theorem LossInv.handles_mover (inv : LossInv s t) (hC : lossStands (s, t) a)
    (hlost : (s.pc a.conn).lost = true) (hold : Held s t op a.conn)
    (hflight : ((s.step a).1.store.ops.state op).inFlight = true) :
    (s.step a).1.Handles a.conn op := by
  have h := inv.handles a.conn op hold
  have hstarted : s.pc a.conn ≠ .unborn ∧ s.pc a.conn ≠ .reading := by
    constructor <;>
    · intro hpc
      rw [hpc] at hlost
      cases hlost
  rcases Coord.step_of_started hstarted with hidle | ⟨ch, ha, hstep⟩
  · rw [hidle]
    exact h
  · rw [ha] at hC
    unfold Coord.Handles at h
    unfold Coord.advance at hstep
    cases hpc : s.pc a.conn with
    | lostCheck =>
      rw [hpc] at h hstep
      simp only [lossStands, hpc] at hC
      obtain rfl : op = s.currentOp := h
      have hgoes : ¬ s.finished = true := fun hfinished => hC hfinished hold
      rw [hstep, if_neg hgoes, Coord.Handles, Coord.goto_pc_self]
      rfl
    | lostTransfer =>
      rw [hpc] at h hstep
      obtain rfl : op = s.currentOp := h
      rw [hstep, Coord.lostTransfer, Coord.Handles]
      simp [Coord.goto]
    | lostBuild cur =>
      rw [hpc] at h hstep
      rw [hstep, Coord.Handles, Coord.goto_pc_self]
      exact h
    | lostReport cur b =>
      rw [hpc] at hstep
      simp only [lossStands, hpc] at hC
      have hcur : op = s.currentOp := by
        rw [hpc] at h
        exact h.1
      rw [← hcur] at hC
      have hfailed := inv.failed hpc (hC hold) hold
      have hops : (s.step a).1.store.ops =
          (registry.step s.store.ops (.reportFailure s.currentOp cur true)).1 := by
        rw [(s.step_moves a).ops_eq.1, hstep]
        rfl
      rw [hops, ← hcur, hfailed] at hflight
      cases hflight
    | lostChoose | lostVerify | lostSend | lostMark | ended =>
      rw [hpc] at h
      exact absurd h id
    | _ =>
      rw [hpc] at hlost
      cases hlost

/-- The thread of a lost connection got there before, or stands at its first critical section. -/
theorem Coord.Moves.to_lost {s' : Coord} {evs : List Event} (h : s.Moves c a s' evs)
    (hpc : (s'.pc c).lost = true) : (s.pc c).lost = true ∨ s.pc c = .lostLock := by
  cases h with
  | idle => exact Or.inl hpc
  | localStep a new evs h =>
    rw [goto_pc_self] at hpc
    generalize s.pc c = pc at h
    cases h <;> first | exact Or.inl rfl | exact Or.inr rfl | exact absurd hpc (by simp [Pc.lost])
  | callStep ch rc new h =>
    rw [goto_pc_self] at hpc
    generalize s.pc c = pc at h
    generalize (s.call rc).2 = res at h
    cases h <;> first | exact Or.inl rfl | exact absurd hpc (by simp [Pc.lost])
  | lost a hold => exact Or.inr hold
  | markedAgain a r hold => exact Or.inl (by rw [hold]; rfl)
  | transferred a ch hold => exact Or.inl (by rw [hold]; rfl)
  | recorded a ch cur b hold => exact Or.inl (by rw [hold]; rfl)
  | register | dispatchLock | marked | saveStart | saveItem | saveEnd =>
    rw [goto_pc_self] at hpc
    exact absurd hpc (by simp [Pc.lost])

/-- At the first critical section nothing is sent or bound. -/
theorem LossInv.handles_new (inv : LossInv s t) (hC : lossStands (s, t) a)
    (hpc : s.pc a.conn = .lostLock) (h : Held (s.step a).1 (t ++ (s.step a).2) op a.conn) :
    (s.step a).1.Handles a.conn op := by
  rcases Coord.step_of_started (s := s) (a := a) (by rw [hpc]; simp) with hidle | ⟨ch, ha, hstep⟩
  · rw [hidle, Coord.Handles, hpc]
    trivial
  · have hevs : (s.step a).2 = [] := by
      rw [hstep, Coord.advance, hpc]
      dsimp only [Coord.lostLock]
      split <;> rfl
    obtain ⟨hold, -⟩ := inv.settled.held_before (currentOp_of_chosen hC)
      (fun m hev => absurd hev (by rw [hevs]; exact List.not_mem_nil))
      (fun auth calls hbinds => hbinds.ne_lostLock hpc) h
    rw [ha] at hC
    simp only [lossStands, hpc] at hC
    obtain ⟨hrun, hop⟩ := hC op hold
    rw [hstep, Coord.advance, hpc]
    dsimp only [Coord.lostLock]
    rw [if_pos hrun, Coord.Handles, Coord.goto_pc_self]
    exact hop

/-- **Step lemma.** A step that meets the condition keeps it that the thread of a lost connection
    is still to report what the connection holds. -/
theorem LossInv.step (inv : LossInv s t) (hC : lossStands (s, t) a) :
    LossInv (s.step a).1 (t ++ (s.step a).2) where
  settled := inv.settled.step (s.step_moves a) (currentOp_of_chosen hC)
  handles := by
    intro c op h
    by_cases hlost : (s.pc c).lost = true
    · obtain ⟨hold, hauth⟩ := inv.settled.held_before (currentOp_of_chosen hC)
        (fun m hev htype => absurd (hlost.symm.trans (lost_of_sent hC hev htype)) (by simp))
        (fun auth calls hbinds => absurd (hlost.symm.trans (hbinds.lost_target hC)) (by simp)) h
      by_cases hc : c = a.conn
      · subst hc
        exact inv.handles_mover hC hlost hold h.flight
      · refine (inv.handles c op hold).of_pc ((s.step_moves a).pc_of_ne hc) hauth ?_
        rintro rfl
        exact (currentOp_of_lossStands hC).resolve_right (fun hnone => (hnone c).2 hlost hold)
    · by_cases hlost' : ((s.step a).1.pc c).lost = true
      · obtain rfl : c = a.conn := by
          refine (s.step_moves a).mover (fun hpc => hlost ?_)
          rw [← hpc]
          exact hlost'
        have hpc := ((s.step_moves a).to_lost hlost').resolve_left hlost
        exact inv.handles_new hC hpc h
      · unfold Coord.Handles
        generalize (s.step a).1.pc c = pc at hlost'
        cases pc with
        | lostCheck | lostTransfer | lostBuild | lostReport | lostChoose | lostVerify | lostSend
        | lostMark | ended => exact absurd rfl hlost'
        | _ => trivial

theorem lossInv_boot (file : Option (List UInt8)) : LossInv (Coord.boot file) [] where
  settled := settledInv_boot file
  handles := fun _ _ h => by cases h.last

end Invariant

/-! ### Whole runs -/

/-- **Run lemma.** Under the condition, what a lost connection holds at any point of a run its
    thread is still to report. -/
theorem lossInv_run (file : Option (List UInt8)) {acts : List Action}
    (hC : coordinator.traced.Always lossStands (.boot file, []) acts) :
    LossInv (coordinator.run (.boot file) acts) ((Coord.boot file).trace acts) := by
  have h := Machine.always_induction (M := coordinator.traced) (P := fun p => LossInv p.1 p.2)
    (fun p a hC inv => inv.step hC) (lossInv_boot file) hC
  rw [Machine.run_traced] at h
  exact h

/-- **Losses are handled.** In a run of the coordinator whose steps all meet the condition, an
    operation that was sent last on a connection whose loss has been handled is not in flight,
    unless it was dispatched again for another connection. -/
theorem losses_handled (file : Option (List UInt8)) (acts : List Action)
    (hC : coordinator.traced.Always lossStands (.boot file, []) acts) :
    LossesHandled (.boot file) acts := by
  rintro pre post rfl c op hended hheld
  have hhandles := (lossInv_run file ((Machine.always_append _ _ pre post).mp hC).1).handles c op
    hheld
  rw [Coord.Handles, hended] at hhandles
  exact hhandles

theorem losses_handled_firstLoss : LossesHandled (.boot none) firstLoss := by
  refine losses_handled none firstLoss ?_
  refine ⟨trivial, trivial, trivial, trivial, trivial, trivial, trivial, trivial, trivial,
    ?_, rfl, Or.inr ?_, trivial, trivial, ?_, ?_, trivial, trivial, ?_, ?_, trivial, rfl,
    trivial, trivial⟩
  · -- the client finds the first worker
    rintro w hw
    obtain rfl : (⟨.ofByte 7⟩, 0) = w := Option.some.inj hw
    rfl
  · -- no thread is handling a loss when the operation is marked
    intro c'
    match c' with
    | 0 | 1 | 2 => exact ⟨rfl, fun h => by cases h⟩
    | _ + 3 => exact ⟨rfl, fun h => by cases h⟩
  · -- the operation is the only one that was sent
    intro op hheld
    have hsent : op ∈ sentOps ((Coord.boot none).trace (firstLoss.take 14)) :=
      mem_sentOps_of_lastSent hheld.last
    have hops : sentOps ((Coord.boot none).trace (firstLoss.take 14)) = [sampleOp] := by
      decide +kernel
    rw [hops, List.mem_singleton] at hsent
    subst hsent
    exact ⟨rfl, rfl⟩
  · exact fun hfinished => absurd hfinished (by decide)
  · rintro - ⟨r, hr, hrec⟩
    have hopen : ((coordinator.run (.boot none) (firstLoss.take 18)).store.ops.find sampleOp).map
        OperationRuntime.terminalRecorded = some false := by
      decide +kernel
    have hmap : some false = some r.terminalRecorded :=
      hopen.symm.trans (congrArg (Option.map OperationRuntime.terminalRecorded) hr)
    rw [hrec] at hmap
    cases hmap
  · -- the second worker replaces it
    rintro r hr
    obtain rfl : 2 = r := Option.some.inj hr
    rfl

/-- The only worker is given two operations and is lost, and its loss is handled. -/
def busyLoss : List Action :=
  registration 0 7 8 ++ [.accept 1] ++ request sampleOp 5 ++ request otherOp 6 ++ loss 0 20

/-- The first of them is left running on the lost connection. -/
theorem lost_operation_left_running :
    lastSent ((Coord.boot none).trace busyLoss) sampleOp = some 0 ∧
      (coordinator.run (.boot none) busyLoss).store.ops.state sampleOp = .RUNNING ∧
      ¬ LossesHandled (.boot none) busyLoss := by
  have hlast : lastSent ((Coord.boot none).trace busyLoss) sampleOp = some 0 := by
    decide +kernel
  have hstate : (coordinator.run (.boot none) busyLoss).store.ops.state sampleOp = .RUNNING := by
    decide +kernel
  refine ⟨hlast, hstate, fun h => ?_⟩
  refine h busyLoss [] (List.append_nil _).symm 0 sampleOp rfl ⟨hlast, by rw [hstate]; rfl, ?_⟩
  -- no thread is about to send it again
  rintro ⟨c', auth, target, hp, -⟩
  match c' with
  | 0 | 1 => cases hp
  | _ + 2 => cases hp

end FailureFabric
