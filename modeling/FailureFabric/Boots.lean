import FailureFabric.Ownership
import FailureFabric.Pending

namespace FailureFabric

open Library

/-!
# Boots and envelopes

Each worker registers the id of its boot, and the envelope of an attempt names the boot that holds
the work.  A client's request reads the boot before it takes the lock under which it chooses the
worker, and the envelope of a recovery keeps the boot of the lost worker.

* `DistinctBoots` — the workers that register do so under boots of their own;
* `bootStands` — the condition on a step under which the boot of a binding is that of the worker
  that the work goes to;
* `BootInv` — what is pending names the boot of its connection, and so does the authority;
* `BootInv.sent` — under the condition, what is sent is bound to the boot of the worker that it goes
  to.
-/

/-- The boots that were registered, with their connections, in order. -/
def registrations (t : List Event) : List (ConnId × WorkerBootId) :=
  t.filterMap fun
    | .received c m => if m.type = .REGISTER then some (c, m.boot) else none
    | _ => none

/-- No boot is null, and none is registered twice. -/
structure DistinctBoots (t : List Event) : Prop where
  set : ∀ p ∈ registrations t, p.2.isNull = false
  nodup : ((registrations t).map Prod.snd).Nodup

/-- The envelope names the boot of the connection, and so does the authority of the operation. -/
structure Coord.Bound (s : Coord) (op : OperationId) (auth : AuthorityEnvelope)
    (target : ConnId) : Prop where
  envelope : auth.workerBoot = (s.conn target).boot
  authority : (s.store.ops.currentAuthority op).workerBoot = (s.conn target).boot

/-- Binding the operation to the boot, for the connection, gives both the boot of the connection;
    a recorded operation keeps the authority that it has. -/
structure Coord.BindsRight (s : Coord) (op : OperationId) (boot : WorkerBootId)
    (target : ConnId) : Prop where
  envelope : boot = (s.conn target).boot
  recorded : s.store.ops.Recorded op →
    (s.store.ops.currentAuthority op).workerBoot = (s.conn target).boot

/-- Binding the operation to the boot leaves what is pending for it with the right boot. -/
def Coord.Undisturbed (s : Coord) (op : OperationId) (boot : WorkerBootId) : Prop :=
  ¬ s.store.ops.Recorded op → ∀ c auth target, s.pending c = some (op, auth, target) →
    boot = (s.conn target).boot

/-- The step keeps envelopes and boots together. -/
def bootStands (s : Coord) : Action → Prop
  | .proceed c _ =>
    match s.pc c with
    -- no worker registers again while something is about to be sent to it
    | .handle m => m.type = .REGISTER → ∀ c' op auth, s.pending c' ≠ some (op, auth, c)
    -- the boot that was read is that of the worker that is chosen now
    | .dispatchLock op auth => ∀ p ∈ s.workers.head?,
        s.BindsRight op auth.workerBoot p.2 ∧ s.Undisturbed op auth.workerBoot
    -- the replacement has the boot of the lost worker
    | .lostChoose cur => ∀ r ∈ s.replacement, s.Undisturbed s.currentOp cur.workerBoot ∧
        (isTerminal (s.store.ops.state s.currentOp) = false →
          s.BindsRight s.currentOp cur.workerBoot r)
    -- no recovery loses the operation that it chose a replacement for
    | .dispatchMark op _ _ => op = s.currentOp ∨ ∀ c', (s.pc c').redispatches = false
    | _ => True
  | _ => True

/-! ### The table of connections -/

namespace Coord

variable {s : Coord} {a : Action}

theorem mem_setWorker {c : ConnId} {wid : WorkerId} {order : List (WorkerId × ConnId)}
    {p : WorkerId × ConnId} (h : p ∈ s.setWorker c wid order) : p ∈ s.workers ∨ p = (wid, c) := by
  unfold setWorker at h
  split_ifs at h with hknown hperm
  · obtain ⟨q, hq, rfl⟩ := List.mem_map.mp h
    split_ifs
    · exact Or.inr rfl
    · exact Or.inl hq
  · simpa using hperm.mem_iff.mp h
  · simpa using h

/-- A message that is no registration leaves the connections and the tables as they are. -/
theorem handleMessage_tables {c : ConnId} {m : WireMessage} (hm : m.type ≠ .REGISTER)
    (ch : Choice) : (s.handleMessage c m ch).1.conn = s.conn ∧
      (s.handleMessage c m ch).1.workers = s.workers ∧
      (s.handleMessage c m ch).1.regOrder = s.regOrder := by
  unfold handleMessage
  split <;> first | exact ⟨rfl, rfl, rfl⟩ | contradiction

/-- A thread that handles no message registers nothing. -/
private theorem Moves.conn_of_ne {c : ConnId} {s' : Coord} {evs : List Event}
    (h : s.Moves c a s' evs) (hpc : ∀ m, s.pc c ≠ .handle m) (x : ConnId) :
    (s'.conn x).boot = (s.conn x).boot ∧ (s'.conn x).worker = (s.conn x).worker := by
  cases h with
  | register a m wid order hold => exact absurd hold (hpc m)
  | marked ch op auth target | markedAgain a target =>
    by_cases hx : x = target
    · subst hx
      simp [mark, goto]
    · simp [mark, goto, Function.update_of_ne hx]
  | idle | localStep | callStep | dispatchLock | lost | transferred | recorded | saveStart
  | saveItem | saveEnd => exact ⟨rfl, rfl⟩

/-- **Inversion.** A step leaves the boot of a connection alone, and does not make it less of a
    worker, unless it is a registration on it. -/
theorem conn_step (s : Coord) (a : Action) (x : ConnId) :
    ((s.step a).1.conn x).boot = (s.conn x).boot ∧
        ((s.step a).1.conn x).worker = (s.conn x).worker ∨
      ∃ m, s.pc a.conn = .handle m ∧ m.type = .REGISTER ∧ x = a.conn ∧
        ((s.step a).1.conn x).boot = m.boot ∧ ((s.step a).1.conn x).worker = true ∧
        ∃ ch, a = .proceed x ch := by
  by_cases hhandle : ∃ m, s.pc a.conn = .handle m
  · obtain ⟨m, hm⟩ := hhandle
    rcases step_of_started (s := s) (a := a) (by simp [hm]) with hidle | ⟨ch, ha, hstep⟩
    · rw [hidle]
      exact Or.inl ⟨rfl, rfl⟩
    · have hhandled : s.step a = s.handleMessage a.conn m ch := by rw [hstep, advance, hm]
      rw [hhandled]
      by_cases htype : m.type = .REGISTER
      · by_cases hx : x = a.conn
        · subst hx
          refine Or.inr ⟨m, hm, htype, rfl, ?_, ?_, ch, ha⟩ <;>
          · unfold handleMessage
            rw [htype]
            simp [goto]
        · left
          unfold handleMessage
          rw [htype]
          simp [goto, Function.update_of_ne hx]
      · rw [(handleMessage_tables htype ch).1]
        exact Or.inl ⟨rfl, rfl⟩
  · exact Or.inl ((s.step_moves a).conn_of_ne (fun m hm => hhandle ⟨m, hm⟩) x)

/-- The replacement is the first of `g_reg_order`, and counted, or it is listed. -/
theorem listed_of_replacement {r : ConnId} (h : s.replacement = some r) :
    (s.regOrder.head? = some r ∧ ∃ w ∈ s.workers, w.1 = (s.conn r).wid) ∨
      ∃ w ∈ s.workers, w.2 = r := by
  unfold replacement at h
  split at h
  · cases h
  · cases h
  · next hworkers horder =>
    split_ifs at h with hcount
    · obtain rfl := Option.some.inj h
      exact Or.inl ⟨by rw [horder]; rfl, by simpa using hcount⟩
    · obtain rfl := Option.some.inj h
      exact Or.inr ⟨_, by rw [hworkers]; exact List.mem_cons_self, rfl⟩

end Coord

/-! ### Who registered -/

/-- A worker is known under the boot that it registered last. -/
structure RegisterInv (s : Coord) (t : List Event) : Prop where
  handled : ∀ c m, s.pc c = .handle m → .received c m ∈ t
  booted : ∀ x, (s.conn x).worker = true → (x, (s.conn x).boot) ∈ registrations t
  workers : ∀ p ∈ s.workers, (s.conn p.2).worker = true
  regOrder : ∀ r ∈ s.regOrder, (s.conn r).worker = true

section Register

variable {s : Coord} {a : Action} {t : List Event}

theorem mem_registrations {c : ConnId} {m : WireMessage} (h : .received c m ∈ t)
    (hm : m.type = .REGISTER) : (c, m.boot) ∈ registrations t :=
  List.mem_filterMap.mpr ⟨_, h, if_pos hm⟩

theorem RegisterInv.handled_step (inv : RegisterInv s t) (c : ConnId) (m : WireMessage)
    (hpc : (s.step a).1.pc c = .handle m) : .received c m ∈ t ++ (s.step a).2 := by
  by_cases hc : c = a.conn
  · subst hc
    rcases (s.step_moves a).to_handle hpc with ⟨hs', -⟩ | hevs
    · rw [hs'] at hpc
      exact List.mem_append_left _ (inv.handled _ m hpc)
    · rw [hevs]
      exact List.mem_append_right _ List.mem_cons_self
  · rw [(s.step_moves a).pc_of_ne hc] at hpc
    exact List.mem_append_left _ (inv.handled c m hpc)

/-- A worker stays one. -/
theorem worker_stays {x : ConnId} (h : (s.conn x).worker = true) :
    ((s.step a).1.conn x).worker = true := by
  rcases s.conn_step a x with ⟨-, hworker⟩ | ⟨m, -, -, -, -, hworker, -⟩
  · rw [hworker]
    exact h
  · exact hworker

theorem RegisterInv.booted_step (inv : RegisterInv s t) (x : ConnId)
    (h : ((s.step a).1.conn x).worker = true) :
    (x, ((s.step a).1.conn x).boot) ∈ registrations (t ++ (s.step a).2) := by
  unfold registrations
  rw [List.filterMap_append]
  refine List.mem_append_left _ ?_
  rcases s.conn_step a x with ⟨hboot, hworker⟩ | ⟨m, hpc, hm, rfl, hboot, -⟩
  · rw [hboot]
    exact inv.booted x (by rw [← hworker]; exact h)
  · rw [hboot]
    exact mem_registrations (inv.handled _ m hpc) hm

/-- What is listed after a step was listed before, or registers. -/
theorem Coord.Moves.listed {s' : Coord} {c : ConnId} {evs : List Event} (h : s.Moves c a s' evs) :
    (∀ p ∈ s'.workers, p ∈ s.workers ∨ p.2 = c ∧ (s'.conn c).worker = true) ∧
      ∀ r ∈ s'.regOrder, r ∈ s.regOrder ∨ r = c ∧ (s'.conn c).worker = true := by
  cases h with
  | register a m wid order hold =>
    refine ⟨fun p hp => ?_, fun r hr => ?_⟩
    · refine (Coord.mem_setWorker hp).imp id (fun hnew => ⟨by rw [hnew], ?_⟩)
      simp [Coord.goto]
    · refine (List.mem_append.mp hr).imp id (fun hnew => ⟨List.mem_singleton.mp hnew, ?_⟩)
      simp [Coord.goto]
  | lost => exact ⟨fun p hp => Or.inl (List.mem_filter.mp hp).1, fun r hr => Or.inl hr⟩
  | idle | localStep | callStep | dispatchLock | marked | markedAgain | transferred | recorded
  | saveStart | saveItem | saveEnd => exact ⟨fun p hp => Or.inl hp, fun r hr => Or.inl hr⟩

/-- **Step lemma.** Every step keeps track of who registered. -/
theorem RegisterInv.step (inv : RegisterInv s t) (a : Action) :
    RegisterInv (s.step a).1 (t ++ (s.step a).2) where
  handled := inv.handled_step
  booted := inv.booted_step
  workers := by
    intro p hp
    rcases (s.step_moves a).listed.1 p hp with hold | ⟨hp, hworker⟩
    · exact worker_stays (inv.workers p hold)
    · rw [hp]
      exact hworker
  regOrder := by
    intro r hr
    rcases (s.step_moves a).listed.2 r hr with hold | ⟨rfl, hworker⟩
    · exact worker_stays (inv.regOrder r hold)
    · exact hworker

theorem registerInv_boot (file : Option (List UInt8)) : RegisterInv (Coord.boot file) [] where
  handled := fun _ _ h => by cases h
  booted := fun _ h => by cases h
  workers := fun _ h => by cases h
  regOrder := fun _ h => by cases h

end Register

/-! ### What is pending names the right boot -/

/-- What is pending goes to a worker, under the boot of that worker. -/
structure BootInv (s : Coord) (t : List Event) : Prop where
  tracked : s.Tracked
  registered : RegisterInv s t
  bound : ∀ c op auth target, s.pending c = some (op, auth, target) → s.Bound op auth target
  worker : ∀ c op auth target, s.pending c = some (op, auth, target) →
    (s.conn target).worker = true

section Invariant

variable {s : Coord} {a : Action} {t : List Event} {c : ConnId} {op : OperationId}
  {auth : AuthorityEnvelope} {target : ConnId} {calls : List RegistryCall}

/-- Under the condition a recovery keeps the operation that it chose a replacement for. -/
theorem currentOp_of_bootStands (hC : bootStands s a) (hre : (s.pc c).redispatches = true) :
    (s.step a).1.currentOp = s.currentOp := by
  rcases (s.step_moves a).currentOp_eq with heq | ⟨ch, auth, target, ha, hold⟩
  · exact heq
  · rw [ha] at hC
    simp only [bootStands, hold] at hC
    exact hC.resolve_right (fun hnone => absurd (hre.symm.trans (hnone c)) (by simp))

/-- Under the condition a binding disturbs nothing that is pending. -/
theorem Coord.Binds.undisturbed (h : s.Binds c a op auth target calls) (hC : bootStands s a) :
    s.Undisturbed op auth.workerBoot := by
  cases h with
  | client ch _ _ wid _ rest hpc hworkers =>
    simp only [bootStands, hpc] at hC
    exact (hC (wid, target) (by rw [hworkers]; rfl)).2
  | recovery ch cur drawn r hpc hr =>
    simp only [bootStands, hpc] at hC
    exact (hC _ hr).1

/-- Under the condition a binding for a send to come names the boot of the worker. -/
theorem Coord.Binds.right (h : s.Binds c a op auth target calls) (hC : bootStands s a)
    (hlive : s.pc c = .dispatchLock op auth ∨ isTerminal (s.store.ops.state op) = false) :
    s.BindsRight op auth.workerBoot target := by
  cases h with
  | client ch _ _ wid _ rest hpc hworkers =>
    simp only [bootStands, hpc] at hC
    exact (hC (wid, target) (by rw [hworkers]; rfl)).1
  | recovery ch cur drawn r hpc hr =>
    simp only [bootStands, hpc] at hC
    exact (hC _ hr).2 (hlive.resolve_left (fun hlock => by rw [hpc] at hlock; cases hlock))

/-- A step that binds an operation registers nobody. -/
theorem Coord.Binds.conn_eq (h : s.Binds a.conn a op auth target calls) (x : ConnId) :
    ((s.step a).1.conn x).boot = (s.conn x).boot := by
  rcases s.conn_step a x with ⟨hboot, -⟩ | ⟨m, hpc, -⟩
  · exact hboot
  · generalize a.conn = c at h hpc
    cases h with
    | client _ _ _ _ _ _ hold | recovery _ _ _ _ hold =>
      rw [hold] at hpc
      cases hpc

/-- What is pending to a connection keeps its boot. -/
theorem boot_of_pending (hC : bootStands s a) (hp : s.pending c = some (op, auth, target)) :
    ((s.step a).1.conn target).boot = (s.conn target).boot := by
  rcases s.conn_step a target with ⟨hboot, -⟩ | ⟨m, hpc, hm, rfl, -, -, ch, ha⟩
  · exact hboot
  · generalize a.conn = x at *
    subst ha
    simp only [bootStands, hpc] at hC
    exact absurd hp (hC hm c op auth)

/-- What was pending before the step stays bound to the right boot. -/
theorem BootInv.bound_old (inv : BootInv s t) (hC : bootStands s a)
    (hp : s.pending c = some (op, auth, target)) : (s.step a).1.Bound op auth target := by
  have hold := inv.bound c op auth target hp
  have hboot := boot_of_pending hC hp
  refine ⟨by rw [hboot]; exact hold.envelope, ?_⟩
  rw [hboot]
  rcases (s.step_moves a).authority_of (inv.tracked.pending_known hp) with
    heq | ⟨auth', target', calls, hbinds, hops⟩
  · rw [heq]
    exact hold.authority
  · obtain ⟨hkept, hrebound⟩ := hbinds.authority inv.tracked
    rw [hops]
    by_cases hrec : s.store.ops.Recorded op
    · rw [hkept hrec]
      exact hold.authority
    · rw [hrebound hrec]
      exact hbinds.undisturbed hC hrec c auth target hp

/-- What the step binds is bound to the right boot. -/
theorem BootInv.bound_new (inv : BootInv s t) (hC : bootStands s a)
    (hbinds : s.Binds a.conn a op auth target calls)
    (hops : (s.step a).1.store.ops = registry.run s.store.ops calls)
    (hlive : s.pc a.conn = .dispatchLock op auth ∨ isTerminal (s.store.ops.state op) = false) :
    (s.step a).1.Bound op auth target := by
  have hright := hbinds.right hC hlive
  have hboot := hbinds.conn_eq target
  refine ⟨by rw [hboot]; exact hright.envelope, ?_⟩
  obtain ⟨hkept, hrebound⟩ := hbinds.authority inv.tracked
  rw [hboot, hops]
  by_cases hrec : s.store.ops.Recorded op
  · rw [hkept hrec]
    exact hright.recorded hrec
  · rw [hrebound hrec]
    exact hright.envelope

/-- What the step binds goes to a worker. -/
theorem BootInv.worker_new (inv : BootInv s t) (hbinds : s.Binds c a op auth target calls) :
    (s.conn target).worker = true := by
  cases hbinds with
  | client ch _ _ wid _ rest _ hworkers =>
    exact inv.registered.workers (wid, target) (by rw [hworkers]; exact List.mem_cons_self)
  | recovery ch cur drawn _ _ hr =>
    rcases Coord.listed_of_replacement hr with ⟨hhead, -⟩ | ⟨p, hp, rfl⟩
    · exact inv.registered.regOrder _ (List.mem_of_mem_head? hhead)
    · exact inv.registered.workers p hp

/-- **Step lemma.** A step under the condition keeps the invariant. -/
theorem BootInv.step (inv : BootInv s t) (a : Action) (hC : bootStands s a) :
    BootInv (s.step a).1 (t ++ (s.step a).2) where
  tracked := inv.tracked.step (s.step_moves a)
  registered := inv.registered.step a
  bound := by
    intro c op auth target hp
    rcases (s.step_moves a).pending_of (currentOp_of_bootStands hC) hp with
      hold | ⟨rfl, calls, hbinds, hops, hlive⟩
    · exact inv.bound_old hC hold
    · exact inv.bound_new hC hbinds hops hlive
  worker := by
    intro c op auth target hp
    rcases (s.step_moves a).pending_of (currentOp_of_bootStands hC) hp with
      hold | ⟨rfl, calls, hbinds, -, -⟩
    · exact worker_stays (inv.worker c op auth target hold)
    · exact worker_stays (inv.worker_new hbinds)

theorem bootInv_boot (file : Option (List UInt8)) : BootInv (Coord.boot file) [] where
  tracked := tracked_boot file
  registered := registerInv_boot file
  bound := fun _ _ _ _ h => by cases h
  worker := fun _ _ _ _ h => by cases h

/-- **Run lemma.** The invariant holds after every run whose steps meet the condition. -/
theorem bootInv_run (file : Option (List UInt8)) {acts : List Action}
    (hC : coordinator.Always bootStands (.boot file) acts) :
    BootInv (coordinator.run (.boot file) acts) ((Coord.boot file).trace acts) := by
  exact Machine.trace_induction (M := coordinator) (P := BootInv)
    (fun s a _ hC inv => inv.step a hC) (bootInv_boot file) hC

/-- What is sent is bound to the boot of the worker that it goes to. -/
theorem BootInv.sent {m : WireMessage} (inv : BootInv s t)
    (hsent : .sent target m ∈ (s.step a).2) (htype : m.type = .DISPATCH) :
    (s.step a).1.Bound m.op m.authority target ∧
      (target, ((s.step a).1.conn target).boot) ∈ registrations t ∧
      (s.step a).1.store.ops.has m.op = true := by
  have hp := (s.step_moves a).sent_pending hsent htype
  obtain ⟨-, new, hs', -⟩ := (s.step_moves a).sent_dispatch hsent htype
  have hbound := inv.bound _ _ _ _ hp
  rw [hs']
  exact ⟨⟨hbound.envelope, hbound.authority⟩,
    inv.registered.booted target (inv.worker _ _ _ _ hp), inv.tracked.pending_known hp⟩

end Invariant

end FailureFabric
