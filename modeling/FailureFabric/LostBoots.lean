import FailureFabric.Targets

namespace FailureFabric

open Library

/-!
# Boots of lost workers

A worker is lost when the thread of its connection has returned.  Nothing that the thread does
fences the boot itself: an operation is bound to the boot until it is bound to another one, and an
operation that is not sent again stays bound to it.

* `lossFences` — the condition on a step under which no operation is left, or bound again, to the
  boot of a lost worker;
* `AliveInv` — every operation that was sent is bound to the boot of a connection whose thread has
  not returned;
* `BootsBound`, `boots_bound` — every run whose steps meet both conditions sends the envelope of the
  right boot, fences every other, and fences the boots of lost workers.
-/

/-- The thread has returned. -/
def Pc.returned : Pc → Bool
  | ended => true
  | _ => false

/-- No operation that was sent is bound to a boot of the connection. -/
def Unbound (s : Coord) (t : List Event) (c : ConnId) : Prop :=
  ∀ op ∈ sentOps t, ∀ b ∈ registrations t, b.1 = c →
    (s.store.ops.currentAuthority op).workerBoot ≠ b.2

/-- The step leaves no operation that was sent to the boot of a lost worker. -/
def lossFences (p : Coord × List Event) : Action → Prop
  | .proceed c _ =>
    match p.1.pc c with
    -- the thread returns: it was not the running one, the coordinator has finished, there is
    -- nothing to send or nobody to send it to, or the work has been sent
    | .lostLock => p.1.holder = none → p.1.runningConn ≠ some c → Unbound p.1 p.2 c
    | .lostCheck => p.1.finished = true → Unbound p.1 p.2 c
    | .lostVerify _ replacement =>
      (replacement = none ∨ isTerminal (p.1.store.ops.state p.1.currentOp) = true) →
        Unbound p.1 p.2 c
    | .lostMark _ => p.1.holder = none → Unbound p.1 p.2 c
    -- nothing is bound for, or sent on, a connection whose thread has returned
    | .dispatchLock .. => ∀ w ∈ p.1.workers.head?, (p.1.pc w.2).returned = false
    | .dispatchSend _ _ target => (p.1.pc target).returned = false
    | .lostSend _ r => (p.1.pc r).returned = false
    -- and an operation that is terminal, but not recorded, keeps the boot that was read
    | .lostChoose cur => ∀ r ∈ p.1.replacement, (p.1.pc r).returned = false ∧
        (isTerminal (p.1.store.ops.state p.1.currentOp) = true →
          cur.workerBoot = (p.1.store.ops.currentAuthority p.1.currentOp).workerBoot ∨
            p.1.store.ops.Recorded p.1.currentOp)
    | _ => True
  | _ => True

instance (p : Coord × List Event) (a : Action) : Decidable (lossFences p a) := by
  unfold lossFences Unbound
  split
  · split <;> infer_instance
  · infer_instance

/-! ### The condition -/

section Condition

variable {s : Coord} {t : List Event} {a : Action} {c : ConnId} {op : OperationId}
  {auth : AuthorityEnvelope} {target : ConnId} {calls : List RegistryCall}

theorem Pc.returned_iff {pc : Pc} : pc.returned = true ↔ pc = .ended := by
  cases pc <;> simp [returned]

/-- Under the condition the thread of a lost worker returns only when what was sent is bound
    elsewhere. -/
theorem unbound_of_returns (hE : lossFences (s, t) a) (hpc : s.pc a.conn ≠ .ended)
    (hended : (s.step a).1.pc a.conn = .ended) : Unbound s t a.conn := by
  obtain ⟨⟨ch, ha⟩, hreturns⟩ := Coord.returns_of_ended hpc hended
  rw [ha] at hE
  cases hreturns with
  | idle hold hfree hrun =>
    simp only [lossFences, hold] at hE
    exact hE hfree hrun
  | finished hold hfinished =>
    simp only [lossFences, hold] at hE
    exact hE hfinished
  | stopped fresh r hold hstop =>
    simp only [lossFences, hold] at hE
    exact hE hstop
  | handedOver r hold hfree =>
    simp only [lossFences, hold] at hE
    exact hE hfree

/-- Under the condition nothing is sent on a connection whose thread has returned. -/
theorem sent_of_lossFences {m : WireMessage} (hE : lossFences (s, t) a)
    (hev : .sent target m ∈ (s.step a).2) (htype : m.type = .DISPATCH) :
    (s.pc target).returned = false := by
  obtain ⟨ch, ha, hpc⟩ := Coord.proceeds_of_sent hev htype
  rw [ha] at hE
  rcases hpc with hold | hold <;>
  · simp only [lossFences, hold] at hE
    exact hE

/-- Under the condition a binding is for a connection whose thread has not returned, and what is
    terminal keeps its boot unless it is recorded. -/
theorem Coord.Binds.of_lossFences (h : s.Binds c a op auth target calls)
    (hE : lossFences (s, t) a) : (s.pc target).returned = false ∧
      (s.pc c = .dispatchLock op auth ∨ isTerminal (s.store.ops.state op) = false ∨
        s.store.ops.Recorded op ∨
        auth.workerBoot = (s.store.ops.currentAuthority op).workerBoot) := by
  cases h with
  | client ch _ _ wid _ rest hpc hworkers =>
    simp only [lossFences, hpc] at hE
    exact ⟨hE (wid, target) (by rw [hworkers]; rfl), Or.inl hpc⟩
  | recovery ch cur drawn r hpc hr =>
    simp only [lossFences, hpc] at hE
    obtain ⟨hreturned, hboot⟩ := hE _ hr
    refine ⟨hreturned, Or.inr ?_⟩
    cases hterm : isTerminal (s.store.ops.state s.currentOp) with
    | false => exact Or.inl rfl
    | true => exact Or.inr ((hboot hterm).symm)

/-- A thread that has not returned has not returned after a step either, unless the step is the one
    with which it returns. -/
theorem Coord.not_returned {x : ConnId} (hpc : (s.pc x).returned = false)
    (h : s.pc a.conn ≠ .ended → (s.step a).1.pc a.conn = .ended → x ≠ a.conn) :
    ((s.step a).1.pc x).returned = false := by
  have hbefore : s.pc x ≠ .ended := by
    intro hold
    rw [hold] at hpc
    cases hpc
  by_contra hreturned
  have hended := Pc.returned_iff.mp (by simpa using hreturned)
  obtain rfl : x = a.conn := (s.step_moves a).mover (by rw [hended]; exact Ne.symm hbefore)
  exact h hbefore hended rfl

/-- A thread that binds an operation does not return with the same step. -/
theorem Coord.Binds.not_returns (h : s.Binds c a op auth target calls) : ¬ s.Returns c := by
  intro hreturns
  cases h with
  | client _ _ _ _ _ _ hold | recovery _ _ _ _ hold =>
    cases hreturns with
    | idle hpc | finished hpc | stopped _ _ hpc | handedOver _ hpc =>
      rw [hold] at hpc
      cases hpc

/-- A thread that sends an operation does not return with the same step. -/
theorem Coord.Moves.not_returns {s' : Coord} {evs : List Event} {m : WireMessage}
    (h : s.Moves c a s' evs) (hev : .sent target m ∈ evs) (htype : m.type = .DISPATCH) :
    ¬ s.Returns c := by
  intro hreturns
  obtain ⟨-, new, -, hold | ⟨hold, -⟩⟩ := h.sent_dispatch hev htype <;>
  · cases hreturns with
    | idle hpc | finished hpc | stopped _ _ hpc | handedOver _ hpc =>
      rw [hold] at hpc
      cases hpc

end Condition

/-! ### What was sent is bound to a connection in use -/

/-- The boot is registered on a connection whose thread has not returned. -/
def Coord.InUse (s : Coord) (t : List Event) (boot : WorkerBootId) : Prop :=
  ∃ x, (x, boot) ∈ registrations t ∧ (s.pc x).returned = false

/-- Every operation that was sent is bound to the boot of a connection whose thread has not
    returned. -/
structure AliveInv (s : Coord) (t : List Event) : Prop where
  known : ∀ op ∈ sentOps t, s.store.ops.has op = true
  alive : ∀ op ∈ sentOps t, s.InUse t (s.store.ops.currentAuthority op).workerBoot

section Alive

variable {s : Coord} {t : List Event} {a : Action} {c : ConnId} {op : OperationId}
  {auth : AuthorityEnvelope} {target : ConnId} {calls : List RegistryCall}

/-- Registrations are never taken back. -/
theorem registrations_mono {p : ConnId × WorkerBootId} {t : List Event}
    (h : p ∈ registrations t) (evs : List Event) : p ∈ registrations (t ++ evs) := by
  unfold registrations
  rw [List.filterMap_append]
  exact List.mem_append_left _ h

theorem mem_sentOps_append {evs : List Event} (h : op ∈ sentOps (t ++ evs)) :
    op ∈ sentOps t ∨ ∃ x m, .sent x m ∈ evs ∧ m.type = .DISPATCH ∧ m.op = op := by
  rw [sentOps, List.filterMap_append, List.mem_append] at h
  refine h.imp_right fun hnew => ?_
  obtain ⟨ev, hev, hsome⟩ := List.mem_filterMap.mp hnew
  cases ev with
  | sent x m =>
    dsimp only at hsome
    split_ifs at hsome with hm
    exact ⟨x, m, hev, hm, Option.some.inj hsome⟩
  | received | applied | transferred | appended => cases hsome

/-- The boots of a connection whose thread has not returned are in use. -/
theorem inUse_of_registered {boot : WorkerBootId} (hboot : (target, boot) ∈ registrations t)
    (h : ((s.step a).1.pc target).returned = false) :
    (s.step a).1.InUse (t ++ (s.step a).2) boot :=
  ⟨target, registrations_mono hboot _, h⟩

/-- Where the step leaves the boot of the authority alone, the boot is still in use. -/
theorem AliveInv.kept (inv : AliveInv s t) (hE : lossFences (s, t) a) (hop : op ∈ sentOps t)
    (hboot : ((s.step a).1.store.ops.currentAuthority op).workerBoot =
      (s.store.ops.currentAuthority op).workerBoot) :
    (s.step a).1.InUse (t ++ (s.step a).2)
      ((s.step a).1.store.ops.currentAuthority op).workerBoot := by
  obtain ⟨x, hx, hpc⟩ := inv.alive op hop
  rw [hboot]
  refine inUse_of_registered hx (Coord.not_returned hpc ?_)
  -- if the thread returned with this step, it would leave the operation to its boot
  rintro hbefore hended rfl
  exact unbound_of_returns hE hbefore hended op hop _ hx rfl rfl

/-- What a step binds is bound to a boot in use. -/
theorem AliveInv.bound (inv : AliveInv s t) (hreg : BootInv s t) (hC : bootStands s a)
    (hE : lossFences (s, t) a) (hop : op ∈ sentOps t)
    (hbinds : s.Binds a.conn a op auth target calls)
    (hops : (s.step a).1.store.ops = registry.run s.store.ops calls) :
    (s.step a).1.InUse (t ++ (s.step a).2)
      ((s.step a).1.store.ops.currentAuthority op).workerBoot := by
  obtain ⟨hkept, hrebound⟩ := hbinds.authority hreg.tracked
  rw [← hops] at hkept hrebound
  by_cases hrec : s.store.ops.Recorded op
  · -- a recorded operation is not bound again
    exact inv.kept hE hop (by rw [hkept hrec])
  obtain ⟨htarget, hcases⟩ := hbinds.of_lossFences hE
  have hlive : (s.pc a.conn = .dispatchLock op auth ∨ isTerminal (s.store.ops.state op) = false) ∨
      auth.workerBoot = (s.store.ops.currentAuthority op).workerBoot := by
    rcases hcases with hlock | hlive | hrecorded | hboot
    · exact Or.inl (Or.inl hlock)
    · exact Or.inl (Or.inr hlive)
    · exact absurd hrecorded hrec
    · exact Or.inr hboot
  -- it is bound to the boot of the target, or keeps the boot that it has
  rcases hlive with hlive | hboot
  · rw [hrebound hrec, (hbinds.right hC hlive).envelope]
    refine inUse_of_registered (hreg.registered.booted target (hreg.worker_new hbinds)) ?_
    exact Coord.not_returned htarget fun hbefore hended _ =>
      hbinds.not_returns (Coord.returns_of_ended hbefore hended).2
  · exact inv.kept hE hop (by rw [hrebound hrec, hboot])

/-- What a step sends is bound to a boot in use. -/
theorem BootInv.alive_of_sent (hreg : BootInv s t) (hE : lossFences (s, t) a) {m : WireMessage}
    (hsent : .sent target m ∈ (s.step a).2) (htype : m.type = .DISPATCH) :
    (s.step a).1.InUse (t ++ (s.step a).2)
      ((s.step a).1.store.ops.currentAuthority m.op).workerBoot := by
  obtain ⟨hbound, hregistered, -⟩ := hreg.sent hsent htype
  rw [hbound.authority]
  refine inUse_of_registered hregistered ?_
  exact Coord.not_returned (sent_of_lossFences hE hsent htype) fun hbefore hended _ =>
    (s.step_moves a).not_returns hsent htype (Coord.returns_of_ended hbefore hended).2

/-- **Step lemma.** A step under both conditions keeps what was sent bound to boots in use. -/
theorem AliveInv.step (inv : AliveInv s t) (hreg : BootInv s t) (hC : bootStands s a)
    (hE : lossFences (s, t) a) : AliveInv (s.step a).1 (t ++ (s.step a).2) where
  known := by
    intro op hop
    rcases mem_sentOps_append hop with hold | ⟨x, m, hsent, htype, rfl⟩
    · exact (s.step_moves a).has_stays (inv.known op hold)
    · exact (hreg.sent hsent htype).2.2
  alive := by
    intro op hop
    rcases mem_sentOps_append hop with hold | ⟨x, m, hsent, htype, rfl⟩
    · rcases (s.step_moves a).authority_of (inv.known op hold) with
        hsame | ⟨auth, target, calls, hbinds, hops⟩
      · exact inv.kept hE hold (by rw [hsame])
      · exact inv.bound hreg hC hE hold hbinds hops
    · exact hreg.alive_of_sent hE hsent htype

theorem aliveInv_boot (file : Option (List UInt8)) : AliveInv (Coord.boot file) [] where
  known := fun _ h => by cases h
  alive := fun _ h => by cases h

/-- **Run lemma.** After every run whose steps meet both conditions, what was sent is bound to boots
    in use. -/
theorem aliveInv_run (file : Option (List UInt8)) {acts : List Action}
    (hC : coordinator.Always bootStands (.boot file) acts)
    (hE : coordinator.traced.Always lossFences (.boot file, []) acts) :
    AliveInv (coordinator.run (.boot file) acts) ((Coord.boot file).trace acts) := by
  have h := Machine.always_induction (M := coordinator.traced)
    (P := fun p => BootInv p.1 p.2 ∧ AliveInv p.1 p.2)
    (fun p a hboth inv => ⟨inv.1.step a hboth.1, inv.2.step inv.1 hboth.1 hboth.2⟩)
    ⟨bootInv_boot file, aliveInv_boot file⟩ ((hC.traced []).and hE)
  rw [Machine.run_traced] at h
  exact h.2

end Alive

/-! ### Whole runs -/

/-- Every `DISPATCH` of the run names the boot of the worker that it goes to, and so does the
    authority of its operation; from then on until the next `dispatch` of the operation, the
    envelopes with a boot of any other worker are fenced.  After a worker is lost, the envelopes
    with its boot are fenced for every operation that was sent. -/
structure BootsBound (s₀ : Coord) (acts : List Action) : Prop where
  bound : ∀ pre a post target m, acts = pre ++ a :: post →
    .sent target m ∈ ((coordinator.run s₀ pre).step a).2 → m.type = .DISPATCH →
    (coordinator.run s₀ (pre ++ [a])).Bound m.op m.authority target ∧
      (target, ((coordinator.run s₀ (pre ++ [a])).conn target).boot) ∈
        registrations (s₀.trace pre)
  fenced : ∀ pre a mid post target m, acts = pre ++ a :: (mid ++ post) →
    .sent target m ∈ ((coordinator.run s₀ pre).step a).2 → m.type = .DISPATCH →
    (∀ e res, .applied (.dispatch m.op e) res ∉ (coordinator.run s₀ (pre ++ [a])).trace mid) →
    ∀ c boot, (c, boot) ∈ registrations (s₀.trace (pre ++ a :: mid)) → c ≠ target →
    ∀ e terminal, e.workerBoot = boot →
    (fenceCompletion e ((coordinator.run s₀ (pre ++ a :: mid)).store.ops.currentAuthority m.op)
      terminal).accepted = false
  lost : ∀ pre post c, acts = pre ++ post → (coordinator.run s₀ pre).pc c = .ended →
    ∀ op ∈ sentOps (s₀.trace pre), ∀ boot, (c, boot) ∈ registrations (s₀.trace pre) →
    ∀ e terminal, e.workerBoot = boot →
    (fenceCompletion e ((coordinator.run s₀ pre).store.ops.currentAuthority op)
      terminal).accepted = false

/-- Under distinct boots, an authority that names the boot of one connection fences the envelopes
    with a boot of another. -/
theorem DistinctBoots.fences {t : List Event} (h : DistinctBoots t) {target c : ConnId}
    {cur e terminal : AuthorityEnvelope} (hcur : (target, cur.workerBoot) ∈ registrations t)
    (he : (c, e.workerBoot) ∈ registrations t) (hne : c ≠ target) :
    (fenceCompletion e cur terminal).accepted = false := by
  rw [← Bool.not_eq_true, fenceCompletion_accepted_iff]
  rintro ⟨-, -, -, -, hboot, -⟩
  have hsame : e.workerBoot = cur.workerBoot := hboot (h.set _ hcur)
  have hpair := List.inj_on_of_nodup_map h.nodup he hcur hsame
  exact hne (Prod.mk.inj hpair).1

/-- **Boots are bound.** In every run of the coordinator in which workers register under boots of
    their own, and whose steps meet the conditions, every `DISPATCH` and the authority that it was
    bound to name the boot of the worker that it goes to, and fence the boot of every other; and
    the boot of a worker that is lost is fenced for every operation that was sent. -/
theorem boots_bound (file : Option (List UInt8)) (acts : List Action)
    (hboots : DistinctBoots ((Coord.boot file).trace acts))
    (hC : coordinator.Always bootStands (.boot file) acts)
    (hE : coordinator.traced.Always lossFences (.boot file, []) acts) :
    BootsBound (.boot file) acts where
  bound := by
    rintro pre a post target m rfl hsent htype
    have inv := bootInv_run file ((Machine.always_append _ _ _ _).mp hC).1
    obtain ⟨hbound, hregistered, -⟩ := inv.sent hsent htype
    rw [Machine.run_concat]
    exact ⟨hbound, hregistered⟩
  fenced := by
    rintro pre a mid post target m rfl hsent htype hnone c boot hc hne e terminal rfl
    have inv := bootInv_run file ((Machine.always_append _ _ _ _).mp hC).1
    obtain ⟨hbound, hregistered, hknown⟩ := inv.sent hsent htype
    have hstep : (coordinator.run (.boot file) (pre ++ [a])) =
        ((coordinator.run (.boot file) pre).step a).1 := Machine.run_concat ..
    rw [← hstep] at hbound hregistered hknown
    -- the authority is still the one of the send
    have hkept := Coord.authority_kept hknown hnone
    rw [← Machine.run_append, List.append_assoc, List.singleton_append] at hkept
    rw [hkept]
    refine hboots.fences ?_ ?_ hne
    · rw [hbound.authority, Coord.trace_append]
      exact registrations_mono hregistered _
    · rw [show pre ++ a :: (mid ++ post) = (pre ++ a :: mid) ++ post by simp, Coord.trace_append]
      exact registrations_mono hc _
  lost := by
    rintro pre post c rfl hended op hop boot hc e terminal rfl
    have inv := aliveInv_run file ((Machine.always_append _ _ _ _).mp hC).1
      ((Machine.always_append _ _ _ _).mp hE).1
    obtain ⟨x, hx, hpc⟩ := inv.alive op hop
    rw [Coord.trace_append] at hboots
    refine hboots.fences (registrations_mono hx _) (registrations_mono hc _) ?_
    -- the boot that the authority names is registered on a connection in use
    rintro rfl
    rw [hended] at hpc
    cases hpc

/-- A worker is sent an operation.  A second one registers, and the operation is bound to it when a
    client asks again.  Then the first one is lost, and its thread sends the operation to the second
    one once more. -/
def reboundLoss : List Action :=
  registration 0 7 8 ++ .accept 1 :: request sampleOp 5 ++
    [.accept 2, .receive 2 { type := .REGISTER, worker := ⟨.ofByte 9⟩, boot := ⟨.ofByte 10⟩ },
      .proceed 2 { workers := [(⟨.ofByte 9⟩, 2), (⟨.ofByte 7⟩, 0)] },
      .accept 3, .receive 3 { type := .DISPATCH, op := sampleOp },
      .proceed 3 { drawn := .ofByte 6 }, .proceed 3 {}, .proceed 3 {}] ++
    loss 0 20 ++ [.proceed 0 {}, .proceed 0 {}]

theorem boots_bound_reboundLoss : BootsBound (.boot none) reboundLoss := by
  refine boots_bound none reboundLoss ⟨by decide +kernel, by decide +kernel⟩ ?_ (by decide +kernel)
  refine ⟨trivial, trivial, ?_, trivial, trivial, ?_, ?_, trivial, ?_, trivial, trivial, trivial,
    ?_, trivial, trivial, ?_, ?_, trivial, trivial, trivial, trivial, trivial, trivial, trivial,
    ?_, trivial, trivial, trivial, trivial⟩
  · -- nothing is pending when the first worker registers
    rintro - c' op auth hp
    match c' with
    | 0 | _ + 1 => cases hp
  · exact fun h => absurd h (by decide)
  · -- the first worker is the only one
    rintro p hp
    obtain rfl : (⟨.ofByte 7⟩, 0) = p := Option.some.inj hp
    refine ⟨⟨by decide +kernel, fun hrec => absurd hrec (by decide +kernel)⟩,
      fun _ c auth target hp => ?_⟩
    match c with
    | 0 | 1 | _ + 2 => cases hp
  · exact Or.inr fun c' => match c' with
      | 0 | 1 | _ + 2 => rfl
  · -- the operation is sent when the second worker registers
    rintro - c' op auth hp
    match c' with
    | 0 | 1 | 2 | _ + 3 => cases hp
  · exact fun h => absurd h (by decide)
  · -- the second worker comes first now
    rintro p hp
    obtain rfl : (⟨.ofByte 9⟩, 2) = p := Option.some.inj hp
    refine ⟨⟨by decide +kernel, fun hrec => absurd hrec (by decide +kernel)⟩,
      fun _ c auth target hp => ?_⟩
    match c with
    | 0 | 1 | 2 | 3 | _ + 4 => cases hp
  · -- the operation is bound to the replacement already
    rintro r hr
    obtain rfl : 2 = r := Option.some.inj hr
    refine ⟨fun _ c auth target hp => ?_, fun _ => ⟨by decide +kernel,
      fun hrec => absurd hrec (by decide +kernel)⟩⟩
    match c with
    | 0 | 1 | 2 | 3 | _ + 4 => cases hp

/-- Two workers register, the client's operation goes to the first, which is lost: its thread is
    about to send to the second. -/
def lostBootRun : List Action :=
  registration 0 7 8 ++ registration 2 9 10 ++ [.accept 1] ++ request sampleOp 5 ++ loss 0 20

/-- What the second worker is sent. -/
def staleBootMessage : WireMessage where
  type := .DISPATCH
  op := sampleOp
  attempt := .generate (.ofByte 20)
  worker := ⟨.ofByte 9⟩
  authority :=
    { coordinatorEpoch := ⟨1⟩, workerBoot := ⟨.ofByte 8⟩, attempt := .generate (.ofByte 20),
      attemptGeneration := ⟨2⟩, operationGeneration := ⟨2⟩, failureGeneration := ⟨1⟩,
      recoveryGeneration := ⟨1⟩ }

/-- It names the boot of the first worker, and so does the authority, which accepts it. -/
theorem lost_boot_sent_again :
    DistinctBoots ((Coord.boot none).trace (lostBootRun ++ [.proceed 0 {}])) ∧
      .sent 2 staleBootMessage ∈
        ((coordinator.run (.boot none) lostBootRun).step (.proceed 0 {})).2 ∧
      (fenceCompletion staleBootMessage.authority ((coordinator.run (.boot none)
        (lostBootRun ++ [.proceed 0 {}])).store.ops.currentAuthority sampleOp) {}).accepted = true ∧
      ¬ BootsBound (.boot none) (lostBootRun ++ [.proceed 0 {}]) := by
  have hsent : .sent 2 staleBootMessage ∈
      ((coordinator.run (.boot none) lostBootRun).step (.proceed 0 {})).2 := by
    decide +kernel
  refine ⟨⟨by decide +kernel, by decide +kernel⟩, hsent, by decide +kernel, fun h => ?_⟩
  have hboot : ((coordinator.run (.boot none) (lostBootRun ++ [.proceed 0 {}])).conn 2).boot =
      ⟨.ofByte 10⟩ := by
    decide +kernel
  have henvelope := (h.bound lostBootRun (.proceed 0 {}) [] 2 _ rfl hsent rfl).1.envelope
  rw [hboot] at henvelope
  exact absurd henvelope (by decide)

/-- The only worker is sent an operation and is lost: nobody is left to send it to. -/
def soleLoss : List Action :=
  registration 0 7 8 ++ [.accept 1] ++ request sampleOp 5 ++ loss 0 20

/-- Its loss is handled, and the envelope with its boot is still accepted. -/
theorem lost_boot_accepted :
    DistinctBoots ((Coord.boot none).trace soleLoss) ∧
      (coordinator.run (.boot none) soleLoss).pc 0 = .ended ∧
      (fenceCompletion sampleAuthority
        ((coordinator.run (.boot none) soleLoss).store.ops.currentAuthority sampleOp)
        {}).accepted = true ∧
      ¬ BootsBound (.boot none) soleLoss := by
  have hended : (coordinator.run (.boot none) soleLoss).pc 0 = .ended :=
    Pc.returned_iff.mp (by decide +kernel)
  have haccepted : (fenceCompletion sampleAuthority
      ((coordinator.run (.boot none) soleLoss).store.ops.currentAuthority sampleOp)
      {}).accepted = true := by
    decide +kernel
  refine ⟨⟨by decide +kernel, by decide +kernel⟩, hended, haccepted, fun h => ?_⟩
  have hrefused := h.lost soleLoss [] 0 (by simp) hended sampleOp (by decide +kernel)
    sampleAuthority.workerBoot (by decide +kernel) sampleAuthority {} rfl
  rw [hrefused] at haccepted
  cases haccepted

end FailureFabric
