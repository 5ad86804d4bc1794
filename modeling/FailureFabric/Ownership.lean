import FailureFabric.Dispatching

namespace FailureFabric

open Library

/-!
# Recovery under ownership

A thread that lost its worker transfers the recovery ownership before it sends the operation to a
replacement.  There is one ownership for all operations, while the generation that is offered
comes from the operation's own envelope, and the handler does not look at the result.

* `Redispatches`, `Transfers` — the two steps of the handler;
* `Coord.Moves.to_acting`, `transfers_before` — no thread sends again without the transfer before;
* `recoveryOwned_iff` — every transfer before a re-dispatch succeeds, and moves the ownership to
  a greater generation, exactly when the generation that it offers is greater.
-/

/-- The step transfers the ownership for the lost worker of a thread, or tries to. -/
def Transfers (s : Coord) (a : Action) : Prop :=
  ∃ gen ok, .transferred gen ok ∈ (s.step a).2

/-- The thread is about to send to the replacement of a lost worker. -/
def Pc.resends : Pc → Bool
  | lostSend .. => true
  | _ => false

/-- The step sends an operation again, for the lost worker of a thread. -/
def Redispatches (s : Coord) (a : Action) : Prop :=
  (s.pc a.conn).resends = true ∧ ∃ target m, .sent target m ∈ (s.step a).2

/-- The transfer of the step returns true, and the recovery generation of the store increases. -/
def Obtains (s : Coord) (a : Action) : Prop :=
  (∃ gen, .transferred gen true ∈ (s.step a).2) ∧
    s.store.ownership.generation < (s.step a).1.store.ownership.generation

/-- The generation that a transfer offers now is greater than that of the store. -/
def Coord.offersNewer (s : Coord) : Prop :=
  s.store.ownership.generation < (s.store.ops.currentAuthority s.currentOp).recoveryGeneration.next

/-- Every re-dispatch of the run comes after a transfer by the same thread that obtains the
    ownership. -/
def RecoveryOwned (s₀ : Coord) (acts : List Action) : Prop :=
  ∀ pre a post, acts = pre ++ a :: post → Redispatches (coordinator.run s₀ pre) a →
    ∃ pre' b mid, pre = pre' ++ b :: mid ∧ b.conn = a.conn ∧
      Obtains (coordinator.run s₀ pre') b

/-- Every transfer of the run before a re-dispatch by the same thread offers a greater
    generation. -/
def OffersNewer (s₀ : Coord) (acts : List Action) : Prop :=
  ∀ pre b mid a post, acts = pre ++ b :: (mid ++ a :: post) → b.conn = a.conn →
    Transfers (coordinator.run s₀ pre) b →
    Redispatches (coordinator.run s₀ (pre ++ b :: mid)) a → (coordinator.run s₀ pre).offersNewer

/-! ### What a transfer does -/

namespace RecoveryOwnership

/-- A transfer to an owner succeeds and increases the generation exactly when it offers a greater
    one; an unset generation is not greater than any. -/
theorem transfer_increases_iff (own : RecoveryOwnership) {owner : RecoveryOwner}
    (howner : owner ≠ .NONE) (gen : Generation) (boot : WorkerBootId)
    (authority : AuthorityEnvelope) :
    ((own.transfer owner gen boot authority).2 = true ∧
      own.generation < (own.transfer owner gen boot authority).1.generation) ↔
      own.generation < gen := by
  constructor
  · rintro ⟨hok, hlt⟩
    obtain hkept | ⟨hinstalled, -⟩ := own.transfer_cases owner gen boot authority
    · rw [hkept] at hok
      exact absurd hok Bool.false_ne_true
    · rw [hinstalled] at hlt
      exact hlt
  · intro hlt
    have hset : gen.isUnset = false := Generation.isUnset_eq_false_of_lt hlt
    unfold transfer
    rw [if_neg howner, if_neg (by simp [hset])]
    by_cases hnone : own.owner = .NONE
    · have hunassigned : own.isUnassigned = true := by simp [isUnassigned, hnone]
      rw [if_pos hnone, adopt_of_unassigned hunassigned howner hset]
      exact ⟨rfl, hlt⟩
    · rw [if_neg hnone, if_neg (not_not.mpr hlt)]
      exact ⟨rfl, hlt⟩

end RecoveryOwnership

/-! ### The thread of a lost worker -/

/-- The thread has tried to transfer the ownership, and has not returned. -/
def Pc.acting : Pc → Bool
  | lostBuild _ | lostReport .. | lostChoose _ | lostVerify .. | lostSend .. | lostMark _ => true
  | _ => false

/-- The thread is past the transfer. -/
def Pc.pastTransfer (pc : Pc) : Prop := pc.acting = true ∨ pc = .ended

namespace Coord.Moves

variable {s s' : Coord} {c : ConnId} {a : Action} {evs : List Event}

/-- A step with a transfer is one of a thread that stands there. -/
theorem transfers {gen : Generation} {ok : Bool} (h : s.Moves c a s' evs)
    (hev : .transferred gen ok ∈ evs) :
    s.pc c = .lostTransfer ∧
      ∃ ch, s' = (s.lostTransfer c ch).1 ∧ evs = (s.lostTransfer c ch).2 := by
  cases h with
  | transferred a ch hold => exact ⟨hold, ch, rfl, rfl⟩
  | localStep a new evs h =>
    generalize s.pc c = pc at h
    cases h <;> simp at hev
  | idle | callStep | register | dispatchLock | marked | markedAgain | lost | saveStart
  | saveItem | saveEnd => simp at hev
  | recorded => simp [lostReport] at hev

/-- A thread acts on a loss because it has tried to transfer the ownership. -/
theorem to_acting {c' : ConnId} (h : s.Moves c a s' evs) (hpc : (s'.pc c').acting = true) :
    (s.pc c').acting = true ∨ c' = c ∧ ∃ gen ok, .transferred gen ok ∈ evs := by
  by_cases hc : c' = c
  · subst hc
    cases h with
    | idle => exact Or.inl hpc
    | localStep a new evs h =>
      rw [goto_pc_self] at hpc
      generalize s.pc c' = pc at h
      cases h <;> first | exact Or.inl rfl | exact absurd hpc (by simp [Pc.acting])
    | callStep ch rc new h =>
      rw [goto_pc_self] at hpc
      generalize s.pc c' = pc at h
      generalize (s.call rc).2 = res at h
      cases h <;> first | exact Or.inl rfl | exact absurd hpc (by simp [Pc.acting])
    | transferred a ch hold => exact Or.inr ⟨rfl, _, _, List.mem_cons_self⟩
    | recorded a ch cur b hold => rw [hold]; exact Or.inl rfl
    | register | dispatchLock | marked | markedAgain | lost | saveStart | saveItem | saveEnd =>
      rw [goto_pc_self] at hpc
      exact absurd hpc (by simp [Pc.acting])
  · rw [h.pc_of_ne hc] at hpc
    exact Or.inl hpc

/-- A thread that is past the transfer never comes back to it. -/
theorem pastTransfer_stays {c' : ConnId} (h : s.Moves c a s' evs)
    (hpast : (s.pc c').pastTransfer) : (s'.pc c').pastTransfer := by
  by_cases hc : c' = c
  · subst hc
    unfold Pc.pastTransfer at hpast ⊢
    cases h with
    | idle => exact hpast
    | localStep a new evs h =>
      rw [goto_pc_self]
      generalize s.pc c' = pc at h hpast
      cases h <;> simp_all [Pc.acting]
    | callStep ch rc new h =>
      rw [goto_pc_self]
      generalize s.pc c' = pc at h hpast
      generalize (s.call rc).2 = res at h
      cases h <;> simp_all [Pc.acting]
    | recorded a ch cur b => exact Or.inl (by simp [lostReport, Pc.acting])
    | markedAgain => exact Or.inr (goto_pc_self ..)
    | register _ _ _ _ hold | dispatchLock _ _ _ _ _ _ hold | marked _ _ _ _ hold | lost _ hold
    | saveStart _ _ _ hold | saveItem _ _ _ hold | saveEnd _ hold | transferred _ _ hold =>
      rw [hold] at hpast
      exact absurd hpast (by simp [Pc.acting])
  · rw [h.pc_of_ne hc]
    exact hpast

end Coord.Moves

section Transfer

variable {s : Coord} {a : Action}

/-- The thread of a transfer stands at it before, and is past it after. -/
theorem Transfers.passes (h : Transfers s a) :
    ¬ (s.pc a.conn).pastTransfer ∧ ((s.step a).1.pc a.conn).pastTransfer := by
  obtain ⟨gen, ok, hev⟩ := h
  obtain ⟨hpc, ch, hs', -⟩ := (s.step_moves a).transfers hev
  refine ⟨by rw [hpc]; simp [Pc.pastTransfer, Pc.acting], ?_⟩
  rw [hs']
  exact Or.inl (by simp [Coord.lostTransfer, Pc.acting])

/-- A transfer obtains the ownership exactly when it offers a greater generation. -/
theorem Transfers.obtains_iff (h : Transfers s a) : Obtains s a ↔ s.offersNewer := by
  obtain ⟨gen, ok, hev⟩ := h
  obtain ⟨-, ch, hs', hevs⟩ := (s.step_moves a).transfers hev
  let cur := s.store.ops.currentAuthority s.currentOp
  let offered := s.store.ownership.transfer .REPLACEMENT_WORKER cur.recoveryGeneration.next
    (Id.generate ch.drawn) cur
  have hevents : (s.lostTransfer a.conn ch).2 =
    [.transferred cur.recoveryGeneration.next offered.2] := rfl
  have hreturned : (∃ gen, .transferred gen true ∈ (s.step a).2) ↔ offered.2 = true := by
    rw [hevs, hevents]
    simp only [List.mem_singleton, Event.transferred.injEq]
    exact ⟨fun ⟨_, _, hok⟩ => hok.symm, fun hok => ⟨_, rfl, hok.symm⟩⟩
  have howned : (s.step a).1.store.ownership = offered.1 := by
    rw [hs']
    rfl
  unfold Obtains
  rw [hreturned, howned]
  exact s.store.ownership.transfer_increases_iff (by simp) _ _ _

theorem Obtains.transfers (h : Obtains s a) : Transfers s a := by
  obtain ⟨⟨gen, hev⟩, -⟩ := h
  exact ⟨gen, true, hev⟩

end Transfer

/-- **Before a re-dispatch.** In a run from the start of the process, a thread that re-dispatches
    has tried to transfer the ownership. -/
theorem transfers_before {file : Option (List UInt8)} {pre : List Action} {a : Action}
    (h : Redispatches (coordinator.run (.boot file) pre) a) :
    ∃ pre' b mid, pre = pre' ++ b :: mid ∧ b.conn = a.conn ∧
      Transfers (coordinator.run (.boot file) pre') b := by
  have hacting : ((coordinator.run (.boot file) pre).pc a.conn).acting = true := by
    have hresends := h.1
    generalize (coordinator.run (.boot file) pre).pc a.conn = pc at hresends
    cases pc <;> first | rfl | exact absurd hresends (by simp [Pc.resends])
  have hstart : ¬ (((Coord.boot file).pc a.conn).acting = true) := by simp [Coord.boot, Pc.acting]
  obtain ⟨pre', b, mid, rfl, hbefore, hafter⟩ :=
    Machine.exists_flip (M := coordinator) (P := fun s => (s.pc a.conn).acting = true) hstart
      hacting
  refine ⟨pre', b, mid, rfl, ?_⟩
  rw [Machine.run_concat] at hafter
  rcases ((coordinator.run (.boot file) pre').step_moves b).to_acting hafter with
    hold | ⟨hconn, htransfer⟩
  · exact absurd hold hbefore
  · exact ⟨hconn.symm, htransfer⟩

/-- A thread tries to transfer the ownership once. -/
theorem transfers_once {s₀ : Coord} {pre mid pre' mid' : List Action} {b b' : Action}
    (hsplit : pre ++ b :: mid = pre' ++ b' :: mid') (hconn : b.conn = b'.conn)
    (h : Transfers (coordinator.run s₀ pre) b) (h' : Transfers (coordinator.run s₀ pre') b') :
    pre = pre' ∧ b = b' := by
  refine Machine.flip_unique (M := coordinator) (P := fun s => (s.pc b.conn).pastTransfer)
    (fun s a hpast => (s.step_moves a).pastTransfer_stays hpast) hsplit h.passes.1 ?_ ?_ ?_
  · rw [Machine.run_concat]
    exact h.passes.2
  · rw [hconn]
    exact h'.passes.1
  · rw [Machine.run_concat, hconn]
    exact h'.passes.2

/-- **Recovery under ownership.** In a run of the coordinator, every re-dispatch comes after a
    transfer of its own that obtains the ownership exactly when every transfer before a re-dispatch
    offers a greater generation than that of the store. -/
theorem recoveryOwned_iff (file : Option (List UInt8)) (acts : List Action) :
    RecoveryOwned (.boot file) acts ↔ OffersNewer (.boot file) acts := by
  constructor
  · rintro h pre b mid a post rfl hconn htransfer hre
    obtain ⟨pre', b', mid', hsplit, hconn', hobtains⟩ :=
      h (pre ++ b :: mid) a post (by simp) hre
    -- the transfer that obtains the ownership is the one in question
    obtain ⟨rfl, rfl⟩ := transfers_once hsplit (hconn.trans hconn'.symm) htransfer
      hobtains.transfers
    exact htransfer.obtains_iff.mp hobtains
  · rintro h pre a post rfl hre
    obtain ⟨pre', b, mid, rfl, hconn, htransfer⟩ := transfers_before hre
    refine ⟨pre', b, mid, rfl, hconn, htransfer.obtains_iff.mpr ?_⟩
    exact h pre' b mid a post (by simp) hconn htransfer hre

/-! ### Two losses -/

/-- A worker registers on the connection. -/
def registration (c : ConnId) (worker boot : UInt8) : List Action :=
  [.accept c, .receive c { type := .REGISTER, worker := ⟨.ofByte worker⟩, boot := ⟨.ofByte boot⟩ },
    .proceed c {}]

/-- The client on connection 1 asks for the operation, and it is sent, marked and run. -/
def request (op : OperationId) (drawn : UInt8) : List Action :=
  [.receive 1 { type := .DISPATCH, op }, .proceed 1 { drawn := .ofByte drawn }, .proceed 1 {},
    .proceed 1 {}, .proceed 1 {}, .proceed 1 {}]

/-- The connection ends, and its thread recovers up to the send to the replacement. -/
def loss (c : ConnId) (drawn : UInt8) : List Action :=
  [.disconnect c, .proceed c {}, .proceed c {}, .proceed c {}, .proceed c {},
    .proceed c { drawn := .ofByte drawn }, .proceed c { drawn := .ofByte drawn }, .proceed c {}]

/-- The operation of the second loss. -/
def otherOp : OperationId := ⟨.ofByte 3⟩

/-- A worker is lost, and its operation goes to a second worker, where it is marked. -/
def firstLoss : List Action :=
  registration 0 7 8 ++ registration 2 9 10 ++ [.accept 1] ++ request sampleOp 5 ++ loss 0 20 ++
    [.proceed 0 {}, .proceed 0 {}]

/-- The second worker is given another operation, a third one registers, and the second is lost:
    its thread is about to transfer the ownership. -/
def secondLoss : List Action :=
  firstLoss ++ request otherOp 6 ++ registration 3 11 12 ++ (loss 2 30).take 3

/-- What the replacement of the second loss is sent. -/
def resentMessage : WireMessage where
  type := .DISPATCH
  op := otherOp
  attempt := .generate (.ofByte 30)
  worker := ⟨.ofByte 11⟩
  authority :=
    { coordinatorEpoch := ⟨1⟩, workerBoot := ⟨.ofByte 10⟩, attempt := .generate (.ofByte 30),
      attemptGeneration := ⟨2⟩, operationGeneration := ⟨2⟩, failureGeneration := ⟨1⟩,
      recoveryGeneration := ⟨1⟩ }

/-- The transfer of the second loss is refused, and its operation is re-dispatched all the same. -/
theorem refused_transfer_redispatches :
    ((coordinator.run (.boot none) secondLoss).step (.proceed 2 {})).2 =
        [.transferred ⟨1⟩ false] ∧
      .sent 3 resentMessage ∈
        ((coordinator.run (.boot none) (secondLoss ++ (loss 2 30).drop 3)).step (.proceed 2 {})).2 ∧
      ¬ RecoveryOwned (.boot none) (secondLoss ++ (loss 2 30).drop 3 ++ [.proceed 2 {}]) := by
  have hrefused : ((coordinator.run (.boot none) secondLoss).step (.proceed 2 {})).2 =
      [.transferred ⟨1⟩ false] := by
    decide +kernel
  have hsent : .sent 3 resentMessage ∈ ((coordinator.run (.boot none)
      (secondLoss ++ (loss 2 30).drop 3)).step (.proceed 2 {})).2 := by
    decide +kernel
  refine ⟨hrefused, hsent, fun h => ?_⟩
  have hre : Redispatches (coordinator.run (.boot none) (secondLoss ++ (loss 2 30).drop 3))
      (.proceed 2 {}) := ⟨by decide +kernel, 3, resentMessage, hsent⟩
  obtain ⟨pre, b, mid, hsplit, hconn, hobtains⟩ := h _ _ [] rfl hre
  -- the thread transfers once, and that transfer was refused
  have htransfer : Transfers (coordinator.run (.boot none) secondLoss) (.proceed 2 {}) :=
    ⟨⟨1⟩, false, by rw [hrefused]; exact List.mem_cons_self⟩
  obtain ⟨rfl, rfl⟩ := transfers_once hsplit hconn.symm htransfer hobtains.transfers
  obtain ⟨gen, hgen⟩ := hobtains.1
  rw [hrefused, List.mem_singleton] at hgen
  cases hgen

end FailureFabric
