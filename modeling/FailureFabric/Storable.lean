import FailureFabric.Acknowledge
import FailureFabric.Saving

namespace FailureFabric

open Library

/-!
# Stores that can be saved

The coordinator keeps its store well formed: what it binds to an operation, what it records of
one and what it logs can be written to a snapshot and read back.

* `RegistryCall.Storable`, `encodable_step` — the calls on the registry;
* `appendFailure_wellFormed` — the failure log, whose checks include `validate_authority`;
* `Pc.carried`, `Pc.Plain` — what a thread carries from one step to the next and stores later;
* `storeStands` — the condition on a step: no invalid envelope is recorded, and no attempt
  generation wraps;
* `StoreInv` — the invariant, with its step lemma.
-/

/-! ### The registry -/

/-- What the call binds or records can be stored. -/
structure RegistryCall.Storable (c : RegistryCall) : Prop where
  envelope_valid : c.isEvent = false ∨ c.outcome.isSome = true →
    validateAuthority c.envelope = true
  outcome_le : ∀ o, c.outcome = some o → o.length ≤ 0xFFFF

/-- A call that neither binds nor records stores nothing. -/
theorem storable_of_isEvent {c : RegistryCall} (hevent : c.isEvent = true)
    (hnone : c.outcome = none) : c.Storable where
  envelope_valid := by
    rintro (hbinds | hrecords)
    · exact absurd (hevent.symm.trans hbinds) (by simp)
    · exact absurd hrecords (by simp [hnone])
  outcome_le := fun o h => absurd (hnone.symm.trans h) (by simp)

/-- Every runtime of the registry can be written and read back. -/
def OperationRegistry.Encodable (reg : OperationRegistry) : Prop :=
  ∀ op rt, reg.find op = some rt → rt.Encodable

/-- A call keeps a runtime encodable, when what it stores is. -/
theorem RegistryCall.Effect.encodable {c : RegistryCall} {r r' : OperationRuntime}
    {res : ApplyResult} (h : c.Effect r r' res) (hr : r.Encodable)
    (hc : r.terminalRecorded = false → c.Storable) : r'.Encodable := by
  cases h with
  | refused | repeated => exact hr
  | rebound hcall hopen | dispatched hcall hopen =>
    have hbinds : c.isEvent = false := by
      obtain ⟨op, hop⟩ := hcall
      rw [hop]
      rfl
    exact ⟨hr.outcome_le, (hc hopen).envelope_valid (Or.inl hbinds), hr.terminal_valid⟩
  | advanced => exact ⟨hr.outcome_le, hr.authority_valid, hr.terminal_valid⟩
  | recorded dst outcome _ hopen _ _ _ _ hsome =>
    have hrecords : c.outcome.isSome = true := by rw [hsome]; rfl
    exact ⟨(hc hopen).outcome_le outcome hsome, hr.authority_valid,
      (hc hopen).envelope_valid (Or.inr hrecords)⟩

/-- A call keeps all runtimes encodable.  On a recorded operation it does so in any case. -/
theorem encodable_step {reg : OperationRegistry} {c : RegistryCall} (hreg : reg.Encodable)
    (hc : ¬ reg.Recorded c.op → c.Storable) : (registry.step reg c).1.Encodable := by
  intro op r' hr'
  rcases find_of_step hr' with hold | ⟨hnone, e, rfl, rfl⟩ | ⟨r, hr, rfl, -, heff⟩
  · exact hreg op r' hold
  · have hnot : ¬ reg.Recorded op := by
      rintro ⟨r, hr, -⟩
      exact absurd (hnone.symm.trans hr) (by simp)
    exact ⟨by simp, (hc hnot).envelope_valid (Or.inl rfl), rfl⟩
  · refine heff.encodable (hreg _ r hr) (fun hopen => hc ?_)
    rintro ⟨r₁, hr₁, hrec⟩
    obtain rfl : r = r₁ := Option.some.inj (hr.symm.trans hr₁)
    exact absurd (hopen.symm.trans hrec) (by simp)

/-! ### The failure log -/

/-- `append_failure` accepts only a valid authority, so the log stays well formed. -/
theorem appendFailure_wellFormed {s : FailureStore} (hs : s.WellFormed) {rec : FailureRecord}
    (hrec : validateAuthority rec.authority = true → rec.Encodable) :
    (s.appendFailure rec).1.WellFormed := by
  unfold FailureStore.appendFailure
  split_ifs with _ _ _ hinvalid
  · exact hs
  · exact hs
  · exact hs
  · exact hs
  · refine ⟨?_, hs.runtime, hs.metadata⟩
    intro id rec' hlookup
    dsimp only at hlookup
    rw [UnorderedMap.lookup_insert'] at hlookup
    split_ifs at hlookup with hid
    · obtain rfl := Option.some.inj hlookup
      exact ⟨hid.symm, hrec (by simpa using hinvalid)⟩
    · exact hs.record id rec' hlookup

/-! ### What the threads carry -/

/-- An attempt comes with its generation, and a boot with the epoch. -/
theorem validateAuthority_iff (e : AuthorityEnvelope) :
    validateAuthority e = true ↔
      (e.attempt.isNull = false → e.attemptGeneration.isUnset = false) ∧
      (e.workerBoot.isNull = false → e.coordinatorEpoch.isUnset = false) := by
  unfold validateAuthority
  split_ifs <;> simp_all

/-- The envelope that the thread will store later. -/
def Pc.carried : Pc → Option AuthorityEnvelope
  | dispatchLock _ auth => some auth
  | lostBuild cur | lostReport cur _ | lostChoose cur => some cur
  | _ => none

/-- The record that the thread will log has neither texts nor dependencies. -/
def Pc.Plain : Pc → Prop
  | lostReport _ b => b.r.summary = [] ∧ b.r.reason = [] ∧ b.r.dependencies = []
  | _ => True

/-- The step stores nothing that a snapshot cannot hold. -/
def storeStands (s : Coord) : Action → Prop
  | .proceed c _ =>
    match s.pc c with
    -- a completion is confirmed under a valid envelope, or is recorded already
    | .completeConfirm op e => s.store.ops.Recorded op ∨ validateAuthority e = true
    -- the attempt generation of a fresh attempt does not wrap
    | .lostChoose cur => s.replacement.isSome = true → cur.attemptGeneration.next.isUnset = false
    | _ => True
  | _ => True

/-- The store is well formed, and so is what the threads will add to it. -/
structure StoreInv (s : Coord) : Prop where
  wellFormed : s.store.WellFormed
  carried : ∀ c e, (s.pc c).carried = some e → validateAuthority e = true
  plain : ∀ c, (s.pc c).Plain

section Invariant

variable {s s' : Coord} {c : ConnId} {a : Action} {evs : List Event}

/-- The authority that a client's dispatch is given is valid. -/
theorem validateAuthority_clientAuthority (s : Coord) (drawn : Uuid128) :
    validateAuthority (s.clientAuthority drawn) = true :=
  (validateAuthority_iff _).mpr ⟨fun _ => rfl, fun _ => rfl⟩

/-- So is a fresh attempt, unless its generation wraps. -/
theorem validateAuthority_newAttempt {cur : AuthorityEnvelope}
    (hcur : validateAuthority cur = true) (hgen : cur.attemptGeneration.next.isUnset = false)
    (drawn : Uuid128) : validateAuthority (Coord.newAttempt cur drawn) = true :=
  (validateAuthority_iff _).mpr ⟨fun _ => hgen, ((validateAuthority_iff cur).mp hcur).2⟩

/-- The current authority of any operation is valid; that of an unknown one is unset. -/
theorem validateAuthority_currentAuthority {reg : OperationRegistry} (hreg : reg.Encodable)
    (op : OperationId) : validateAuthority (reg.currentAuthority op) = true := by
  unfold OperationRegistry.currentAuthority
  cases hr : reg.find op with
  | none => decide
  | some r => exact (hreg op r hr).authority_valid

/-- Every envelope that a thread carries stays valid. -/
theorem StoreInv.carried_step (inv : StoreInv s) (h : s.Moves c a s' evs) (c' : ConnId)
    (e : AuthorityEnvelope) (hpc : (s'.pc c').carried = some e) : validateAuthority e = true := by
  by_cases hc : c' = c
  · subst hc
    have hold := inv.carried c'
    cases h with
    | idle => exact hold e hpc
    | localStep a new evs h =>
      rw [Coord.goto_pc_self] at hpc
      generalize s.pc c' = pc at h hold
      cases h with
      | asked m drawn =>
        obtain rfl := Option.some.inj hpc
        exact validateAuthority_clientAuthority s drawn
      | built cur now => exact hold e hpc
      | accept | receive | disconnect | ignored | noWorkers | sentDispatch | sentAck | sentFence
      | notRunning | allDone | recover | noReplacement | gaveUp | verified | sentAgain =>
        exact absurd hpc (by simp [Pc.carried])
    | callStep ch rc new h =>
      rw [Coord.goto_pc_self] at hpc
      generalize s.pc c' = pc at h
      generalize (s.call rc).2 = res at h
      cases h <;> exact absurd hpc (by simp [Pc.carried])
    | register | dispatchLock | marked | markedAgain | lost | saveStart | saveItem | saveEnd =>
      rw [Coord.goto_pc_self] at hpc
      exact absurd hpc (by simp [Pc.carried])
    | transferred a ch hpc' =>
      have hpc'' : some (s.store.ops.currentAuthority s.currentOp) = some e := by
        simpa [Coord.lostTransfer, Pc.carried] using hpc
      obtain rfl := Option.some.inj hpc''
      exact validateAuthority_currentAuthority inv.wellFormed.runtime s.currentOp
    | recorded a ch cur b hpc' =>
      have hpc'' : some cur = some e := by simpa [Coord.lostReport, Pc.carried] using hpc
      refine hold e ?_
      rw [hpc']
      exact hpc''
  · rw [h.pc_of_ne hc] at hpc
    exact inv.carried c' e hpc

/-- Every record that a thread carries can be written. -/
theorem StoreInv.plain_step (inv : StoreInv s) (h : s.Moves c a s' evs) (c' : ConnId) :
    (s'.pc c').Plain := by
  by_cases hc : c' = c
  · subst hc
    cases h with
    | idle => exact inv.plain c'
    | localStep a new evs h =>
      rw [Coord.goto_pc_self]
      generalize s.pc c' = pc at h
      cases h with
      | built cur now => exact ⟨rfl, rfl, rfl⟩
      | accept | receive | disconnect | asked | ignored | noWorkers | sentDispatch | sentAck
      | sentFence | notRunning | allDone | recover | noReplacement | gaveUp | verified
      | sentAgain => trivial
    | callStep ch rc new h =>
      rw [Coord.goto_pc_self]
      generalize s.pc c' = pc at h
      generalize (s.call rc).2 = res at h
      cases h <;> trivial
    | register | dispatchLock | marked | markedAgain | lost | saveStart | saveItem | saveEnd =>
      rw [Coord.goto_pc_self]
      trivial
    | transferred a ch => simp [Coord.lostTransfer, Pc.Plain]
    | recorded a ch cur b => simp [Coord.lostReport, Pc.Plain]
  · rw [h.pc_of_ne hc]
    exact inv.plain c'

/-- A call keeps the store well formed. -/
theorem wellFormed_call {rc : RegistryCall} (hs : s.store.WellFormed)
    (hc : ¬ s.store.ops.Recorded rc.op → rc.Storable) : (s.call rc).1.store.WellFormed where
  record := hs.record
  runtime := encodable_step hs.runtime hc
  metadata := hs.metadata

/-- Under the condition every call of a thread alone can be stored. -/
theorem storable_of_calls {ch : Choice} {rc : RegistryCall} {res : ApplyResult} {new : Pc}
    (inv : StoreInv s) (hC : storeStands s (.proceed c ch)) (h : s.Calls (s.pc c) rc res new)
    (hnot : ¬ s.store.ops.Recorded rc.op) : rc.Storable := by
  have hcarried := inv.carried c
  dsimp only [storeStands] at hC
  generalize s.pc c = pc at h hC hcarried
  cases h with
  | running | failure | reported | notReported | started => exact storable_of_isEvent rfl rfl
  | confirm op e res =>
    have hvalid : validateAuthority e = true := hC.resolve_left hnot
    refine ⟨fun _ => hvalid, fun o ho => ?_⟩
    obtain rfl : completedText = o := Option.some.inj ho
    decide
  | redispatch cur drawn r res hr =>
    have hgen := hC (by rw [hr]; rfl)
    exact ⟨fun _ => validateAuthority_newAttempt (hcarried cur rfl) hgen drawn,
      fun o ho => absurd ho (by simp [RegistryCall.outcome])⟩

/-- What `create` and `dispatch` bind for a client can be stored. -/
theorem storable_of_binds {c : RegistryCall} (hvalid : validateAuthority c.envelope = true)
    (hnone : c.outcome = none) : c.Storable :=
  ⟨fun _ => hvalid, fun o ho => absurd (hnone.symm.trans ho) (by simp)⟩

/-- The store stays well formed. -/
theorem StoreInv.wellFormed_step (inv : StoreInv s) (h : s.Moves c a s' evs)
    (hC : storeStands s a) : s'.store.WellFormed := by
  have hs := inv.wellFormed
  cases h with
  | idle | localStep | register | marked | markedAgain | lost | saveStart | saveItem | saveEnd =>
    exact hs
  | callStep ch rc new h => exact wellFormed_call hs (storable_of_calls inv hC h)
  | dispatchLock ch op auth wid target rest hold =>
    have hvalid : validateAuthority auth = true := inv.carried c auth (by rw [hold]; rfl)
    have hcreated : (s.call (.create op auth)).1.store.WellFormed :=
      wellFormed_call hs (fun _ => storable_of_binds (c := .create op auth) hvalid rfl)
    exact wellFormed_call hcreated
      (fun _ => storable_of_binds (c := .dispatch op auth) hvalid rfl)
  | transferred a ch => exact ⟨hs.record, hs.runtime, hs.metadata⟩
  | recorded a ch cur b hold =>
    have hplain := inv.plain c
    rw [hold] at hplain
    obtain ⟨hsummary, hreason, hdeps⟩ := hplain
    have happended : (s.store.appendFailure (b.build ch.drawn)).1.WellFormed := by
      refine appendFailure_wellFormed hs (fun hvalid => ⟨?_, ?_, ?_, hvalid⟩)
      · show b.r.summary.length ≤ 0xFFFF
        simp [hsummary]
      · show b.r.reason.length ≤ 0xFFFF
        simp [hreason]
      · show b.r.dependencies.length ≤ 4096
        simp [hdeps]
    exact wellFormed_call (s := { s with store := (s.store.appendFailure (b.build ch.drawn)).1 })
      happended
      (fun _ => storable_of_isEvent (c := .reportFailure s.currentOp cur true) rfl rfl)

/-- **Step lemma.** A step under the condition keeps the store well formed. -/
theorem StoreInv.step (inv : StoreInv s) (h : s.Moves c a s' evs) (hC : storeStands s a) :
    StoreInv s' where
  wellFormed := inv.wellFormed_step h hC
  carried := inv.carried_step h
  plain := inv.plain_step h

/-- Whatever the state file holds, the coordinator starts with a well formed store. -/
theorem storeInv_boot (file : Option (List UInt8)) : StoreInv (Coord.boot file) where
  wellFormed := load_wellFormed wellFormed_empty file
  carried := fun _ _ h => by cases h
  plain := fun _ => trivial

end Invariant

end FailureFabric
