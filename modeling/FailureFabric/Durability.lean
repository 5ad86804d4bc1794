import FailureFabric.Storable

namespace FailureFabric

open Library

/-!
# Crashes

The coordinator may crash at any step, and is started again with what the crash leaves of its
state file: a prefix of the bytes written since the file was truncated.  A worker that was sent
an acknowledgement does not report again, so the completion is meant to be there after the start.

The acknowledgement is sent before the state is saved, and a save truncates the file first, so a
crash in between loses the completion, or the whole file (`crash_after_ack`).

* `Incident`, `restarting` — the coordinator with its crashes and starts as one machine;
* `durableStands` — the condition on a step or crash;
* `DurableInv` — every acknowledged completion is in the file, or is still to be written by a
  save that is under way, or by one that is about to start;
* `acknowledged_survive` — every run whose incidents meet the condition keeps all acknowledged
  completions.
-/

/-- What can happen to the process. -/
inductive Incident
  /-- A step of the coordinator. -/
  | act (a : Action)
  /-- A crash that leaves this many bytes of the state file, and the next start. -/
  | crash (cut : Nat)

/-- The process after a crash and the next start. -/
def Coord.crash (s : Coord) (cut : Nat) : Coord := .boot (s.disk.map (·.take cut))

/-- The coordinator with its crashes. -/
def restarting : Machine Coord Incident (List Event) where
  step s
    | .act a => s.step a
    | .crash cut => (s.crash cut, [])

/-- All events of a run with crashes, in order. -/
def Coord.history (s : Coord) (is : List Incident) : List Event :=
  (restarting.outputs s is).flatten

/-- The thread has acknowledged a completion and has not finished its save. -/
def Pc.unsaved : Pc → Bool
  | completeSave _ | saving _ => true
  | _ => false

/-- The incident loses no acknowledged completion. -/
def durableStands (s : Coord) : Incident → Prop
  | .act a =>
    storeStands s a ∧
      match a with
      | .proceed c _ =>
        match s.pc c with
        -- the confirmation does what the acknowledgement says, or it was done before
        | .completeConfirm op _ => s.store.ops.Confirmed op ∨ confirmStands s a = true
        -- the save can count what it writes
        | .completeSave _ => s.store.Countable
        | _ => True
      | _ => True
  -- no save is outstanding and all bytes are on the disk, or there is nothing to lose
  | .crash cut =>
    ((∀ c, (s.pc c).unsaved = false) ∧ ∀ bytes, s.disk = some bytes → bytes.length ≤ cut) ∨
      ∀ op, ¬ s.store.ops.Confirmed op

/-! ### How a save moves on -/

namespace Coord.Moves

variable {s s' : Coord} {c : ConnId} {a : Action} {evs : List Event} {op : OperationId}

/-- What is recorded as confirmed stays so. -/
theorem confirmation_stays (h : s.Moves c a s' evs) (hconf : s.store.ops.Confirmed op) :
    s'.store.ops.Confirmed op := by
  obtain ⟨r, hr, hconfirmed⟩ := hconf
  exact ⟨r, h.find_of_recorded hr hconfirmed.1, hconfirmed⟩

/-- A move starts a save, is a write of one, ends one, or has nothing to do with saves. -/
theorem saves (h : s.Moves c a s' evs) :
    (s' = s ∧ evs = []) ∨
    ((s.pc c).unsaved = false ∧ (∀ todo, s'.pc c ≠ .saving todo) ∧ s'.holder = s.holder ∧
      s'.disk = s.disk) ∨
    (∃ ch op, ∃ o : s.store.Orders, a = .proceed c ch ∧ s.pc c = .completeSave op ∧
      s.holder = none ∧ evs = [] ∧
      s' = { s with finished := true, disk := some [], holder := some c }.goto c
        (.saving (s.store.savePlan o))) ∨
    (∃ item todo, s.pc c = .saving (item :: todo) ∧ evs = [] ∧
      s' = { s with disk := s.disk.map (· ++ s.store.write item) }.goto c (.saving todo)) ∨
    (s.pc c = .saving [] ∧ evs = [] ∧ s' = { s with holder := none }.goto c .reading) := by
  cases h with
  | idle => exact Or.inl ⟨rfl, rfl⟩
  | localStep a new evs h =>
    refine Or.inr (Or.inl ⟨?_, ?_, rfl, rfl⟩)
    · generalize s.pc c = pc at h
      cases h <;> rfl
    · intro todo hpc
      rw [goto_pc_self] at hpc
      subst hpc
      generalize s.pc c = pc at h
      cases h
  | callStep ch rc new h =>
    refine Or.inr (Or.inl ⟨?_, ?_, rfl, rfl⟩)
    · generalize s.pc c = pc at h
      generalize (s.call rc).2 = res at h
      cases h <;> rfl
    · intro todo hpc
      rw [goto_pc_self] at hpc
      subst hpc
      generalize s.pc c = pc at h
      generalize (s.call rc).2 = res at h
      cases h
  | register a m wid order h | dispatchLock ch op auth wid target rest h
  | marked ch op auth target h | markedAgain a r h | lost a h =>
    refine Or.inr (Or.inl ⟨by rw [h]; rfl, ?_, rfl, rfl⟩)
    intro todo hpc
    rw [goto_pc_self] at hpc
    cases hpc
  | transferred a ch h | recorded a ch cur b h =>
    refine Or.inr (Or.inl ⟨by rw [h]; rfl, ?_, rfl, rfl⟩)
    intro todo hpc
    exact absurd hpc (by simp [lostTransfer, lostReport])
  | saveStart ch op o h hfree =>
    exact Or.inr (Or.inr (Or.inl ⟨ch, op, o, rfl, h, hfree, rfl, rfl⟩))
  | saveItem a item todo h =>
    exact Or.inr (Or.inr (Or.inr (Or.inl ⟨item, todo, h, rfl, rfl⟩)))
  | saveEnd a h => exact Or.inr (Or.inr (Or.inr (Or.inr ⟨h, rfl, rfl⟩)))

end Coord.Moves

/-! ### The invariant -/

/-- The operation is acknowledged, and no thread is about to save for it. -/
def Coord.Kept (s : Coord) (t : List Event) (op : OperationId) : Prop :=
  0 < acks op t ∧ ∀ c, s.pc c ≠ .completeSave op

/-- Acknowledged completions are confirmed in the registry; those that no thread is about to save
    are confirmed in the file, or will be when the save that is under way is done. -/
structure DurableInv (s : Coord) (t : List Event) : Prop where
  store : StoreInv s
  acking : ∀ c op e, s.pc c = .completeAck op e → s.store.ops.Confirmed op
  acked : ∀ op, 0 < acks op t → s.store.ops.Confirmed op
  locked : ∀ c todo, s.pc c = .saving todo → s.holder = some c
  holding : ∀ c, s.holder = some c → ∃ todo, s.pc c = .saving todo
  saved : s.holder = none → ∀ op, s.Kept t op →
    (({} : FailureStore).load s.disk).1.ops.Confirmed op
  saving : ∀ c todo, s.pc c = .saving todo → Underway s.store (s.Kept t) s.disk todo

section Invariant

variable {s s' : Coord} {c : ConnId} {a : Action} {evs : List Event} {t : List Event}

theorem OperationRegistry.ConfirmedWith.confirmed {reg : OperationRegistry} {op : OperationId}
    {e : AuthorityEnvelope} (h : reg.ConfirmedWith op e) : reg.Confirmed op := by
  obtain ⟨r, hr, hrec, hstate, -⟩ := h
  exact ⟨r, hr, hrec, hstate⟩

theorem OperationRegistry.Confirmed.has {reg : OperationRegistry} {op : OperationId}
    (h : reg.Confirmed op) : reg.has op = true := by
  obtain ⟨r, hr, -⟩ := h
  rw [OperationRegistry.has, hr]
  rfl

theorem DurableInv.acking_step (inv : DurableInv s t) (h : s.Moves c a s' evs)
    (hC : durableStands s (.act a)) (c' : ConnId) (op : OperationId) (e : AuthorityEnvelope)
    (hpc : s'.pc c' = .completeAck op e) : s'.store.ops.Confirmed op := by
  by_cases hold : s.pc c' = .completeAck op e
  · exact h.confirmation_stays (inv.acking c' op e hold)
  · obtain rfl : c' = c := h.mover (fun heq => hold (heq.symm.trans hpc))
    rcases h.to_completeAck hpc with ⟨rfl, -⟩ | ⟨ch, rfl, hconfirm, hs', -⟩
    · exact absurd hpc hold
    · have hstands := hC.2
      simp only [hconfirm] at hstands
      rcases hstands with hconf | hconf
      · exact h.confirmation_stays hconf
      · rw [hs', Coord.goto_store]
        exact (confirms_of_confirmStands hconfirm hconf).2.confirmed

/-- The operations that are acknowledged after a step were acknowledged before, or a thread was
    about to acknowledge them and is now about to save. -/
theorem acks_of_acks_append {op : OperationId} (h : s.Moves c a s' evs)
    (hpos : 0 < acks op (t ++ evs)) :
    0 < acks op t ∨ (∃ e, s.pc c = .completeAck op e) ∧ s'.pc c = .completeSave op := by
  rw [acks_append] at hpos
  by_cases hack : 0 < acks op evs
  · obtain ⟨ev, hev, hisAck⟩ := List.countP_pos_iff.mp hack
    obtain ⟨e, hold, hs', -⟩ := h.ack hev hisAck
    refine Or.inr ⟨⟨e, hold⟩, ?_⟩
    rw [hs', Coord.goto_pc_self]
  · left
    omega

theorem DurableInv.acked_step (inv : DurableInv s t) (h : s.Moves c a s' evs) (op : OperationId)
    (hpos : 0 < acks op (t ++ evs)) : s'.store.ops.Confirmed op := by
  rcases acks_of_acks_append h hpos with hbefore | ⟨⟨e, hold⟩, -⟩
  · exact h.confirmation_stays (inv.acked op hbefore)
  · exact h.confirmation_stays (inv.acking c op e hold)

/-- A move of a thread that is not about to save adds nothing to what is kept: what it
    acknowledges it is about to save. -/
theorem kept_of_kept (h : s.Moves c a s' evs) (hpc : ∀ op, s.pc c ≠ .completeSave op)
    {op : OperationId} (hkept : s'.Kept (t ++ evs) op) : s.Kept t op := by
  obtain ⟨hpos, hnone⟩ := hkept
  refine ⟨?_, fun c' => ?_⟩
  · rcases acks_of_acks_append h hpos with hbefore | ⟨-, hsave⟩
    · exact hbefore
    · exact absurd hsave (hnone c)
  · by_cases hc : c' = c
    · rw [hc]
      exact hpc op
    · rw [← h.pc_of_ne hc]
      exact hnone c'

/-- A thread that saves holds the lock, so no other one does. -/
theorem DurableInv.eq_of_saving (inv : DurableInv s t) {c₁ c₂ : ConnId}
    {todo₁ todo₂ : List SaveItem} (h₁ : s.pc c₁ = .saving todo₁) (h₂ : s.pc c₂ = .saving todo₂) :
    c₁ = c₂ :=
  Option.some.inj ((inv.locked c₁ todo₁ h₁).symm.trans (inv.locked c₂ todo₂ h₂))

/-- A move that has nothing to do with saves. -/
theorem DurableInv.quiet_step (inv : DurableInv s t) (h : s.Moves c a s' evs)
    (hC : durableStands s (.act a)) (hpc : (s.pc c).unsaved = false)
    (hpc' : ∀ todo, s'.pc c ≠ .saving todo) (hholder : s'.holder = s.holder)
    (hdisk : s'.disk = s.disk) : DurableInv s' (t ++ evs) where
  store := inv.store.step h hC.1
  acking := inv.acking_step h hC
  acked := inv.acked_step h
  locked := by
    intro c' todo hsaving
    have hc : c' ≠ c := fun hc => hpc' todo (hc ▸ hsaving)
    rw [hholder]
    exact inv.locked c' todo (by rw [← h.pc_of_ne hc]; exact hsaving)
  holding := by
    intro c' hheld
    rw [hholder] at hheld
    obtain ⟨todo, hsaving⟩ := inv.holding c' hheld
    have hc : c' ≠ c := by
      rintro rfl
      rw [hsaving] at hpc
      exact absurd hpc (by simp [Pc.unsaved])
    exact ⟨todo, by rw [h.pc_of_ne hc]; exact hsaving⟩
  saved := by
    intro hfree op hkept
    rw [hholder] at hfree
    rw [hdisk]
    refine inv.saved hfree op (kept_of_kept h ?_ hkept)
    exact fun op hsave => by simp [hsave, Pc.unsaved] at hpc
  saving := by
    intro c' todo hsaving
    have hc : c' ≠ c := fun hc => hpc' todo (hc ▸ hsaving)
    rw [hdisk]
    refine (inv.saving c' todo (by rw [← h.pc_of_ne hc]; exact hsaving)).mono
      (fun op => h.has_stays) (fun op hkept => kept_of_kept h ?_ hkept)
    exact fun op hsave => by simp [hsave, Pc.unsaved] at hpc

/-- The start of a save: everything that is acknowledged is to be written. -/
theorem DurableInv.start_step {ch : Choice} {op : OperationId} (inv : DurableInv s t)
    (o : s.store.Orders) (h : s.Moves c (.proceed c ch) s' [])
    (hC : durableStands s (.act (.proceed c ch))) (hpc : s.pc c = .completeSave op)
    (hfree : s.holder = none)
    (hs' : s' = { s with finished := true, disk := some [], holder := some c }.goto c
      (.saving (s.store.savePlan o))) : DurableInv s' (t ++ []) where
  store := inv.store.step h hC.1
  acking := inv.acking_step h hC
  acked := inv.acked_step h
  locked := by
    intro c' todo hsaving
    rw [hs']
    by_cases hc : c' = c
    · rw [hc]; rfl
    · rw [h.pc_of_ne hc] at hsaving
      exact absurd ((inv.locked c' todo hsaving).symm.trans hfree) (by simp)
  holding := by
    intro c' hheld
    rw [hs'] at hheld ⊢
    obtain rfl : c = c' := Option.some.inj hheld
    exact ⟨_, Coord.goto_pc_self ..⟩
  saved := by
    intro hnone
    rw [hs'] at hnone
    exact absurd hnone (by simp [Coord.goto])
  saving := by
    have hcount := hC.2
    simp only [hpc] at hcount
    intro c' todo hsaving
    by_cases hc : c' = c
    · subst hc
      have htodo : todo = s.store.savePlan o := by
        rw [hs', Coord.goto_pc_self] at hsaving
        exact (Pc.saving.inj hsaving).symm
      rw [htodo]
      have hstart : Underway s.store (s'.Kept (t ++ [])) (some []) (s.store.savePlan o) := by
        refine .start inv.store.wellFormed hcount o (fun op hkept => ?_)
        rw [List.append_nil] at hkept
        exact (inv.acked op hkept.1).has
      rw [hs'] at hstart ⊢
      exact hstart
    · rw [h.pc_of_ne hc] at hsaving
      exact absurd ((inv.locked c' todo hsaving).symm.trans hfree) (by simp)

/-- One write of a save. -/
theorem DurableInv.item_step {item : SaveItem} {todo : List SaveItem} (inv : DurableInv s t)
    (h : s.Moves c a s' []) (hC : durableStands s (.act a)) (hpc : s.pc c = .saving (item :: todo))
    (hs' : s' = { s with disk := s.disk.map (· ++ s.store.write item) }.goto c (.saving todo)) :
    DurableInv s' (t ++ []) where
  store := inv.store.step h hC.1
  acking := inv.acking_step h hC
  acked := inv.acked_step h
  locked := by
    intro c' todo' hsaving
    rw [hs']
    by_cases hc : c' = c
    · rw [hc]
      exact inv.locked c _ hpc
    · rw [h.pc_of_ne hc] at hsaving
      exact inv.locked c' todo' hsaving
  holding := by
    intro c' hheld
    rw [hs'] at hheld ⊢
    have hc : c = c' := Option.some.inj ((inv.locked c _ hpc).symm.trans hheld)
    rw [← hc]
    exact ⟨_, Coord.goto_pc_self ..⟩
  saved := by
    intro hnone
    rw [hs'] at hnone
    exact absurd ((inv.locked c _ hpc).symm.trans hnone) (by simp)
  saving := by
    intro c' todo' hsaving
    by_cases hc : c' = c
    · subst hc
      have htodo : todo' = todo := by
        rw [hs', Coord.goto_pc_self] at hsaving
        exact (Pc.saving.inj hsaving).symm
      rw [htodo]
      have hwrite := (inv.saving c' _ hpc).write inv.store.wellFormed
        (fun op hkept => inv.acked op hkept.1)
      have hmono : Underway s.store (s'.Kept (t ++ []))
          (s.disk.map (· ++ s.store.write item)) todo :=
        hwrite.mono (fun _ hop => hop)
          (fun op hkept => kept_of_kept h (fun op hsave => by rw [hpc] at hsave; cases hsave) hkept)
      rw [hs'] at hmono ⊢
      exact hmono
    · rw [h.pc_of_ne hc] at hsaving
      exact absurd (inv.eq_of_saving hsaving hpc) hc

/-- At the end of a save no thread saves. -/
theorem DurableInv.none_saving (inv : DurableInv s t) (h : s.Moves c a s' [])
    (hpc : s.pc c = .saving []) (hs' : s' = { s with holder := none }.goto c .reading)
    (c' : ConnId) (todo : List SaveItem) : s'.pc c' ≠ .saving todo := by
  intro hsaving
  by_cases hc : c' = c
  · rw [hc, hs', Coord.goto_pc_self] at hsaving
    cases hsaving
  · rw [h.pc_of_ne hc] at hsaving
    exact hc (inv.eq_of_saving hsaving hpc)

/-- The end of a save: the file holds everything that is kept. -/
theorem DurableInv.end_step (inv : DurableInv s t) (h : s.Moves c a s' [])
    (hC : durableStands s (.act a)) (hpc : s.pc c = .saving [])
    (hs' : s' = { s with holder := none }.goto c .reading) : DurableInv s' (t ++ []) where
  store := inv.store.step h hC.1
  acking := inv.acking_step h hC
  acked := inv.acked_step h
  locked := fun c' todo hsaving => absurd hsaving (inv.none_saving h hpc hs' c' todo)
  holding := by
    intro c' hheld
    rw [hs'] at hheld
    exact absurd hheld (by simp [Coord.goto])
  saved := by
    intro _ op hkept
    have hdisk : s'.disk = s.disk := by rw [hs']; rfl
    rw [hdisk]
    refine ((inv.saving c [] hpc).finish {}).2 op (kept_of_kept h ?_ hkept)
    exact fun op hsave => by rw [hpc] at hsave; cases hsave
  saving := fun c' todo hsaving => absurd hsaving (inv.none_saving h hpc hs' c' todo)

/-- **Step lemma.** A step under the condition keeps the invariant. -/
theorem DurableInv.step (inv : DurableInv s t) (h : s.Moves c a s' evs)
    (hC : durableStands s (.act a)) : DurableInv s' (t ++ evs) := by
  rcases h.saves with ⟨rfl, rfl⟩ | ⟨hpc, hpc', hholder, hdisk⟩ |
    ⟨ch, op, o, rfl, hpc, hfree, rfl, hs'⟩ | ⟨item, todo, hpc, rfl, hs'⟩ | ⟨hpc, rfl, hs'⟩
  · rw [List.append_nil]
    exact inv
  · exact inv.quiet_step h hC hpc hpc' hholder hdisk
  · exact inv.start_step o h hC hpc hfree hs'
  · exact inv.item_step h hC hpc hs'
  · exact inv.end_step h hC hpc hs'

/-- After a start, everything acknowledged so far is kept if it is in what was loaded. -/
theorem durableInv_boot {file : Option (List UInt8)}
    (hsaved : ∀ op, 0 < acks op t → (({} : FailureStore).load file).1.ops.Confirmed op) :
    DurableInv (.boot file) t where
  store := storeInv_boot file
  acking := fun _ _ _ h => by cases h
  acked := hsaved
  locked := fun _ _ h => by cases h
  holding := fun _ h => by cases h
  saved := fun _ op hkept => hsaved op hkept.1
  saving := fun _ _ h => by cases h

/-- **Crash lemma.** A crash under the condition keeps the invariant. -/
theorem DurableInv.crash {cut : Nat} (inv : DurableInv s t) (hC : durableStands s (.crash cut)) :
    DurableInv (s.crash cut) t := by
  refine durableInv_boot (fun op hpos => ?_)
  rcases hC with ⟨hquiet, hdisk⟩ | hnone
  · -- nobody saves, so the file is complete, and the crash leaves all of it
    have hfree : s.holder = none := by
      cases hholder : s.holder with
      | none => rfl
      | some c =>
        obtain ⟨todo, hpc⟩ := inv.holding c hholder
        exact absurd (hquiet c) (by simp [hpc, Pc.unsaved])
    have hfile : s.disk.map (·.take cut) = s.disk := by
      cases hbytes : s.disk with
      | none => rfl
      | some bytes => rw [Option.map_some, List.take_of_length_le (hdisk bytes hbytes)]
    rw [hfile]
    refine inv.saved hfree op ⟨hpos, fun c hpc => ?_⟩
    exact absurd (hquiet c) (by simp [hpc, Pc.unsaved])
  · exact absurd (inv.acked op hpos) (hnone op)

end Invariant

end FailureFabric
