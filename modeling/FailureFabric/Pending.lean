import FailureFabric.Dispatching
import FailureFabric.Binding

namespace FailureFabric

open Library

/-!
# Pending sends

Between the critical section that binds an operation to an attempt and the send of that attempt
to a connection a thread takes further steps, and other threads run.

* `Coord.pending` — the send that a thread will make, as things stand;
* `Coord.Binds` — the two steps that bind an operation for a send to come;
* `Coord.Moves.pending_of` — a pending send was pending before, or the step binds it;
* `Coord.pending_stays` — and it stays so until it is sent, while the operation is live;
* `Coord.Moves.authority_of` — the authority of a known operation changes only when it is bound.
-/

/-! ### Traces and the registry -/

theorem Coord.trace_append (s : Coord) (acts acts' : List Action) :
    s.trace (acts ++ acts') = s.trace acts ++ (coordinator.run s acts).trace acts' := by
  unfold Coord.trace
  rw [Machine.outputs_append, List.flatten_append]

theorem Coord.callsIn_trace_cons (s : Coord) (a : Action) (acts : List Action) :
    Coord.callsIn (s.trace (a :: acts)) =
      Coord.callsIn (s.step a).2 ++ Coord.callsIn ((s.step a).1.trace acts) :=
  List.filterMap_append

/-- **Refinement.** The registry after a run is the run of the calls in its trace. -/
theorem Coord.ops_run (s : Coord) (acts : List Action) :
    (coordinator.run s acts).store.ops =
      registry.run s.store.ops ((Coord.callsIn (s.trace acts)).map Prod.fst) := by
  induction acts generalizing s with
  | nil => rfl
  | cons a acts ih =>
    rw [Coord.callsIn_trace_cons, List.map_append, Machine.run_append,
      ← (s.step_moves a).ops_eq.1]
    exact ih (s.step a).1

/-- A trace without a `dispatch` of an operation has no such call. -/
theorem Coord.dispatch_notMem {t : List Event} {op : OperationId}
    (hnone : ∀ e res, .applied (.dispatch op e) res ∉ t) (e : AuthorityEnvelope) :
    .dispatch op e ∉ (Coord.callsIn t).map Prod.fst := by
  intro he
  obtain ⟨⟨rc, res⟩, hmem, rfl⟩ := List.mem_map.mp he
  obtain ⟨ev, hev, hsome⟩ := List.mem_filterMap.mp hmem
  cases ev with
  | applied rc' res' =>
    obtain ⟨rfl, rfl⟩ := Prod.mk.inj (Option.some.inj hsome)
    exact hnone e _ hev
  | received | sent | transferred | appended => cases hsome

/-- A known operation keeps its authority in a run that does not dispatch it. -/
theorem Coord.authority_kept {s : Coord} {op : OperationId} {acts : List Action}
    (hknown : s.store.ops.has op = true)
    (hnone : ∀ e res, .applied (.dispatch op e) res ∉ s.trace acts) :
    (coordinator.run s acts).store.ops.currentAuthority op = s.store.ops.currentAuthority op := by
  obtain ⟨r, hr⟩ := Option.isSome_iff_exists.mp hknown
  obtain ⟨r', hr', hauth⟩ := FailureFabric.authority_run hr (Coord.dispatch_notMem hnone)
  rw [← s.ops_run] at hr'
  rw [OperationRegistry.currentAuthority, OperationRegistry.currentAuthority, hr, hr']
  exact hauth

/-! ### What is pending -/

/-- The operation, the envelope and the connection of the send that the thread of `c` will make.
    A thread that chose a replacement gives up when it finds the operation terminal. -/
def Coord.pending (s : Coord) (c : ConnId) : Option (OperationId × AuthorityEnvelope × ConnId) :=
  match s.pc c with
  | .dispatchSend op auth target => some (op, auth, target)
  | .lostVerify fresh (some r) =>
    if isTerminal (s.store.ops.state s.currentOp) then none else some (s.currentOp, fresh, r)
  | .lostSend fresh r => some (s.currentOp, fresh, r)
  | _ => none

/-- The step binds an operation to an envelope, for a send to a connection, with these calls. -/
inductive Coord.Binds (s : Coord) (c : ConnId) :
    Action → OperationId → AuthorityEnvelope → ConnId → List RegistryCall → Prop
  | client (ch : Choice) (op : OperationId) (auth : AuthorityEnvelope) (wid : WorkerId)
      (target : ConnId) (rest : List (WorkerId × ConnId)) (h : s.pc c = .dispatchLock op auth)
      (hworkers : s.workers = (wid, target) :: rest) :
      Binds s c (.proceed c ch) op auth target [.create op auth, .dispatch op auth]
  | recovery (ch : Choice) (cur : AuthorityEnvelope) (drawn : Uuid128) (r : ConnId)
      (h : s.pc c = .lostChoose cur) (hr : s.replacement = some r) :
      Binds s c (.proceed c ch) s.currentOp (Coord.newAttempt cur drawn) r
        [.dispatch s.currentOp (Coord.newAttempt cur drawn)]

section Pending

variable {s s' : Coord} {c c' : ConnId} {a : Action} {evs : List Event} {op : OperationId}
  {auth : AuthorityEnvelope} {target : ConnId} {calls : List RegistryCall}

/-- What is pending for a replacement is pending for the current operation. -/
theorem Coord.pending_cases (h : s.pending c = some (op, auth, target)) :
    s.pc c = .dispatchSend op auth target ∨
      ((s.pc c).redispatches = true ∧ op = s.currentOp ∧
        (s.pc c = .lostVerify auth (some target) ∧ isTerminal (s.store.ops.state op) = false ∨
          s.pc c = .lostSend auth target)) := by
  unfold Coord.pending at h
  cases hpc : s.pc c with
  | dispatchSend op' auth' target' =>
    rw [hpc] at h
    obtain ⟨rfl, rfl, rfl⟩ : op' = op ∧ auth' = auth ∧ target' = target := by simpa using h
    exact Or.inl rfl
  | lostVerify fresh replacement =>
    rw [hpc] at h
    cases replacement with
    | none => exact absurd h (by simp)
    | some r =>
      dsimp only at h
      split_ifs at h with hterm
      obtain ⟨rfl, rfl, rfl⟩ : s.currentOp = op ∧ fresh = auth ∧ r = target := by simpa using h
      exact Or.inr ⟨rfl, rfl, Or.inl ⟨rfl, by simpa using hterm⟩⟩
  | lostSend fresh r =>
    rw [hpc] at h
    obtain ⟨rfl, rfl, rfl⟩ : s.currentOp = op ∧ fresh = auth ∧ r = target := by simpa using h
    exact Or.inr ⟨rfl, rfl, Or.inr rfl⟩
  | _ =>
    rw [hpc] at h
    exact absurd h (by simp)

/-- A `DISPATCH` that is sent was pending. -/
theorem Coord.Moves.sent_pending {m : WireMessage} (h : s.Moves c a s' evs)
    (hev : .sent target m ∈ evs) (htype : m.type = .DISPATCH) :
    s.pending c = some (m.op, m.authority, target) := by
  unfold Coord.pending
  obtain ⟨-, new, -, hold | ⟨hold, hop⟩⟩ := h.sent_dispatch hev htype
  · rw [hold]
  · rw [hold, hop]

/-- A thread whose place and operation are the same has the same pending send. -/
theorem Coord.Moves.pending_of_pc (h : s.Moves c a s' evs) (hpc : s'.pc c' = s.pc c')
    (hcur : (s.pc c').redispatches = true → s'.currentOp = s.currentOp)
    (hp : s'.pending c' = some (op, auth, target)) : s.pending c' = some (op, auth, target) := by
  unfold Coord.pending
  rcases Coord.pending_cases hp with hold | ⟨hre, rfl, ⟨hold, hlive⟩ | hold⟩
  · rw [← hpc, hold]
  · rw [hpc] at hre
    have hlive' := h.live_of hlive
    rw [hcur hre] at hlive' ⊢
    rw [← hpc, hold]
    exact if_neg (by simp [hlive'])
  · rw [hpc] at hre
    rw [← hpc, hold, hcur hre]

/-- **Inversion.** A pending send was pending before, or the step binds it, for a recovery only
    when the operation is live. -/
theorem Coord.Moves.pending_of (h : s.Moves c a s' evs)
    (hcur : (s.pc c').redispatches = true → s'.currentOp = s.currentOp)
    (hp : s'.pending c' = some (op, auth, target)) :
    s.pending c' = some (op, auth, target) ∨ c' = c ∧ ∃ calls, s.Binds c a op auth target calls ∧
      s'.store.ops = registry.run s.store.ops calls ∧
      (s.pc c = .dispatchLock op auth ∨ isTerminal (s.store.ops.state op) = false) := by
  by_cases hpc : s'.pc c' = s.pc c'
  · exact Or.inl (h.pending_of_pc hpc hcur hp)
  · obtain rfl : c' = c := h.mover hpc
    rcases Coord.pending_cases hp with hnew | ⟨-, rfl, ⟨hnew, hlive⟩ | hnew⟩
    · cases h with
      | idle => exact absurd rfl hpc
      | localStep a new evs h =>
        rw [goto_pc_self] at hnew
        subst hnew
        generalize s.pc c' = pc at h
        cases h
      | callStep ch rc new h =>
        rw [goto_pc_self] at hnew
        subst hnew
        generalize s.pc c' = pc at h
        generalize (s.call rc).2 = res at h
        cases h
      | dispatchLock ch op' auth' wid target' rest hold hworkers =>
        rw [goto_pc_self] at hnew
        cases hnew
        exact Or.inr ⟨rfl, _, .client ch op auth wid target rest hold hworkers, rfl, Or.inl hold⟩
      | register | marked | markedAgain | lost | saveStart | saveItem | saveEnd =>
        rw [goto_pc_self] at hnew
        cases hnew
      | transferred | recorded => exact absurd hnew (by simp [lostTransfer, lostReport])
    · have hlive' := h.live_of hlive
      have harrives := h.arrives (by rw [hnew]; rfl)
      rw [hnew] at harrives
      rcases harrives with ⟨rfl, -⟩ | ⟨hlocal, -⟩ | ⟨ch, rc, rfl, hcall, hs', -⟩
      · exact absurd rfl hpc
      · generalize s.pc c' = pc at hlocal
        cases hlocal
      · generalize hold : s.pc c' = pc at hcall
        generalize (s.call rc).2 = res at hcall
        cases hcall with
        | redispatch cur drawn _ _ hr =>
          rw [hs'] at hlive' ⊢
          exact Or.inr ⟨rfl, _, .recovery ch cur drawn target hold hr, rfl, Or.inr hlive'⟩
    · rcases h.to_lostSend hnew with ⟨rfl, -⟩ | ⟨hold, hlive, hs'⟩
      · exact absurd rfl hpc
      · left
        rw [hs']
        unfold Coord.pending
        rw [hold]
        exact if_neg (by simp [hlive])

/-- A step calls `dispatch` only to bind an operation for a send. -/
theorem Coord.Moves.binds_of_dispatch {e : AuthorityEnvelope} (h : s.Moves c a s' evs)
    (hcall : .dispatch op e ∈ (callsIn evs).map Prod.fst) :
    ∃ target calls, s.Binds c a op e target calls ∧
      s'.store.ops = registry.run s.store.ops calls ∧
      (isTerminal (s'.store.ops.state op) = false → s'.pending c = some (op, e, target)) := by
  cases h with
  | callStep ch rc new h =>
    obtain rfl : .dispatch op e = rc := by simpa [callsIn] using hcall
    generalize hold : s.pc c = pc at h
    generalize (s.call _).2 = res at h
    cases h with
    | redispatch cur drawn r _ hr =>
      refine ⟨r, _, .recovery ch cur drawn r hold hr, rfl, fun hlive => ?_⟩
      unfold Coord.pending
      rw [goto_pc_self]
      exact if_neg (fun hterm => absurd (hlive.symm.trans hterm) (by simp))
  | dispatchLock ch op' auth wid target rest hold hworkers =>
    obtain ⟨rfl, rfl⟩ : op = op' ∧ e = auth := by simpa [callsIn] using hcall
    refine ⟨target, _, .client ch op e wid target rest hold hworkers, rfl, fun _ => ?_⟩
    rw [Coord.pending, goto_pc_self]
  | localStep a new evs h =>
    generalize s.pc c = pc at h
    cases h <;> exact absurd hcall (by simp [callsIn])
  | idle | register | marked | markedAgain | lost | saveStart | saveItem | saveEnd | transferred
  | recorded => exact absurd hcall (by simp [callsIn, lostTransfer, lostReport])

/-- **Inversion.** The authority of a known operation changes only when the step binds it. -/
theorem Coord.Moves.authority_of (h : s.Moves c a s' evs) (hknown : s.store.ops.has op = true) :
    s'.store.ops.currentAuthority op = s.store.ops.currentAuthority op ∨
      ∃ auth target calls, s.Binds c a op auth target calls ∧
        s'.store.ops = registry.run s.store.ops calls := by
  by_cases hsome : ∃ e, .dispatch op e ∈ (callsIn evs).map Prod.fst
  · obtain ⟨e, he⟩ := hsome
    obtain ⟨target, calls, hbinds, hops, -⟩ := h.binds_of_dispatch he
    exact Or.inr ⟨e, target, calls, hbinds, hops⟩
  · left
    obtain ⟨r, hr⟩ := Option.isSome_iff_exists.mp hknown
    obtain ⟨r', hr', hauth⟩ := authority_run hr (fun e he => hsome ⟨e, he⟩)
    rw [← h.ops_eq.1] at hr'
    rw [OperationRegistry.currentAuthority, OperationRegistry.currentAuthority, hr, hr']
    exact hauth

/-- An operation for which a send is pending is known. -/
theorem Coord.Tracked.pending_known (h : s.Tracked) (hp : s.pending c = some (op, auth, target)) :
    s.store.ops.has op = true := by
  rcases Coord.pending_cases hp with hpc | ⟨hre, rfl, -⟩
  · exact h.dispatching c op (by rw [hpc]; rfl)
  · refine h.current.resolve_right (fun hnone => ?_)
    have hrec := hnone.2 c
    generalize s.pc c = pc at hre hrec
    cases pc <;> simp_all [Pc.redispatches, Pc.recovers]

/-- A binding leaves what `dispatch` makes of the runtime that was there, or was created. -/
theorem Coord.Binds.find (h : s.Binds c a op auth target calls) (htracked : s.Tracked) :
    ∃ r, (s.store.ops.find op = some r ∨
        s.store.ops.find op = none ∧ r = { authority := auth }) ∧
      (registry.run s.store.ops calls).find op = some (r.dispatch auth).1 := by
  have hdispatch : ∀ (reg : OperationRegistry) r, reg.find op = some r →
      (registry.step reg (.dispatch op auth)).1.find op = some (r.dispatch auth).1 :=
    fun reg r hr => registry_find_self reg (c := .dispatch op auth) hr
  cases h with
  | client =>
    have hcreated : (registry.step s.store.ops (.create op auth)).1.find op =
        some ((s.store.ops.find op).getD { authority := auth }) :=
      (OperationRegistry.find_create s.store.ops op op auth).trans (if_pos rfl)
    refine ⟨_, ?_, hdispatch _ _ hcreated⟩
    cases hr : s.store.ops.find op with
    | none => exact Or.inr ⟨rfl, rfl⟩
    | some r => exact Or.inl rfl
  | recovery ch cur drawn r hold =>
    have hknown : s.store.ops.has s.currentOp = true := by
      refine htracked.current.resolve_right (fun hnone => ?_)
      have hrec := hnone.2 c
      rw [hold] at hrec
      exact absurd hrec (by simp [Pc.recovers])
    obtain ⟨rt, hrt⟩ := Option.isSome_iff_exists.mp hknown
    exact ⟨rt, Or.inl hrt, hdispatch _ rt hrt⟩

/-- What a bound operation has for authority: its envelope, unless its outcome is recorded. -/
theorem Coord.Binds.authority (h : s.Binds c a op auth target calls) (htracked : s.Tracked) :
    (s.store.ops.Recorded op → (registry.run s.store.ops calls).currentAuthority op =
        s.store.ops.currentAuthority op) ∧
      (¬ s.store.ops.Recorded op →
        (registry.run s.store.ops calls).currentAuthority op = auth) := by
  refine ⟨?_, fun hopen => ?_⟩
  · rintro ⟨r, hr, hrec⟩
    rw [OperationRegistry.currentAuthority, OperationRegistry.currentAuthority, hr,
      find_run_of_recorded hr hrec]
  · obtain ⟨r, hr, hafter⟩ := h.find htracked
    have hrec : r.terminalRecorded = false := by
      rcases hr with hr | ⟨-, rfl⟩
      · exact OperationRegistry.not_recorded hopen hr
      · rfl
    rw [OperationRegistry.currentAuthority, hafter]
    exact authority_dispatch hrec auth

/-- A thread binds nothing at the first critical section of a loss. -/
theorem Coord.Binds.ne_lostLock (h : s.Binds c a op auth target calls) : s.pc c ≠ .lostLock := by
  cases h with
  | client _ _ _ _ _ _ hpc | recovery _ _ _ _ hpc =>
    rw [hpc]
    simp

/-- A pending send stays pending until it is sent, while the operation is live. -/
theorem Coord.pending_stays (hp : s.pending c = some (op, auth, target))
    (hcur : (s.pc c).redispatches = true → (s.step a).1.currentOp = s.currentOp)
    (hlive : isTerminal ((s.step a).1.store.ops.state op) = false)
    (hsent : ∀ x m, .sent x m ∈ (s.step a).2 → m.type = .DISPATCH → m.op ≠ op) :
    (s.step a).1.pending c = some (op, auth, target) := by
  by_cases hc : c = a.conn
  · subst hc
    have hlive' := (s.step_moves a).live_of hlive
    have hstarted : s.pc a.conn ≠ .unborn ∧ s.pc a.conn ≠ .reading := by
      rcases Coord.pending_cases hp with hold | ⟨-, -, ⟨hold, -⟩ | hold⟩ <;> simp [hold]
    rcases Coord.step_of_started hstarted with hidle | ⟨ch, -, hstep⟩
    · rw [hidle]
      exact hp
    · unfold Coord.advance at hstep
      rcases Coord.pending_cases hp with hold | ⟨-, rfl, ⟨hold, -⟩ | hold⟩
      · rw [hold] at hstep
        exact absurd rfl (hsent target _ (by rw [hstep]; exact List.mem_singleton_self _) rfl)
      · -- the replacement is verified
        rw [hold] at hstep
        dsimp only at hstep
        rw [if_neg (by simp [hlive'])] at hstep
        rw [hstep, Coord.pending, Coord.goto_pc_self]
        rfl
      · rw [hold] at hstep
        exact absurd rfl (hsent target _ (by rw [hstep]; exact List.mem_singleton_self _) rfl)
  · have hpc := (s.step_moves a).pc_of_ne hc
    unfold Coord.pending
    rcases Coord.pending_cases hp with hold | ⟨hre, rfl, ⟨hold, -⟩ | hold⟩
    · rw [hpc, hold]
    · rw [hpc, hold, hcur hre]
      exact if_neg (by simp [hlive])
    · rw [hpc, hold, hcur hre]

end Pending

end FailureFabric
