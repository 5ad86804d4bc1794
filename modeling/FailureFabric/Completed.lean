import FailureFabric.Binding
import FailureFabric.Dispatching
import FailureFabric.Effects

namespace FailureFabric

open Library

/-!
# Recorded completions

The id of an attempt is drawn by the coordinator and sent to one worker.  It works as a token: a
completion is accepted only with the id of the attempt that is bound, and nobody but that worker
has it.  So what the registry records as finished was done, by a worker that was sent the operation
under the very envelope that is recorded.

* `ClusterAction.draws`, `ClusterAction.vouches`, `Unguessed` — no client reports a completion under
  an id that the coordinator draws;
* `Coord.DrawnInv` — the attempts that are bound were drawn, for every operation that was not
  loaded;
* `CompletedInv` — what a client reports is about other attempts, and what is recorded was done;
* `completed_executed` — the result.
-/

/-- The attempt id that a step draws. -/
def ClusterAction.draws : ClusterAction → Option AttemptId
  | coord (.proceed _ ch) => some (.generate ch.drawn)
  | _ => none

/-- The attempt id under which a client reports a completion. -/
def ClusterAction.vouches : ClusterAction → Option AttemptId
  | client _ m => if m.type = .COMPLETE then some m.authority.attempt else none
  | _ => none

/-- No client reports a completion under an attempt id that is drawn in the run. -/
def Unguessed (acts : List ClusterAction) : Prop :=
  ∀ x ∈ acts.filterMap ClusterAction.vouches, x ∉ acts.filterMap ClusterAction.draws

instance (acts : List ClusterAction) : Decidable (Unguessed acts) :=
  inferInstanceAs (Decidable (∀ x ∈ acts.filterMap ClusterAction.vouches, _))

/-! ### What is bound was drawn -/

/-- An operation that was not loaded is bound to a drawn attempt, and so is one that a thread is
    about to create. -/
structure Coord.DrawnInv (known : OperationId → Prop) (drawn : AttemptId → Prop) (s : Coord) :
    Prop where
  asked : ∀ c op auth, s.pc c = .dispatchLock op auth → drawn auth.attempt
  bound : ∀ op r, s.store.ops.find op = some r → known op ∨ drawn r.authority.attempt

section Drawn

variable {known : OperationId → Prop} {drawn : AttemptId → Prop} {s s' : Coord} {a : Action}

/-- Calls that bind only drawn attempts keep the attempts of a registry drawn. -/
theorem bound_run {calls : List RegistryCall} {reg : OperationRegistry}
    (hcalls : ∀ rc ∈ calls, rc.isEvent = false → drawn rc.envelope.attempt)
    (hreg : ∀ op r, reg.find op = some r → known op ∨ drawn r.authority.attempt) :
    ∀ op r, (registry.run reg calls).find op = some r → known op ∨ drawn r.authority.attempt := by
  induction calls generalizing reg with
  | nil => exact hreg
  | cons rc calls ih =>
    refine ih (fun rc' h => hcalls rc' (List.mem_cons_of_mem _ h)) (fun op r' hr' => ?_)
    have hrc := hcalls rc List.mem_cons_self
    rcases find_of_step hr' with hold | ⟨-, e, rfl, rfl⟩ | ⟨r, hr, -, -, heff⟩
    · exact hreg op r' hold
    · exact Or.inr (hrc rfl)
    · rcases heff.authority_eq with hauth | ⟨hdispatch, -, hauth⟩
      · rw [hauth]
        exact hreg op r hr
      · rw [hauth]
        exact Or.inr (hrc (by rw [hdispatch]; rfl))

/-- A thread that is about to dispatch for a client handles its request. -/
theorem Coord.Moves.to_dispatchLock {c : ConnId} {evs : List Event} {op : OperationId}
    {auth : AuthorityEnvelope} (h : s.Moves c a s' evs) (hpc : s'.pc c = .dispatchLock op auth) :
    s.pc c = .dispatchLock op auth ∨ ∃ m, s.pc c = .handle m := by
  cases h with
  | idle => exact Or.inl hpc
  | localStep a new evs hlocal =>
    rw [goto_pc_self] at hpc
    subst hpc
    generalize s.pc c = pc at hlocal
    cases hlocal with
    | asked m => exact Or.inr ⟨m, rfl⟩
  | callStep ch rc new hcall =>
    rw [goto_pc_self] at hpc
    subst hpc
    generalize s.pc _ = pc at hcall
    generalize (s.call rc).2 = res at hcall
    cases hcall
  | register | dispatchLock | marked | markedAgain | lost | saveStart | saveItem | saveEnd =>
    rw [goto_pc_self] at hpc
    cases hpc
  | transferred | recorded => simp [lostTransfer, lostReport] at hpc

/-- Only a request is dispatched, and it is given an attempt that is drawn in the step. -/
theorem Coord.asked_drawn {op : OperationId} {auth : AuthorityEnvelope}
    (hpc : (s.step a).1.pc a.conn = .dispatchLock op auth) :
    s.pc a.conn = .dispatchLock op auth ∨
      ∃ ch m, a = .proceed a.conn ch ∧ auth.attempt = .generate ch.drawn ∧
        s.pc a.conn = .handle m ∧ m.type = .DISPATCH ∧ m.op = op := by
  rcases (s.step_moves a).to_dispatchLock hpc with hold | ⟨m, hold⟩
  · exact Or.inl hold
  · rcases step_of_started (s := s) (a := a) (by rw [hold]; simp) with hidle | ⟨ch, ha, hstep⟩
    · rw [hidle] at hpc
      exact Or.inl hpc
    · rw [hstep, advance, hold] at hpc
      dsimp only [handleMessage] at hpc
      split at hpc <;> rw [goto_pc_self] at hpc
      · cases hpc
      · next htype =>
        obtain ⟨rfl, rfl⟩ := Pc.dispatchLock.inj hpc
        exact Or.inr ⟨ch, m, ha, rfl, hold, htype, rfl⟩
      · cases hpc
      · split_ifs at hpc
      · cases hpc
      · cases hpc

/-- Two threads bind: one that dispatches for a client, and one that recovers. -/
theorem Coord.Moves.binds_at {c : ConnId} {evs : List Event} {rc : RegistryCall}
    (h : s.Moves c a s' evs) (hrc : rc ∈ (callsIn evs).map Prod.fst)
    (hbinds : rc.isEvent = false) :
    s.pc c = .dispatchLock rc.op rc.envelope ∨ ∃ cur, s.pc c = .lostChoose cur := by
  cases h with
  | idle | register | marked | markedAgain | lost | saveStart | saveItem | saveEnd => cases hrc
  | localStep a new evs hlocal =>
    generalize s.pc c = pc at hlocal
    cases hlocal <;> cases hrc
  | callStep ch rc' new hcall =>
    obtain rfl : rc = rc' := List.mem_singleton.mp hrc
    generalize s.pc c = pc at hcall
    generalize (s.call rc).2 = res at hcall
    cases hcall with
    | redispatch cur => exact Or.inr ⟨cur, rfl⟩
    | running | failure | reported | notReported | started | confirm => cases hbinds
  | dispatchLock ch op auth wid target rest hold =>
    left
    rcases List.mem_cons.mp hrc with rfl | hrc
    · exact hold
    · obtain rfl := List.mem_singleton.mp hrc
      exact hold
  | transferred a ch => cases hrc
  | recorded a ch cur b =>
    obtain rfl := List.mem_singleton.mp hrc
    cases hbinds

/-- What a step binds is an attempt that a thread had at hand, or one that is drawn in the step. -/
theorem Coord.binds_drawn {rc : RegistryCall}
    (hrc : rc ∈ (callsIn (s.step a).2).map Prod.fst) (hbinds : rc.isEvent = false) :
    s.pc a.conn = .dispatchLock rc.op rc.envelope ∨
      ∃ ch, a = .proceed a.conn ch ∧ rc.envelope.attempt = .generate ch.drawn := by
  rcases (s.step_moves a).binds_at hrc hbinds with hold | ⟨cur, hold⟩
  · exact Or.inl hold
  · rcases step_of_started (s := s) (a := a) (by rw [hold]; simp) with hidle | ⟨ch, ha, hstep⟩
    · rw [hidle] at hrc
      cases hrc
    · refine Or.inr ⟨ch, ha, ?_⟩
      rw [hstep, advance, hold] at hrc
      dsimp only [lostChoose] at hrc
      split at hrc
      · cases hrc
      · obtain rfl := List.mem_singleton.mp hrc
        rfl

/-- **Step lemma.** A step that draws for the run keeps what is bound drawn. -/
theorem Coord.DrawnInv.step (inv : s.DrawnInv known drawn)
    (hdraws : ∀ c ch, a = .proceed c ch → drawn (.generate ch.drawn)) :
    (s.step a).1.DrawnInv known drawn where
  asked := by
    intro c op auth hpc
    by_cases hc : c = a.conn
    · subst hc
      rcases asked_drawn hpc with hold | ⟨ch, -, ha, hauth, -⟩
      · exact inv.asked _ op auth hold
      · rw [hauth]
        exact hdraws _ ch ha
    · rw [(s.step_moves a).pc_of_ne hc] at hpc
      exact inv.asked c op auth hpc
  bound := by
    rw [(s.step_moves a).ops_eq.1]
    refine bound_run (fun rc hrc hbinds => ?_) inv.bound
    rcases binds_drawn hrc hbinds with hold | ⟨ch, ha, hauth⟩
    · exact inv.asked _ rc.op rc.envelope hold
    · rw [hauth]
      exact hdraws _ ch ha

end Drawn

/-! ### What is recorded was done -/

namespace Coord.Moves

variable {s s' : Coord} {c : ConnId} {a : Action} {evs : List Event} {op : OperationId}

/-- A thread that is about to confirm makes that call, or does not move. -/
theorem confirms {e : AuthorityEnvelope} (h : s.Moves c a s' evs)
    (hpc : s.pc c = .completeConfirm op e) :
    s' = s ∨ evs = [.applied (.confirmCompletion op e) (s.call (.confirmCompletion op e)).2] := by
  cases h with
  | idle => exact Or.inl rfl
  | localStep a new evs hlocal =>
    rw [hpc] at hlocal
    cases hlocal
  | callStep ch rc new hcall =>
    rw [hpc] at hcall
    generalize hres : (s.call rc).2 = res at hcall
    cases hcall
    exact Or.inr (by rw [hres])
  | register a m wid order hold | dispatchLock ch op auth wid target rest hold
  | marked ch op auth target hold | markedAgain a r hold | lost a hold | saveStart ch op o hold
  | saveItem a item todo hold | saveEnd a hold | transferred a ch hold | recorded a ch cur b hold =>
    rw [hpc] at hold
    cases hold

/-- The step that records the outcome of an operation confirms a completion, under an envelope that
    names the attempt that is bound. -/
theorem records_under (h : s.Moves c a s' evs) (hnot : ¬ s.store.ops.Recorded op)
    (hrec : s'.store.ops.Recorded op) :
    ∃ e r, s.pc c = .completeConfirm op e ∧ s.store.ops.find op = some r ∧
      (r.authority.attempt.isNull = false → e.attempt = r.authority.attempt) ∧
      s'.store.ops.ConfirmedWith op e ∧ .applied (.confirmCompletion op e) .OK ∈ evs := by
  rcases h.outcome_eq_none with hnone | ⟨ch, op', e, rfl, hold, hops⟩
  · rw [h.ops_eq.1] at hrec
    exact absurd hrec (not_recorded_run hnone hnot)
  · obtain ⟨hC, -, ch', e', -, hold'⟩ := h.records hnot hrec
    obtain ⟨rfl, rfl⟩ := Pc.completeConfirm.inj (hold.symm.trans hold')
    have hevs := (h.confirms hold).resolve_left (fun hsame => hnot (hsame ▸ hrec))
    rw [hops] at hrec ⊢
    obtain ⟨r, r', hr, hopen, hrec', -, heff⟩ := recorded_step hnot hrec
    obtain ⟨hfenced, -⟩ := heff.records hopen hrec'
    refine ⟨e, r, hold, hr, hfenced.current.1, (confirms_of_confirmStands hold hC).2, ?_⟩
    rw [hevs, call_result, heff.ok_of_records hopen hrec']
    exact List.mem_singleton_self _

end Coord.Moves

/-- What a client vouches for is under no attempt that is drawn, and what is recorded of an
    operation that was not loaded was done. -/
structure CompletedInv (known : OperationId → Prop) (drawn : AttemptId → Prop) (s : Cluster)
    (t : List ClusterEvent) : Prop where
  work : WorkInv s t
  bound : s.coord.DrawnInv known drawn
  vouched : ∀ c, s.worker c = none → ∀ m ∈ s.toCoord c, m.type = .COMPLETE →
    ¬ drawn m.authority.attempt
  handled : ∀ c m, s.worker c = none → s.coord.pc c = .handle m → m.type = .COMPLETE →
    ¬ drawn m.authority.attempt
  confirmed : ∀ c op e, s.worker c = none → s.coord.pc c = .completeConfirm op e →
    ¬ drawn e.attempt
  recorded : ∀ op r, s.coord.store.ops.find op = some r → r.terminalRecorded = true →
    known op ∨ ∃ c d, Executed t c d ∧ d.IsFor op r.terminal

section Completed

variable {known : OperationId → Prop} {drawn : AttemptId → Prop} {s : Cluster}
  {t : List ClusterEvent}

theorem completedInv_boot (file : Option (List UInt8)) :
    CompletedInv (fun op => (Cluster.boot file).coord.store.ops.find op ≠ none) drawn
      (.boot file) [] where
  work := workInv_boot file
  bound := ⟨fun _ _ _ h => (by cases h), fun op r hr => Or.inl (by rw [hr]; simp)⟩
  vouched := fun _ _ _ h => by cases h
  handled := fun _ _ _ h => by cases h
  confirmed := fun _ _ _ _ h => by cases h
  recorded := fun op r hr _ => Or.inl (by rw [hr]; simp)

/-- What a step of the coordinator records was done: a client's completion is about an attempt that
    is not bound, and a worker's goes back to its side effect. -/
theorem CompletedInv.recorded_coordStep (inv : CompletedInv known drawn s t)
    (hnull : ∀ x, drawn x → x.isNull = false) (a : Action) {op : OperationId}
    {r : OperationRuntime} (hr : (s.coord.step a).1.store.ops.find op = some r)
    (hrec : r.terminalRecorded = true) :
    known op ∨ ∃ c d, Executed t c d ∧ d.IsFor op r.terminal := by
  have hmoves := s.coord.step_moves a
  by_cases hold : s.coord.store.ops.Recorded op
  · obtain ⟨r₀, hr₀, hrec₀⟩ := hold
    obtain rfl : r₀ = r := Option.some.inj ((hmoves.find_of_recorded hr₀ hrec₀).symm.trans hr)
    exact inv.recorded op r₀ hr₀ hrec₀
  · obtain ⟨e, r₀, hpc, hr₀, hattempt, ⟨r₁, hr₁, -, -, hterminal⟩, -⟩ :=
      hmoves.records_under hold ⟨r, hr, hrec⟩
    obtain rfl : r₁ = r := Option.some.inj (hr₁.symm.trans hr)
    rcases inv.bound.bound op r₀ hr₀ with hknown | hdrawn
    · exact Or.inl hknown
    · right
      have hworker : s.worker a.conn ≠ none := by
        intro hnone
        refine inv.confirmed _ op e hnone hpc ?_
        rw [hattempt (hnull _ hdrawn)]
        exact hdrawn
      obtain ⟨d, hd, hfor⟩ := inv.work.answered _ op e hworker (Or.inl hpc)
      exact ⟨a.conn, d, hd, by rw [hterminal]; exact hfor⟩

/-- **Step lemma, coordinator.** A step that draws for the run, and receives from a client only
    what the client may vouch for, keeps the invariant. -/
theorem CompletedInv.coordStep (inv : CompletedInv known drawn s t)
    (hnull : ∀ x, drawn x → x.isNull = false) (a : Action)
    (hdraws : ∀ c ch, a = .proceed c ch → drawn (.generate ch.drawn))
    (hgenuine : ∀ c m, .received c m ∈ (s.coord.step a).2 → s.worker c ≠ none → Genuine t c m)
    (hreceived : ∀ c m, .received c m ∈ (s.coord.step a).2 → s.worker c = none →
      m.type = .COMPLETE → ¬ drawn m.authority.attempt) :
    CompletedInv known drawn (s.coordStep a).1 (t ++ (s.coordStep a).2) where
  work := inv.work.coordStep a hgenuine
  bound := inv.bound.step hdraws
  vouched := inv.vouched
  handled := by
    intro c m hnone hpc htype
    have hmoves := s.coord.step_moves a
    by_cases hc : c = a.conn
    · subst hc
      rcases hmoves.to_handle hpc with ⟨hs', -⟩ | hevs
      · exact inv.handled _ m hnone (by rw [← hs']; exact hpc) htype
      · exact hreceived _ m (by rw [hevs]; exact List.mem_singleton_self _) hnone htype
    · exact inv.handled c m hnone (by rw [← hmoves.pc_of_ne hc]; exact hpc) htype
  confirmed := by
    intro c op e hnone hpc
    have hmoves := s.coord.step_moves a
    by_cases hc : c = a.conn
    · subst hc
      rcases hmoves.to_completeConfirm hpc with ⟨hs', -⟩ | ⟨m, hm, htype, -, rfl, -⟩
      · exact inv.confirmed _ op e hnone (by rw [← hs']; exact hpc)
      · exact inv.handled _ m hnone hm htype
    · exact inv.confirmed c op e hnone (by rw [← hmoves.pc_of_ne hc]; exact hpc)
  recorded := fun op r hr hrec => (inv.recorded_coordStep hnull a hr hrec).imp id
    (fun ⟨c, d, hd, hfor⟩ => ⟨c, d, hd.mono, hfor⟩)

/-- **Step lemma, worker.** A worker's step leaves the coordinator and the clients alone. -/
theorem CompletedInv.workerStep (inv : CompletedInv known drawn s t) {c : ConnId} {w : Worker}
    {evs : List WorkerEvent}
    (hwork : WorkInv (s.workerStep c w evs).1 (t ++ (s.workerStep c w evs).2)) :
    CompletedInv known drawn (s.workerStep c w evs).1 (t ++ (s.workerStep c w evs).2) := by
  have hne : ∀ {c'}, (s.workerStep c w evs).1.worker c' = none → c' ≠ c := by
    rintro c' hnone rfl
    rw [Cluster.workerStep_worker] at hnone
    cases hnone
  have hold : ∀ {c'}, (s.workerStep c w evs).1.worker c' = none → s.worker c' = none :=
    fun hnone => by rwa [Cluster.workerStep_worker_of_ne (hne hnone)] at hnone
  exact {
    work := hwork
    bound := inv.bound
    vouched := fun c' hnone m hm => inv.vouched c' (hold hnone) m
      (by rwa [Cluster.workerStep_toCoord_of_ne (hne hnone)] at hm)
    handled := fun c' m hnone => inv.handled c' m (hold hnone)
    confirmed := fun c' op e hnone => inv.confirmed c' op e (hold hnone)
    recorded := fun op r hr hrec => (inv.recorded op r hr hrec).imp id
      (fun ⟨c, d, hd, hfor⟩ => ⟨c, d, hd.mono, hfor⟩) }

/-- **Step lemma.** A step of the cluster that draws for the run, and vouches for nothing that is
    drawn in it, keeps the invariant. -/
theorem CompletedInv.step (inv : CompletedInv known drawn s t)
    (hnull : ∀ x, drawn x → x.isNull = false) (a : ClusterAction)
    (hdraws : ∀ x, a.draws = some x → drawn x) (hvouches : ∀ x, a.vouches = some x → ¬ drawn x) :
    CompletedInv known drawn (s.step a).1 (t ++ (s.step a).2) := by
  have hmoves := s.step_moves a
  have hwork := inv.work.step a
  generalize (s.step a).1 = s', (s.step a).2 = evs at hmoves hwork ⊢
  cases hmoves with
  | idle =>
    rw [List.append_nil]
    exact inv
  | received c m rest hpc hqueue =>
    have hfirst : m ∈ s.toCoord c := by rw [hqueue]; exact List.mem_cons_self
    have hpopped : CompletedInv known drawn
        { s with toCoord := Function.update s.toCoord c rest } t :=
      { inv with
        work := inv.work.popCoord hqueue
        vouched := fun c' hnone m' hm => inv.vouched c' hnone m' (mem_of_mem_pop hqueue hm) }
    refine hpopped.coordStep hnull _ (fun _ _ h => by cases h) ?_ ?_
    · intro c' m' hev hw
      obtain ⟨rfl, rfl⟩ := Action.receive.inj (Coord.receive_of_received hev)
      exact inv.work.reported _ _ hw hfirst
    · intro c' m' hev hnone
      obtain ⟨rfl, rfl⟩ := Action.receive.inj (Coord.receive_of_received hev)
      exact inv.vouched _ hnone _ hfirst
  | coord a ha =>
    refine inv.coordStep hnull a ?_ ?_ ?_
    · rintro c ch rfl
      exact hdraws _ rfl
    · exact fun c m hev => absurd (Coord.receive_of_received hev) (ha c m)
    · exact fun c m hev => absurd (Coord.receive_of_received hev) (ha c m)
  | start | own => exact inv.workerStep hwork
  | deliver c w pc m rest hw hqueue =>
    exact CompletedInv.workerStep { inv with work := inv.work.popPeer hqueue } hwork
  | client c m hw =>
    rw [List.append_nil] at hwork ⊢
    refine { inv with work := hwork, vouched := fun c' hnone m' hm htype => ?_ }
    by_cases hc : c' = c
    · subst hc
      dsimp only at hm
      rw [Function.update_self] at hm
      rcases List.mem_append.mp hm with hm | hm
      · exact inv.vouched _ hnone m' hm htype
      · obtain rfl := List.mem_singleton.mp hm
        exact hvouches _ (if_pos htype)
    · dsimp only at hm
      rw [Function.update_of_ne hc] at hm
      exact inv.vouched c' hnone m' hm htype

/-- **What is recorded as completed was done.** Whatever the workers, the clients and the losses
    do: if no client reports a completion under an attempt id that it cannot know, every recorded
    outcome, of an operation that was not loaded from the state file, is that of a worker that was
    sent the operation under the recorded envelope and has gone through the side effect. -/
theorem completed_executed (file : Option (List UInt8)) (acts : List ClusterAction)
    (hguess : Unguessed acts) {op : OperationId} {r : OperationRuntime}
    (hnew : (Cluster.boot file).coord.store.ops.find op = none)
    (hr : (cluster.run (.boot file) acts).coord.store.ops.find op = some r)
    (hrec : r.terminalRecorded = true) :
    ∃ c d, Executed ((Cluster.boot file).trace acts) c d ∧ d.IsFor op r.terminal := by
  have hnull : ∀ x ∈ acts.filterMap ClusterAction.draws, x.isNull = false := by
    intro x hx
    obtain ⟨a, -, hdraw⟩ := List.mem_filterMap.mp hx
    unfold ClusterAction.draws at hdraw
    split at hdraw
    · obtain rfl := Option.some.inj hdraw
      exact Id.generate_isNull _
    · cases hdraw
  have inv := Machine.trace_induction (M := cluster)
    (C := fun _ a => a ∈ acts)
    (P := CompletedInv _ (· ∈ acts.filterMap ClusterAction.draws))
    (fun s a t ha inv => inv.step hnull a
      (fun x hx => List.mem_filterMap.mpr ⟨a, ha, hx⟩)
      (fun x hx => hguess x (List.mem_filterMap.mpr ⟨a, ha, hx⟩)))
    (completedInv_boot file)
    (Machine.always_iff.mpr fun pre a post (hsplit : acts = _) => by rw [hsplit]; simp)
  exact (inv.recorded op r hr hrec).resolve_left (fun h => h hnew)

theorem completed_executed_workedRun :
    ∃ c d, Executed ((Cluster.boot none).trace workedRun) c d ∧ d.IsFor sampleOp sampleAuthority :=
  completed_executed none workedRun (by decide) (r := {
      machine := ⟨.COMPLETION_CONFIRMED⟩, authority := sampleAuthority,
      terminal := sampleAuthority, terminalRecorded := true, attemptCount := 1,
      terminalOutcome := completedText }) rfl (by decide) rfl

end Completed

end FailureFabric
