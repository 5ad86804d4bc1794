import FailureFabric.Ownership
import FailureFabric.InFlight
import FailureFabric.Readback

namespace FailureFabric

open Library

/-!
# The log of losses

The thread of a lost connection appends a record and reports the failure in one critical section.
The append does not look at the registry, and the report may be refused.

* `LogAgrees` — what is appended is also reported, and accepted; nothing is appended for an
  operation that has failed or finished under the same attempt;
* `reportStands` — the condition on a step under which a report that follows an append is accepted;
* `reportFailure_ok_iff` — what `report_failure` checks;
* `log_agrees_iff` — the log agrees with the registry exactly in the runs whose steps all meet the
  condition.
-/

/-- No failure and no outcome of the operation was reported: it may still fail ambiguously. -/
def OperationState.undecided : OperationState → Bool
  | CREATED | DISPATCHED | RUNNING | COMPLETION_REPORTED | RETRYING => true
  | _ => false

/-- The operation is over under its attempt: its failure is known, or its state is terminal. -/
def OperationState.settled (s : OperationState) : Bool := s = .FAILED_KNOWN || isTerminal s

/-- The operation is known and undecided, and the envelope is not fenced. -/
def OperationRegistry.Undecided (reg : OperationRegistry) (op : OperationId)
    (cur : AuthorityEnvelope) : Prop :=
  ∃ r, reg.find op = some r ∧ r.terminalRecorded = false ∧ r.machine.state.undecided = true ∧
    (fenceFailure cur r.authority).accepted = true

/-- A record that the step appends is of an operation whose failure the step reports, which is
    accepted, and leaves the operation in `FAILED_AMBIGUOUS`. -/
def AppendAgrees (s : Coord) (a : Action) : Prop :=
  ∀ rec, .appended rec true ∈ (s.step a).2 →
    .applied (.reportFailure rec.operation rec.authority true) .OK ∈ (s.step a).2 ∧
      (s.step a).1.store.ops.state rec.operation = .FAILED_AMBIGUOUS

/-- The log and the registry tell the same story in the run. -/
structure LogAgrees (s₀ : Coord) (acts : List Action) : Prop where
  reported : ∀ pre a post, acts = pre ++ a :: post → AppendAgrees (coordinator.run s₀ pre) a
  /-- Nothing is appended for an operation that was over, and not dispatched since. -/
  settled : ∀ pre mid a post op, acts = pre ++ mid ++ a :: post →
    ((coordinator.run s₀ pre).store.ops.state op).settled = true →
    (∀ e res, .applied (.dispatch op e) res ∉ (coordinator.run s₀ pre).trace mid) →
    ∀ rec, .appended rec true ∈ ((coordinator.run s₀ (pre ++ mid)).step a).2 → rec.operation ≠ op

/-- If the record of the loss is admitted, it is of the operation that is reported, and that one is
    undecided. -/
def reportStands (s : Coord) : Action → Prop
  | .proceed c ch =>
    match s.pc c with
    | .lostReport cur b => s.holder = none →
        admitsFailure s.store (b.build ch.drawn) = true →
          b.r.operation = s.currentOp ∧ s.store.ops.Undecided s.currentOp cur
    | _ => True
  | _ => True

/-! ### The report -/

/-- The undecided states are those that allow an ambiguous failure. -/
theorem isAllowed_ambiguous (s : OperationState) : isAllowed s .FAILED_AMBIGUOUS = s.undecided := by
  cases s with
  | unnamed code unnamed_le =>
    have hrange : 20 ≤ code.toNat := UInt32.le_iff_toNat_le.mp unnamed_le
    unfold isAllowed
    simp [OperationState.code, hrange, OperationState.undecided]
  | _ => decide

theorem OperationState.settled_of_undecided {s : OperationState} (h : s.undecided = true) :
    s.settled = false := by
  cases s <;> first | rfl | cases h

/-- What `report_failure` checks of a runtime, for an ambiguous failure. -/
theorem OperationRuntime.reportFailure_ok_iff (r : OperationRuntime) (e : AuthorityEnvelope) :
    (r.reportFailure e true).2 = .OK ↔ r.terminalRecorded = false ∧
      r.machine.state.undecided = true ∧ (fenceFailure e r.authority).accepted = true := by
  unfold OperationRuntime.reportFailure OperationStateMachine.transition
  rw [if_pos rfl, isAllowed_ambiguous]
  cases r.terminalRecorded <;> cases (fenceFailure e r.authority).accepted <;>
    cases r.machine.state.undecided <;> simp

/-- And what it leaves. -/
theorem OperationRuntime.reportFailure_ok {r : OperationRuntime} {e : AuthorityEnvelope}
    (h : (r.reportFailure e true).2 = .OK) :
    (r.reportFailure e true).1.machine.state = .FAILED_AMBIGUOUS := by
  obtain ⟨hopen, hundecided, hfence⟩ := (r.reportFailure_ok_iff e).mp h
  unfold OperationRuntime.reportFailure OperationStateMachine.transition
  rw [if_pos rfl, isAllowed_ambiguous, hopen, hundecided, hfence]
  rfl

/-- `report_failure` accepts an ambiguous failure of an undecided operation, and of no other. -/
theorem reportFailure_ok_iff (reg : OperationRegistry) (op : OperationId) (e : AuthorityEnvelope) :
    (registry.step reg (.reportFailure op e true)).2 = .OK ↔ reg.Undecided op e := by
  rw [registry_step_result]
  show (RegistryCall.onFound _ (reg.find op)).2 = .OK ↔ _
  unfold OperationRegistry.Undecided
  cases hr : reg.find op with
  | none => simp [RegistryCall.onFound, RegistryCall.onUnknown]
  | some r =>
    simp only [Option.some.injEq, exists_eq_left']
    exact r.reportFailure_ok_iff e

theorem state_of_reportFailure {reg : OperationRegistry} {op : OperationId}
    {e : AuthorityEnvelope} (h : (registry.step reg (.reportFailure op e true)).2 = .OK) :
    (registry.step reg (.reportFailure op e true)).1.state op = .FAILED_AMBIGUOUS := by
  obtain ⟨r, hr, hchecks⟩ := (reportFailure_ok_iff reg op e).mp h
  have hafter : (registry.step reg (.reportFailure op e true)).1.find op =
      some (r.reportFailure e true).1 :=
    registry_find_self reg (c := .reportFailure op e true) hr
  rw [OperationRegistry.state, hafter]
  exact OperationRuntime.reportFailure_ok ((r.reportFailure_ok_iff e).mpr hchecks)

/-! ### The append -/

section Append

variable {s s' : Coord} {c : ConnId} {a : Action} {evs : List Event}

/-- The record that the thread has begun is of a loss under the authority that it read. -/
def Coord.Begun (s : Coord) : Prop :=
  ∀ c cur b, s.pc c = .lostReport cur b → ∃ s' : Coord, ∃ now, b = s'.lossRecord cur now

theorem Coord.Begun.step (hbegun : s.Begun) (h : s.Moves c a s' evs) : s'.Begun := by
  intro c' cur b hpc
  by_cases hc : c' = c
  · subst hc
    cases h with
    | idle => exact hbegun c' cur b hpc
    | localStep a new evs h =>
      rw [goto_pc_self] at hpc
      subst hpc
      generalize s.pc c' = pc at h
      cases h with
      | built cur now => exact ⟨s, now, rfl⟩
    | callStep ch rc new h =>
      rw [goto_pc_self] at hpc
      subst hpc
      generalize s.pc c' = pc at h
      generalize (s.call rc).2 = res at h
      cases h
    | register | dispatchLock | marked | markedAgain | lost | saveStart | saveItem | saveEnd =>
      rw [goto_pc_self] at hpc
      cases hpc
    | transferred | recorded => exact absurd hpc (by simp [lostTransfer, lostReport])
  · rw [h.pc_of_ne hc] at hpc
    exact hbegun c' cur b hpc

theorem begun_run (file : Option (List UInt8)) (acts : List Action) :
    (coordinator.run (.boot file) acts).Begun :=
  Machine.run_induction (M := coordinator) (fun s a hbegun => hbegun.step (s.step_moves a))
    (fun _ _ _ h => by cases h) acts

/-- Only the report of a loss appends. -/
theorem Coord.Moves.appended_of {rec : FailureRecord} {ok : Bool} (h : s.Moves c a s' evs)
    (hev : .appended rec ok ∈ evs) : ∃ cur b, s.pc c = .lostReport cur b := by
  cases h with
  | recorded a ch cur b hold => exact ⟨cur, b, hold⟩
  | localStep a new evs h =>
    generalize s.pc c = pc at h
    cases h <;> simp at hev
  | idle | callStep | register | dispatchLock | marked | markedAgain | lost | saveStart | saveItem
  | saveEnd => simp at hev
  | transferred a ch => simp [lostTransfer] at hev

/-- The critical section of the report appends, and then reports, whatever comes of the append. -/
theorem step_lostReport (ch : Choice) {cur : AuthorityEnvelope} {b : FailureRecordBuilder}
    (hpc : s.pc c = .lostReport cur b) (hfree : s.holder = none) :
    (s.step (.proceed c ch)).2 =
        [.appended (b.build ch.drawn) (admitsFailure s.store (b.build ch.drawn)),
          .applied (.reportFailure s.currentOp cur true)
            (registry.step s.store.ops (.reportFailure s.currentOp cur true)).2] ∧
      (s.step (.proceed c ch)).1.store.ops =
        (registry.step s.store.ops (.reportFailure s.currentOp cur true)).1 := by
  have hstep : s.step (.proceed c ch) = s.lostReport c cur b ch := by
    dsimp only [Coord.step]
    rw [if_neg (by rw [hfree]; simp), Coord.advance, hpc]
  have hops : (s.store.appendFailure (b.build ch.drawn)).1.ops = s.store.ops := by
    rw [FailureStore.appendFailure_eq]
  rw [hstep, ← appendFailure_result, ← hops]
  exact ⟨rfl, rfl⟩

/-- **Inversion.** A step that appends is that critical section. -/
theorem step_of_appended {rec : FailureRecord} {ok : Bool}
    (hev : .appended rec ok ∈ (s.step a).2) : ∃ c ch cur b, a = .proceed c ch ∧
      s.pc c = .lostReport cur b ∧ s.holder = none ∧ rec = b.build ch.drawn ∧
      ok = admitsFailure s.store (b.build ch.drawn) := by
  obtain ⟨cur, b, hpc⟩ := (s.step_moves a).appended_of hev
  rcases Coord.step_of_needsLock (s := s) (a := a) (by rw [hpc]; rfl) with
    hidle | ⟨hfree, ch, ha, -⟩
  · rw [hidle] at hev
    cases hev
  · rw [ha, (step_lostReport ch hpc hfree).1] at hev
    obtain ⟨hrec, hok⟩ : rec = b.build ch.drawn ∧
        ok = admitsFailure s.store (b.build ch.drawn) := by simpa using hev
    exact ⟨a.conn, ch, cur, b, ha, hpc, hfree, hrec, hok⟩

/-- What is appended, and reported as it should be, is of the current operation, and that one is
    undecided. -/
theorem AppendAgrees.undecided {ch : Choice} {cur : AuthorityEnvelope} {b : FailureRecordBuilder}
    (h : AppendAgrees s (.proceed c ch)) (hpc : s.pc c = .lostReport cur b)
    (hfree : s.holder = none) (hadmits : admitsFailure s.store (b.build ch.drawn) = true) :
    (b.build ch.drawn).operation = s.currentOp ∧ s.store.ops.Undecided s.currentOp cur := by
  obtain ⟨hevs, -⟩ := step_lostReport ch hpc hfree
  obtain ⟨hreported, -⟩ := h (b.build ch.drawn) (by
    rw [hevs, hadmits]
    exact List.mem_cons_self)
  rw [hevs] at hreported
  obtain ⟨⟨hop, -⟩, hok⟩ : ((b.build ch.drawn).operation = s.currentOp ∧
      (b.build ch.drawn).authority = cur) ∧
      .OK = (registry.step s.store.ops (.reportFailure s.currentOp cur true)).2 := by
    simpa using hreported
  exact ⟨hop, (reportFailure_ok_iff _ _ _).mp hok.symm⟩

/-- **The exact condition.** What a step appends is also reported and accepted exactly when the
    step meets the condition. -/
theorem appendAgrees_iff (hbegun : s.Begun) : AppendAgrees s a ↔ reportStands s a := by
  constructor
  · intro hagrees
    cases a with
    | accept | receive | disconnect => trivial
    | proceed c ch =>
      dsimp only [reportStands]
      split
      · next cur b hpc => exact hagrees.undecided hpc
      · trivial
  · intro hC rec hev
    obtain ⟨c, ch, cur, b, rfl, hpc, hfree, rfl, hadmits⟩ := step_of_appended hev
    simp only [reportStands, hpc] at hC
    obtain ⟨hop, hundecided⟩ := hC hfree hadmits.symm
    have hok := (reportFailure_ok_iff _ _ _).mpr hundecided
    obtain ⟨s', now, rfl⟩ := hbegun c cur b hpc
    have hcurrent : ((s'.lossRecord cur now).build ch.drawn).operation = s.currentOp := hop
    obtain ⟨hevs, hops⟩ := step_lostReport ch hpc hfree
    rw [hevs, hops, hcurrent]
    refine ⟨?_, state_of_reportFailure hok⟩
    rw [hok]
    exact List.mem_cons_of_mem _ List.mem_cons_self

/-- A record that is appended and reported is of an operation that was not over. -/
theorem AppendAgrees.not_settled (h : AppendAgrees s a) {rec : FailureRecord}
    (hev : .appended rec true ∈ (s.step a).2) :
    (s.store.ops.state rec.operation).settled = false := by
  obtain ⟨c, ch, cur, b, rfl, hpc, hfree, rfl, hadmits⟩ := step_of_appended hev
  obtain ⟨hop, r, hr, -, hundecided, -⟩ := h.undecided hpc hfree hadmits.symm
  rw [hop, OperationRegistry.state, hr]
  exact OperationState.settled_of_undecided hundecided

end Append

/-! ### Operations that are over -/

/-- A plain call moves no operation on that is over. -/
theorem RegistryCall.settled_target {c : RegistryCall} (hc : c.plain = true)
    {src dst : OperationState} (hsrc : src.settled = true) (hdst : dst ∈ c.targets) :
    isAllowed src dst = false := by
  simp only [OperationState.settled, Bool.or_eq_true, decide_eq_true_eq] at hsrc
  rcases hsrc with rfl | hterminal
  · cases c with
    | transition | recordTerminal => exact absurd hc (by simp [plain])
    | create | dispatch => exact absurd hdst List.not_mem_nil
    | run | confirmCompletion | reportCompletion _ _ p | reportFailure _ _ p =>
      obtain rfl := List.mem_singleton.mp hdst
      first | decide | (cases p <;> decide)
  · exact isAllowed_of_isTerminal hterminal dst

theorem RegistryCall.Effect.settled_of {c : RegistryCall} {r r' : OperationRuntime}
    {res : ApplyResult} (h : c.Effect r r' res) (hc : c.plain = true)
    (hnone : ∀ op, c ≠ .dispatch op c.envelope) (hr : r.machine.state.settled = true) :
    r'.machine.state.settled = true := by
  cases h with
  | refused | repeated => exact hr
  | rebound hcall | dispatched hcall =>
    obtain ⟨op, hop⟩ := hcall
    exact absurd hop (hnone op)
  | advanced dst _ _ _ hallowed htarget | recorded dst _ _ _ _ hallowed _ htarget =>
    rw [RegistryCall.settled_target hc hr htarget] at hallowed
    cases hallowed

/-- The coordinator makes plain calls only. -/
theorem Coord.plain_trace (s : Coord) (acts : List Action) :
    ∀ rc ∈ (Coord.callsIn (s.trace acts)).map Prod.fst, rc.plain = true := by
  induction acts generalizing s with
  | nil => exact fun rc h => absurd h List.not_mem_nil
  | cons a acts ih =>
    rw [Coord.callsIn_trace_cons, List.map_append]
    intro rc hrc
    rcases List.mem_append.mp hrc with hstep | hrest
    · exact (s.step_moves a).plain rc hstep
    · exact ih _ rc hrest

/-- An operation that is over stays so until it is dispatched. -/
theorem Coord.settled_kept {s : Coord} {op : OperationId} {acts : List Action}
    (hsettled : (s.store.ops.state op).settled = true)
    (hnone : ∀ e res, .applied (.dispatch op e) res ∉ s.trace acts) :
    ((coordinator.run s acts).store.ops.state op).settled = true := by
  cases hr : s.store.ops.find op with
  | none =>
    rw [OperationRegistry.state, hr] at hsettled
    exact absurd hsettled (by decide)
  | some r =>
    rw [OperationRegistry.state, hr] at hsettled
    obtain ⟨r', hr', hsettled'⟩ := plain_run (P := fun r' => r'.machine.state.settled = true)
      (fun heff hc hdispatch hr => heff.settled_of hc hdispatch hr) hr hsettled
      (s.plain_trace acts) (Coord.dispatch_notMem hnone)
    rw [← s.ops_run] at hr'
    rw [OperationRegistry.state, hr']
    exact hsettled'

/-! ### Whole runs -/

/-- **The log and the registry.** In a run of the coordinator, what is appended for a loss is also
    reported and accepted, and nothing is appended for an operation that is over, exactly when
    every step meets the condition. -/
theorem log_agrees_iff (file : Option (List UInt8)) (acts : List Action) :
    LogAgrees (.boot file) acts ↔ coordinator.Always reportStands (.boot file) acts := by
  rw [Machine.always_iff]
  constructor
  · intro h pre a post hsplit
    exact (appendAgrees_iff (begun_run file pre)).mp (h.reported pre a post hsplit)
  · intro hC
    have hreported : ∀ pre a post, acts = pre ++ a :: post →
        AppendAgrees (coordinator.run (.boot file) pre) a :=
      fun pre a post hsplit => (appendAgrees_iff (begun_run file pre)).mpr (hC pre a post hsplit)
    refine ⟨hreported, ?_⟩
    rintro pre mid a post op hsplit hsettled hnone rec hev rfl
    have hkept := Coord.settled_kept hsettled hnone
    rw [← Machine.run_append] at hkept
    have hopen := (hreported (pre ++ mid) a post hsplit).not_settled hev
    rw [hkept] at hopen
    cases hopen

/-- The worker reports a known failure, and its connection ends. -/
def knownLoss : List Action :=
  registration 0 7 8 ++ [.accept 1] ++ request sampleOp 5 ++
    [.receive 0 { type := .FAILURE, op := sampleOp, authority := sampleAuthority },
      .proceed 0 {}] ++ (loss 0 20).take 5

/-- The record of the loss, an ambiguous one. -/
def knownLossRecord : FailureRecord :=
  (Coord.lossRecord (coordinator.run (.boot none) knownLoss) sampleAuthority 0).build (.ofByte 20)

/-- It is appended, and the report is refused: the failure is known. -/
theorem ambiguous_record_of_known_failure :
    ((coordinator.run (.boot none) knownLoss).step (.proceed 0 { drawn := .ofByte 20 })).2 =
        [.appended knownLossRecord true,
          .applied (.reportFailure sampleOp sampleAuthority true) .ILLEGAL_TRANSITION] ∧
      knownLossRecord.failureClass = .AMBIGUOUS ∧ knownLossRecord.operation = sampleOp ∧
      (coordinator.run (.boot none) knownLoss).store.ops.state sampleOp = .FAILED_KNOWN ∧
      ¬ LogAgrees (.boot none) (knownLoss ++ [.proceed 0 { drawn := .ofByte 20 }]) := by
  have hevs : ((coordinator.run (.boot none) knownLoss).step
      (.proceed 0 { drawn := .ofByte 20 })).2 = [.appended knownLossRecord true,
        .applied (.reportFailure sampleOp sampleAuthority true) .ILLEGAL_TRANSITION] := by
    decide +kernel
  refine ⟨hevs, rfl, by decide +kernel, by decide +kernel, fun h => ?_⟩
  obtain ⟨hreported, -⟩ := h.reported knownLoss (.proceed 0 { drawn := .ofByte 20 }) [] rfl
    knownLossRecord (by rw [hevs]; exact List.mem_cons_self)
  rw [hevs] at hreported
  simp at hreported

end FailureFabric
