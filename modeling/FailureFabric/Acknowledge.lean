import FailureFabric.CoordinatorMoves

namespace FailureFabric

open Library

/-!
# Acknowledged completions

A worker that reports a completion is answered with an `ACK` whose flag is set.  The answer is
meant to say that the operation is confirmed, with the worker's envelope, and that no other
completion of it is acknowledged.

The report and the confirmation are two calls on the registry, and the result of the second is
ignored: a failure report or a loss handler between them makes the confirmation fail, and the
acknowledgement is sent all the same (`failure_before_confirm`).  `acks_confirmed` proves the
property for the runs in which every confirmation finds the operation as the report left it.
-/

/-! ### Traces -/

/-- All events of a run, in order. -/
def Coord.trace (s : Coord) (acts : List Action) : List Event :=
  (coordinator.outputs s acts).flatten

/-- The message that the thread of `c` received last. -/
def answering (c : ConnId) (t : List Event) : Option WireMessage :=
  (t.filterMap fun
    | .received c' m => if c' = c then some m else none
    | _ => none).getLast?

/-- The event is an acknowledgement of a completion of `op`. -/
def Event.isAck (op : OperationId) : Event → Bool
  | .sent _ m => m.type = .ACK && m.flag && m.op = op
  | _ => false

/-- How often a completion of `op` was acknowledged. -/
def acks (op : OperationId) (t : List Event) : Nat := t.countP (Event.isAck op)

/-- The operation is recorded as confirmed, with the terminal envelope `e`. -/
def OperationRegistry.ConfirmedWith (reg : OperationRegistry) (op : OperationId)
    (e : AuthorityEnvelope) : Prop :=
  ∃ r, reg.find op = some r ∧ r.terminalRecorded = true ∧
    r.machine.state = .COMPLETION_CONFIRMED ∧ r.terminal = e

/-- A connection answers the same message until it receives another. -/
theorem answering_of_not_received {c : ConnId} (t : List Event) {evs : List Event}
    (h : ∀ m, .received c m ∉ evs) : answering c (t ++ evs) = answering c t := by
  have hnone : evs.filterMap (fun
      | .received c' m => if c' = c then some m else none
      | _ => none) = [] := by
    rw [List.filterMap_eq_nil_iff]
    intro ev hev
    cases ev with
    | received c' m =>
      by_cases hc : c' = c
      · subst hc; exact absurd hev (h m)
      · exact if_neg hc
    | sent | applied | transferred | appended => rfl
  rw [answering, List.filterMap_append, hnone, List.append_nil]
  rfl

/-- It answers the message that it has just received. -/
theorem answering_received (c : ConnId) (t : List Event) (m : WireMessage) :
    answering c (t ++ [.received c m]) = some m := by
  simp [answering]

/-- Acknowledgements are counted part by part. -/
theorem acks_append (op : OperationId) (t evs : List Event) :
    acks op (t ++ evs) = acks op t + acks op evs := List.countP_append

/-! ### How a thread gets where -/

namespace Coord.Moves

variable {s s' : Coord} {c : ConnId} {a : Action} {evs : List Event}

/-- Only the thread that moves receives, and it then handles the message. -/
theorem received {c' : ConnId} {m : WireMessage} (h : s.Moves c a s' evs)
    (hev : .received c' m ∈ evs) : c' = c ∧ evs = [.received c m] ∧ s'.pc c = .handle m := by
  cases h with
  | localStep a new evs h =>
    generalize s.pc c = pc at h
    cases h with
    | receive m' =>
      simp only [List.mem_singleton, Event.received.injEq] at hev
      obtain ⟨rfl, rfl⟩ := hev
      exact ⟨rfl, rfl, goto_pc_self ..⟩
    | accept | disconnect | asked | ignored | noWorkers | sentDispatch | sentAck | sentFence
    | notRunning | allDone | recover | built | noReplacement | gaveUp | verified | sentAgain =>
      simp at hev
  | idle | callStep | register | dispatchLock | marked | markedAgain | lost | saveStart
  | saveItem | saveEnd => simp at hev
  | transferred a ch => simp [lostTransfer] at hev
  | recorded a ch cur b => simp [lostReport] at hev

/-- A thread handles a message because it received it, or because it did not move. -/
theorem to_handle {m : WireMessage} (h : s.Moves c a s' evs) (hpc : s'.pc c = .handle m) :
    (s' = s ∧ evs = []) ∨ evs = [.received c m] := by
  have harrives := h.arrives (by rw [hpc]; rfl)
  rw [hpc] at harrives
  rcases harrives with hidle | ⟨hlocal, -⟩ | ⟨ch, rc, -, hcall, -⟩
  · exact Or.inl hidle
  · generalize s.pc c = pc at hlocal
    cases hlocal
    exact Or.inr rfl
  · generalize s.pc c = pc at hcall
    generalize (s.call rc).2 = res at hcall
    cases hcall

/-- A thread is about to confirm because its report was accepted. -/
theorem to_completeConfirm {op : OperationId} {e : AuthorityEnvelope}
    (h : s.Moves c a s' evs) (hpc : s'.pc c = .completeConfirm op e) :
    (s' = s ∧ evs = []) ∨ ∃ m, s.pc c = .handle m ∧ m.type = .COMPLETE ∧ m.op = op ∧
      m.authority = e ∧ ∀ c' m', .received c' m' ∉ evs := by
  have harrives := h.arrives (by rw [hpc]; rfl)
  rw [hpc] at harrives
  rcases harrives with hidle | ⟨hlocal, -⟩ | ⟨ch, rc, -, hcall, -, rfl⟩
  · exact Or.inl hidle
  · generalize s.pc c = pc at hlocal
    cases hlocal
  · right
    generalize hold : s.pc c = pc at hcall
    generalize (s.call rc).2 = res at hcall
    cases hcall with
    | reported m hm => exact ⟨m, rfl, hm, rfl, rfl, by simp⟩

/-- A thread is about to acknowledge because it has called `confirm_completion`. -/
theorem to_completeAck {op : OperationId} {e : AuthorityEnvelope}
    (h : s.Moves c a s' evs) (hpc : s'.pc c = .completeAck op e) :
    (s' = s ∧ evs = []) ∨ ∃ ch, a = .proceed c ch ∧ s.pc c = .completeConfirm op e ∧
      s' = (s.call (.confirmCompletion op e)).1.goto c (.completeAck op e) ∧
      evs = [.applied (.confirmCompletion op e) (s.call (.confirmCompletion op e)).2] := by
  have harrives := h.arrives (by rw [hpc]; rfl)
  rw [hpc] at harrives
  rcases harrives with hidle | ⟨hlocal, -⟩ | ⟨ch, rc, ha, hcall, hs', hevs⟩
  · exact Or.inl hidle
  · generalize s.pc c = pc at hlocal
    cases hlocal
  · right
    generalize hold : s.pc c = pc at hcall
    generalize (s.call rc).2 = res at hcall
    cases hcall with
    | confirm => exact ⟨ch, ha, rfl, hs', hevs⟩

/-- Only a thread that is about to acknowledge does so, and it does nothing else. -/
theorem ack {op : OperationId} {ev : Event} (h : s.Moves c a s' evs) (hev : ev ∈ evs)
    (hack : ev.isAck op = true) :
    ∃ e, s.pc c = .completeAck op e ∧ s' = s.goto c (.completeSave op) ∧
      evs = [.sent c { type := .ACK, flag := true, op := op }] := by
  cases h with
  | localStep a new evs h =>
    generalize hold : s.pc c = pc at h
    cases h with
    | sentAck op' e =>
      simp only [List.mem_singleton] at hev
      subst hev
      simp only [Event.isAck, decide_true, Bool.and_self, Bool.true_and, decide_eq_true_eq] at hack
      subst hack
      exact ⟨e, rfl, rfl, rfl⟩
    | receive | sentDispatch | sentFence | sentAgain =>
      simp only [List.mem_singleton] at hev
      subst hev
      exact absurd hack (by simp [Event.isAck, dispatchMessage])
    | accept | disconnect | asked | ignored | noWorkers | notRunning | allDone | recover | built
    | noReplacement | gaveUp | verified => simp at hev
  | callStep | register =>
    simp only [List.mem_singleton] at hev
    subst hev
    exact absurd hack (by simp [Event.isAck])
  | dispatchLock =>
    simp only [List.mem_cons, List.not_mem_nil, or_false] at hev
    rcases hev with rfl | rfl <;> exact absurd hack (by simp [Event.isAck])
  | idle | marked | markedAgain | lost | saveStart | saveItem | saveEnd => simp at hev
  | transferred a ch =>
    simp only [lostTransfer, List.mem_singleton] at hev
    subst hev
    exact absurd hack (by simp [Event.isAck])
  | recorded a ch cur b =>
    simp only [lostReport, List.mem_cons, List.not_mem_nil, or_false] at hev
    rcases hev with rfl | rfl <;> exact absurd hack (by simp [Event.isAck])

end Coord.Moves

/-! ### What the registry keeps -/

section Keeps

variable {s s' : Coord} {c : ConnId} {a : Action} {evs : List Event} {op : OperationId}
  {e : AuthorityEnvelope}

/-- A recorded runtime does not change in any step of the coordinator. -/
theorem Coord.Moves.find_of_recorded {r : OperationRuntime} (h : s.Moves c a s' evs)
    (hr : s.store.ops.find op = some r) (hrec : r.terminalRecorded = true) :
    s'.store.ops.find op = some r := by
  rw [h.ops_eq.1]
  exact find_run_of_recorded hr hrec _

/-- A recorded operation stays recorded. -/
theorem Coord.Moves.recorded_stays (h : s.Moves c a s' evs) (hrec : s.store.ops.Recorded op) :
    s'.store.ops.Recorded op := by
  obtain ⟨r, hr, hr'⟩ := hrec
  exact ⟨r, h.find_of_recorded hr hr', hr'⟩

/-- It stays confirmed with the same envelope. -/
theorem Coord.Moves.confirmed_stays (h : s.Moves c a s' evs)
    (hconf : s.store.ops.ConfirmedWith op e) : s'.store.ops.ConfirmedWith op e := by
  obtain ⟨r, hr, hrec, hrest⟩ := hconf
  exact ⟨r, h.find_of_recorded hr hrec, hrec, hrest⟩

/-- A confirmation records. -/
theorem OperationRegistry.ConfirmedWith.recorded {reg : OperationRegistry}
    (h : reg.ConfirmedWith op e) : reg.Recorded op := by
  obtain ⟨r, hr, hrec, -⟩ := h
  exact ⟨r, hr, hrec⟩

/-- A known operation stays known. -/
theorem Coord.Moves.has_stays (h : s.Moves c a s' evs) (hop : s.store.ops.has op = true) :
    s'.store.ops.has op = true := by
  rw [h.ops_eq.1]
  exact has_run hop _

/-- A terminal state stays. -/
theorem Coord.Moves.isTerminal_stays (h : s.Moves c a s' evs)
    (hterm : isTerminal (s.store.ops.state op) = true) :
    isTerminal (s'.store.ops.state op) = true := by
  rw [h.ops_eq.1]
  exact isTerminal_state_run hterm _

/-- So an operation that is live after the step was live before. -/
theorem Coord.Moves.live_of (h : s.Moves c a s' evs)
    (hlive : isTerminal (s'.store.ops.state op) = false) :
    isTerminal (s.store.ops.state op) = false := by
  rw [← Bool.not_eq_true] at hlive ⊢
  exact fun hterm => hlive (h.isTerminal_stays hterm)

/-- A step changes what a thread answers only by receiving for it. -/
theorem Coord.Moves.answering_of_ne {c' : ConnId} (h : s.Moves c a s' evs) (hne : c' ≠ c)
    (t : List Event) : answering c' (t ++ evs) = answering c' t :=
  answering_of_not_received t (fun _ hev => hne (h.received hev).1)

end Keeps

/-! ### The condition and the invariant -/

/-- A step that confirms a completion finds the operation as the report left it: reported, not
    recorded, and under an authority that accepts the envelope. -/
def confirmStands (s : Coord) : Action → Bool
  | .proceed c _ =>
    match s.pc c with
    | .completeConfirm op e =>
      match s.store.ops.find op with
      | none => false
      | some r =>
        r.machine.state = .COMPLETION_REPORTED && !r.terminalRecorded &&
          (fenceCompletion e r.authority r.terminal).accepted
    | _ => true
  | _ => true

/-- Under the condition the confirmation is the first record, and records the envelope. -/
theorem confirms_of_confirmStands {s : Coord} {c : ConnId} {ch : Choice} {op : OperationId}
    {e : AuthorityEnvelope} (hpc : s.pc c = .completeConfirm op e)
    (hC : confirmStands s (.proceed c ch) = true) :
    ¬ s.store.ops.Recorded op ∧
      (s.call (.confirmCompletion op e)).1.store.ops.ConfirmedWith op e := by
  unfold confirmStands at hC
  simp only [hpc] at hC
  cases hr : s.store.ops.find op with
  | none => simp [hr] at hC
  | some r =>
    simp only [hr, Bool.and_eq_true, decide_eq_true_eq, Bool.not_eq_true'] at hC
    obtain ⟨⟨hstate, hopen⟩, hfence⟩ := hC
    refine ⟨?_, ?_⟩
    · rintro ⟨r', hr', hrec⟩
      obtain rfl : r = r' := Option.some.inj (hr.symm.trans hr')
      exact absurd (hopen.symm.trans hrec) (by simp)
    · have hconfirm : (r.confirmCompletion e).1 =
          { r with machine := ⟨.COMPLETION_CONFIRMED⟩, terminalRecorded := true, terminal := e,
                   terminalOutcome := completedText } := by
        have hallowed : isAllowed r.machine.state .COMPLETION_CONFIRMED = true := by
          rw [hstate]; decide
        unfold OperationRuntime.confirmCompletion
        rw [if_neg (by simp [hopen]), if_neg (by simp [hfence]),
          OperationStateMachine.transition, if_pos hallowed]
      refine ⟨(r.confirmCompletion e).1, ?_, ?_, ?_, ?_⟩
      · exact registry_find_self s.store.ops (c := .confirmCompletion op e) hr
      all_goals rw [hconfirm]

/-- The thread of `c` answers a completion of `op` with envelope `e`. -/
def Answers (t : List Event) (c : ConnId) (op : OperationId) (e : AuthorityEnvelope) : Prop :=
  ∃ m, answering c t = some m ∧ m.type = .COMPLETE ∧ m.op = op ∧ m.authority = e

/-- What holds between the state and the trace while every confirmation stands. -/
structure AckInv (s : Coord) (t : List Event) : Prop where
  handled : ∀ c m, s.pc c = .handle m → answering c t = some m
  confirming : ∀ c op e, s.pc c = .completeConfirm op e → Answers t c op e
  acking : ∀ c op e, s.pc c = .completeAck op e →
    Answers t c op e ∧ s.store.ops.ConfirmedWith op e
  unique : ∀ c c' op e e', s.pc c = .completeAck op e → s.pc c' = .completeAck op e' → c = c'
  once : ∀ op, acks op t = 0 ∨
    acks op t = 1 ∧ s.store.ops.Recorded op ∧ ∀ c e, s.pc c ≠ .completeAck op e

section Invariant

variable {s s' : Coord} {c : ConnId} {a : Action} {evs : List Event} {t : List Event}

/-- A thread handles the message that its connection answers. -/
theorem AckInv.handled_step (inv : AckInv s t) (h : s.Moves c a s' evs) (c' : ConnId)
    (m : WireMessage) (hpc : s'.pc c' = .handle m) : answering c' (t ++ evs) = some m := by
  by_cases hc : c' = c
  · subst hc
    rcases h.to_handle hpc with ⟨rfl, rfl⟩ | rfl
    · rw [List.append_nil]; exact inv.handled _ m hpc
    · exact answering_received _ t m
  · rw [h.answering_of_ne hc]
    exact inv.handled c' m (by rw [← h.pc_of_ne hc]; exact hpc)

/-- A confirmation answers a `COMPLETE` of its connection. -/
theorem AckInv.confirming_step (inv : AckInv s t) (h : s.Moves c a s' evs) (c' : ConnId)
    (op : OperationId) (e : AuthorityEnvelope) (hpc : s'.pc c' = .completeConfirm op e) :
    Answers (t ++ evs) c' op e := by
  by_cases hc : c' = c
  · subst hc
    rcases h.to_completeConfirm hpc with ⟨rfl, rfl⟩ | ⟨m, hm, htype, hop, he, hnone⟩
    · rw [List.append_nil]; exact inv.confirming _ op e hpc
    · exact ⟨m, by rw [answering_of_not_received t (hnone _)]; exact inv.handled _ m hm,
        htype, hop, he⟩
  · unfold Answers
    rw [h.answering_of_ne hc]
    exact inv.confirming c' op e (by rw [← h.pc_of_ne hc]; exact hpc)

/-- What is about to be acknowledged was reported and is recorded. -/
theorem AckInv.acking_step (inv : AckInv s t) (h : s.Moves c a s' evs)
    (hC : confirmStands s a = true) (c' : ConnId) (op : OperationId) (e : AuthorityEnvelope)
    (hpc : s'.pc c' = .completeAck op e) :
    Answers (t ++ evs) c' op e ∧ s'.store.ops.ConfirmedWith op e := by
  by_cases hc : c' = c
  · subst hc
    rcases h.to_completeAck hpc with ⟨rfl, rfl⟩ | ⟨ch, rfl, hold, hs', rfl⟩
    · rw [List.append_nil]; exact inv.acking _ op e hpc
    · refine ⟨?_, ?_⟩
      · unfold Answers
        rw [answering_of_not_received t (by simp)]
        exact inv.confirming _ op e hold
      · rw [hs']
        exact (confirms_of_confirmStands hold hC).2
  · have hold : s.pc c' = .completeAck op e := by rw [← h.pc_of_ne hc]; exact hpc
    obtain ⟨hans, hconf⟩ := inv.acking c' op e hold
    refine ⟨?_, h.confirmed_stays hconf⟩
    unfold Answers
    rw [h.answering_of_ne hc]
    exact hans

/-- A thread that gets to acknowledge `op` finds no other one there: it was not recorded. -/
theorem AckInv.unique_step (inv : AckInv s t) (h : s.Moves c a s' evs)
    (hC : confirmStands s a = true) {c₁ c₂ : ConnId} {op : OperationId}
    {e₁ e₂ : AuthorityEnvelope} (h₁ : s'.pc c₁ = .completeAck op e₁)
    (h₂ : s'.pc c₂ = .completeAck op e₂) : c₁ = c₂ := by
  -- whichever of the two did not move was there before, so `op` was recorded before
  have hkey : ∀ c' e e', s'.pc c = .completeAck op e → c' ≠ c → s'.pc c' = .completeAck op e' →
      c' = c := by
    intro c' e e' hpc hne hpc'
    have hold' : s.pc c' = .completeAck op e' := by rw [← h.pc_of_ne hne]; exact hpc'
    rcases h.to_completeAck hpc with ⟨rfl, -⟩ | ⟨ch, rfl, hold, -, -⟩
    · exact inv.unique c' c op e' e hpc' hpc
    · exact absurd (inv.acking c' op e' hold').2.recorded (confirms_of_confirmStands hold hC).1
  by_cases hc₁ : c₁ = c
  · subst hc₁
    by_contra hne
    exact hne (hkey c₂ e₁ e₂ h₁ (Ne.symm hne) h₂).symm
  · by_cases hc₂ : c₂ = c
    · subst hc₂
      exact hkey c₁ e₂ e₁ h₂ hc₁ h₁
    · refine inv.unique c₁ c₂ op e₁ e₂ ?_ ?_
      · rw [← h.pc_of_ne hc₁]; exact h₁
      · rw [← h.pc_of_ne hc₂]; exact h₂

/-- A step that does not acknowledge `op` leaves the count alone. -/
theorem acks_eq_zero_of_not {op : OperationId} (hnot : ∀ ev ∈ evs, ev.isAck op = false) :
    acks op evs = 0 := by
  unfold acks
  rw [List.countP_eq_zero]
  intro ev hev
  rw [hnot ev hev]
  simp

/-- An operation is acknowledged once, and nothing is left that would do so again. -/
theorem AckInv.once_step (inv : AckInv s t) (h : s.Moves c a s' evs)
    (hC : confirmStands s a = true) (op : OperationId) :
    acks op (t ++ evs) = 0 ∨ acks op (t ++ evs) = 1 ∧ s'.store.ops.Recorded op ∧
      ∀ c' e, s'.pc c' ≠ .completeAck op e := by
  rw [acks_append]
  by_cases hack : ∃ ev ∈ evs, ev.isAck op = true
  · -- the acknowledgement: it is the first one, and nobody else is about to send one
    obtain ⟨ev, hev, hop⟩ := hack
    obtain ⟨e, hold, hs', hevs⟩ := h.ack hev hop
    right
    have hconf := (inv.acking c op e hold).2
    have hzero : acks op t = 0 :=
      (inv.once op).resolve_right (fun hone => hone.2.2 c e hold)
    refine ⟨?_, ?_, ?_⟩
    · rw [hzero, hevs]
      simp [acks, Event.isAck]
    · rw [hs', Coord.goto_store]
      exact hconf.recorded
    · intro c' e' hpc
      by_cases hc : c' = c
      · rw [hc, hs', Coord.goto_pc_self] at hpc
        cases hpc
      · rw [h.pc_of_ne hc] at hpc
        exact hc (inv.unique c' c op e' e hpc hold)
  · have hnot : ∀ ev ∈ evs, ev.isAck op = false := by
      intro ev hev
      rw [← Bool.not_eq_true]
      exact fun hop => hack ⟨ev, hev, hop⟩
    rw [acks_eq_zero_of_not hnot, Nat.add_zero]
    refine (inv.once op).imp id (fun ⟨hone, hrec, hnone⟩ => ⟨hone, h.recorded_stays hrec, ?_⟩)
    intro c' e hpc
    by_cases hc : c' = c
    · subst hc
      rcases h.to_completeAck hpc with ⟨rfl, -⟩ | ⟨ch, rfl, hold, -, -⟩
      · exact hnone _ e hpc
      · exact (confirms_of_confirmStands hold hC).1 hrec
    · rw [h.pc_of_ne hc] at hpc
      exact hnone c' e hpc

/-- **Step lemma.** A step under the condition keeps the invariant. -/
theorem AckInv.step (inv : AckInv s t) (h : s.Moves c a s' evs)
    (hC : confirmStands s a = true) : AckInv s' (t ++ evs) where
  handled := inv.handled_step h
  confirming := inv.confirming_step h
  acking := inv.acking_step h hC
  unique := fun _ _ _ _ _ h₁ h₂ => inv.unique_step h hC h₁ h₂
  once := inv.once_step h hC

/-- No thread carries anything at the start. -/
theorem ackInv_boot (file : Option (List UInt8)) : AckInv (Coord.boot file) [] where
  handled := fun _ _ h => by cases h
  confirming := fun _ _ _ h => by cases h
  acking := fun _ _ _ h => by cases h
  unique := fun _ _ _ _ _ h => by cases h
  once := fun _ => Or.inl rfl

/-- **Run lemma.** The invariant holds after every run whose confirmations stand. -/
theorem ackInv_run (file : Option (List UInt8)) {acts : List Action}
    (hC : coordinator.Always (fun s a => confirmStands s a = true) (.boot file) acts) :
    AckInv (coordinator.run (.boot file) acts) ((Coord.boot file).trace acts) := by
  exact Machine.trace_induction (M := coordinator) (P := AckInv)
    (fun s a _ hC inv => inv.step (s.step_moves a) hC) (ackInv_boot file) hC

end Invariant

/-- Every acknowledgement of the run answers a completion that the registry holds as confirmed
    with the envelope of that completion, and no operation is acknowledged twice. -/
structure AcksConfirmed (s₀ : Coord) (acts : List Action) : Prop where
  confirmed : ∀ pre a post, acts = pre ++ a :: post → ∀ c m,
    .sent c m ∈ ((coordinator.run s₀ pre).step a).2 → m.type = .ACK → m.flag = true →
    ∃ e, Answers (s₀.trace pre) c m.op e ∧
      (coordinator.run s₀ pre).store.ops.ConfirmedWith m.op e
  once : ∀ op, acks op (s₀.trace acts) ≤ 1

/-- **Acknowledged completions are confirmed.** In every run of the coordinator in which each
    confirmation finds the operation as its report left it, every acknowledgement is backed by
    the registry and no operation is acknowledged twice. -/
theorem acks_confirmed (file : Option (List UInt8)) (acts : List Action)
    (hC : coordinator.Always (fun s a => confirmStands s a = true) (.boot file) acts) :
    AcksConfirmed (.boot file) acts where
  confirmed := by
    rintro pre a post rfl c m hsent htype hflag
    have inv := ackInv_run file ((Machine.always_append _ _ _ _).mp hC).1
    have hack : Event.isAck m.op (.sent c m) = true := by simp [Event.isAck, htype, hflag]
    obtain ⟨e, hpc, -, hevs⟩ := ((coordinator.run (.boot file) pre).step_moves a).ack hsent hack
    rw [hevs, List.mem_singleton, Event.sent.injEq] at hsent
    obtain ⟨hans, hconf⟩ := inv.acking _ _ e hpc
    exact ⟨e, by rw [hsent.1]; exact hans, hconf⟩
  once := by
    intro op
    rcases (ackInv_run file hC).once op with hzero | ⟨hone, -⟩ <;> omega

theorem acks_confirmed_reportedRun :
    AcksConfirmed (.boot none) (reportedRun ++ [.proceed 0 {}, .proceed 0 {}]) :=
  acks_confirmed none _ (by decide)

/-- Another connection reports a failure between the report and the confirmation. -/
def failureBetween : List Action :=
  reportedRun ++
    [.accept 2, .receive 2 { type := .FAILURE, op := sampleOp, authority := sampleAuthority },
      .proceed 2 {}, .proceed 0 {}]

/-- The completion is acknowledged, and the operation has failed without a record. -/
theorem failure_before_confirm :
    (coordinator.run (.boot none) failureBetween).store.ops.state sampleOp = .FAILED_KNOWN ∧
      .sent 0 { type := .ACK, flag := true, op := sampleOp } ∈
        ((coordinator.run (.boot none) failureBetween).step (.proceed 0 {})).2 ∧
      ¬ AcksConfirmed (.boot none) (failureBetween ++ [.proceed 0 {}]) := by
  have hstate :
      (coordinator.run (.boot none) failureBetween).store.ops.state sampleOp = .FAILED_KNOWN := by
    decide
  have hsent : .sent 0 { type := .ACK, flag := true, op := sampleOp } ∈
      ((coordinator.run (.boot none) failureBetween).step (.proceed 0 {})).2 := by
    decide
  refine ⟨hstate, hsent, fun h => ?_⟩
  obtain ⟨e, -, r, hr, -, hconf, -⟩ := h.confirmed failureBetween _ [] rfl _ _ hsent rfl rfl
  rw [OperationRegistry.state, hr] at hstate
  exact absurd (hconf.symm.trans hstate) (by simp)

end FailureFabric
