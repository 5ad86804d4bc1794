import FailureFabric.Enum

namespace FailureFabric

/-!
# The guarded operation state machine

The transition table of the source is a list of twenty bit masks, one per source state; bit `i`
of a mask allows the transition to the state with code `i`.

* `isAllowed` — the table lookup, with its range check;
* `isAllowed_of_isTerminal` — a terminal state has an empty mask, so nothing leaves it;
* `OperationStateMachine.transition`, `OperationStateMachine.firstTransition` — one guarded
  transition, and the `||` chain that takes the first allowed one.
-/

/-- `make_mask`. -/
def makeMask (idx : List Nat) : UInt32 :=
  idx.foldl (fun m i => m ||| (1 <<< UInt32.ofNat i)) 0

/-- `table()`. -/
def table : List UInt32 :=
  [ -- CREATED
    makeMask [1, 5, 6],
    -- DISPATCHED
    makeMask [2, 5, 6, 18],
    -- RUNNING
    makeMask [3, 5, 6, 7, 18],
    -- COMPLETION_REPORTED
    makeMask [4, 5, 6, 7],
    -- COMPLETION_CONFIRMED (terminal)
    makeMask [],
    -- FAILED_KNOWN
    makeMask [8, 10, 12, 14, 17, 18, 19],
    -- FAILED_AMBIGUOUS
    makeMask [8, 10, 12, 14, 17, 19],
    -- PARTIALLY_SUCCEEDED
    makeMask [8, 10, 12, 14, 17],
    -- RETRY_PENDING
    makeMask [9, 18, 19],
    -- RETRYING
    makeMask [2, 5, 6, 18],
    -- ROLLBACK_PENDING
    makeMask [11, 18, 19],
    -- ROLLING_BACK
    makeMask [8, 12, 14, 16, 17],
    -- COMPENSATION_PENDING
    makeMask [13, 18, 19],
    -- COMPENSATING
    makeMask [14, 16, 17],
    -- RECOVERY_PENDING
    makeMask [15, 17, 19],
    -- RECOVERING
    makeMask [16, 17, 18],
    -- RECOVERED (terminal)
    makeMask [],
    -- TERMINAL_FAILED (terminal)
    makeMask [],
    -- CANCELLED (terminal)
    makeMask [],
    -- ABANDONED (terminal)
    makeMask [] ]

/-- `OperationStateMachine::is_allowed`.  The codes are compared as naturals: a code that the
    source's cast to `int` makes negative is out of range either way. -/
def isAllowed (src dst : OperationState) : Bool :=
  let f := src.code.toNat
  let t := dst.code.toNat
  if 20 ≤ f || 20 ≤ t then false
  else (table.getD f 0 &&& (1 <<< UInt32.ofNat t)) != 0

/-- `OperationStateMachine::is_terminal`. -/
def isTerminal (s : OperationState) : Bool :=
  s = .COMPLETION_CONFIRMED || s = .RECOVERED || s = .TERMINAL_FAILED || s = .CANCELLED ||
    s = .ABANDONED

/-- No transition leaves a terminal state. -/
theorem isAllowed_of_isTerminal {src : OperationState} (h : isTerminal src = true)
    (dst : OperationState) : isAllowed src dst = false := by
  have hmask : table.getD src.code.toNat 0 = 0 := by
    simp only [isTerminal, Bool.or_eq_true, decide_eq_true_eq] at h
    rcases h with (((rfl | rfl) | rfl) | rfl) | rfl <;> rfl
  unfold isAllowed
  dsimp only
  rw [hmask]
  split <;> simp

/-- Only a reported completion can be confirmed. -/
theorem isAllowed_confirmed {src : OperationState}
    (h : isAllowed src .COMPLETION_CONFIRMED = true) : src = .COMPLETION_REPORTED := by
  cases src with
  | unnamed code unnamed_le =>
    have hrange : 20 ≤ code.toNat := UInt32.le_iff_toNat_le.mp unnamed_le
    unfold isAllowed at h
    simp [OperationState.code, hrange] at h
  | _ => first | rfl | exact absurd h (by decide)

/-- `OperationStateMachine`. -/
structure OperationStateMachine where
  state : OperationState := .CREATED
deriving DecidableEq

namespace OperationStateMachine

/-- `transition`: the result and the machine after the call. -/
def transition (m : OperationStateMachine) (dst : OperationState) :
    Bool × OperationStateMachine :=
  if isAllowed m.state dst then (true, ⟨dst⟩) else (false, m)

/-- `reset`. -/
def reset (_ : OperationStateMachine) (s : OperationState) : OperationStateMachine := ⟨s⟩

/-- `transition(s₁) || transition(s₂) || …`: the first transition that is allowed. -/
def firstTransition (m : OperationStateMachine) : List OperationState →
    Bool × OperationStateMachine
  | [] => (false, m)
  | s :: ss =>
    match m.transition s with
    | (true, m') => (true, m')
    | (false, m') => m'.firstTransition ss

/-- A successful transition was allowed and ends in its target. -/
theorem transition_true {m m' : OperationStateMachine} {dst : OperationState}
    (h : m.transition dst = (true, m')) : isAllowed m.state dst = true ∧ m' = ⟨dst⟩ := by
  unfold transition at h
  split at h
  · next hallowed => exact ⟨hallowed, (Prod.mk.inj h).2.symm⟩
  · exact absurd (Prod.mk.inj h).1 (by simp)

/-- A failed transition leaves the machine alone. -/
theorem transition_false {m m' : OperationStateMachine} {dst : OperationState}
    (h : m.transition dst = (false, m')) : isAllowed m.state dst = false ∧ m' = m := by
  unfold transition at h
  split at h
  · exact absurd (Prod.mk.inj h).1 (by simp)
  · next hrefused => exact ⟨by simpa using hrefused, (Prod.mk.inj h).2.symm⟩

/-- A successful chain took an allowed transition to one of its targets. -/
theorem firstTransition_true {m m' : OperationStateMachine} {ss : List OperationState}
    (h : m.firstTransition ss = (true, m')) :
    ∃ s ∈ ss, isAllowed m.state s = true ∧ m' = ⟨s⟩ := by
  induction ss with
  | nil => exact absurd (Prod.mk.inj h).1 (by simp)
  | cons s ss ih =>
    rw [firstTransition] at h
    rcases hs : m.transition s with ⟨ok, m₁⟩
    cases ok with
    | true =>
      obtain ⟨hallowed, rfl⟩ := transition_true hs
      rw [hs] at h
      exact ⟨s, by simp, hallowed, (Prod.mk.inj h).2.symm⟩
    | false =>
      obtain ⟨-, rfl⟩ := transition_false hs
      rw [hs] at h
      obtain ⟨s', hmem, hrest⟩ := ih h
      exact ⟨s', List.mem_cons_of_mem _ hmem, hrest⟩

/-- The chain takes the first transition that the table allows, if there is one. -/
theorem firstTransition_eq_find (m : OperationStateMachine) (ss : List OperationState) :
    m.firstTransition ss =
      match ss.find? (isAllowed m.state) with
      | none => (false, m)
      | some s => (true, ⟨s⟩) := by
  induction ss with
  | nil => rfl
  | cons s ss ih =>
    rw [firstTransition, transition, List.find?_cons]
    cases isAllowed m.state s with
    | true => rfl
    | false => exact ih

end OperationStateMachine

end FailureFabric
