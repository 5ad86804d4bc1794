import FailureFabric.Authority
import FailureFabric.Library.Machine
import Mathlib.Data.List.Induction

namespace FailureFabric

open Library

/-!
# Rollback

A rollback plan is a list of steps that are executed one after the other, each only while the
caller still holds the recovery authority.

* `RollbackExecutor.runNext`, `resumeFrom` — the executor;
* `RollbackPlan.executedFirst` — what the executor makes of a plan: its first steps are marked;
* `run_eq` — the whole run in these terms;
* `rebuilt_run` — an executor that is built anew from the plan and the count of another one goes on
  as that one would;
* `rollback_resumes` — both, at every place of a run.
-/

/-- `RollbackStep`. -/
structure RollbackStep where
  action : RollbackAction := .RELEASE_RESERVATION
  target : Text := []
  idempotent : Bool := true
  executed : Bool := false
  failed : Bool := false
  detail : Text := []
deriving DecidableEq

/-- `RollbackPlan`. -/
structure RollbackPlan where
  operation : OperationId := {}
  generation : Generation := {}
  owner : RecoveryOwner := .COORDINATOR
  authority : AuthorityEnvelope := {}
  steps : List RollbackStep := []
deriving DecidableEq

/-- `RollbackExecutor`. -/
structure RollbackExecutor where
  plan : RollbackPlan
  completed : Nat := 0
  failed : Bool := false
  failureReason : String := ""
deriving DecidableEq

namespace RollbackExecutor

variable (e : RollbackExecutor)

/-- `is_complete`. -/
def isComplete : Bool := e.completed ≥ e.plan.steps.length

/-- `run_next`: the executor after the call and the result. -/
def runNext (authorityCurrent : Bool) : RollbackExecutor × Bool :=
  if e.isComplete then (e, true)
  else if !authorityCurrent then
    ({ e with
      failed := true
      failureReason := "rollback blocked: recovery authority no longer current" }, false)
  else
    let steps := e.plan.steps.modify e.completed (fun step => { step with executed := true })
    ({ e with plan := { e.plan with steps }, completed := e.completed + 1 }, true)

/-- `resume_from`. -/
def resumeFrom (completed : Nat) : RollbackExecutor := { e with completed }

/-- A new executor for the plan of another one, from where that one stands. -/
def rebuilt : RollbackExecutor := resumeFrom { plan := e.plan } e.completed

theorem isComplete_iff : e.isComplete = true ↔ e.plan.steps.length ≤ e.completed := by
  simp [isComplete]

/-- The result of a call. -/
theorem runNext_eq_false_iff (flag : Bool) :
    (e.runNext flag).2 = false ↔ flag = false ∧ e.isComplete = false := by
  unfold runNext
  split_ifs with hcomplete hflag
  · simp [hcomplete]
  · simp_all
  · simp_all

/-- No call takes the count back. -/
theorem completed_le_runNext (flag : Bool) : e.completed ≤ (e.runNext flag).1.completed := by
  unfold runNext
  split_ifs
  · exact Nat.le_refl _
  · exact Nat.le_refl _
  · exact Nat.le_succ _

/-- What a call makes of the plan and of the count depends on these only. -/
theorem runNext_observe {e e' : RollbackExecutor}
    (h : (e.plan, e.completed) = (e'.plan, e'.completed)) (flag : Bool) :
    ((e.runNext flag).1.plan, (e.runNext flag).1.completed) =
      ((e'.runNext flag).1.plan, (e'.runNext flag).1.completed) := by
  obtain ⟨plan, completed, failed, reason⟩ := e
  obtain ⟨plan', completed', failed', reason'⟩ := e'
  obtain ⟨rfl, rfl⟩ := Prod.mk.inj h
  unfold runNext isComplete
  dsimp only
  split_ifs <;> rfl

end RollbackExecutor

/-- The executor as a machine: its inputs say whether the authority is still current. -/
def rollback : Machine RollbackExecutor Bool Bool where
  step := RollbackExecutor.runNext

/-! ### What a run makes of a plan -/

/-- The step, marked as executed. -/
def RollbackStep.marked (step : RollbackStep) : RollbackStep := { step with executed := true }

/-- The plan with its first `k` steps marked as executed. -/
def RollbackPlan.executedFirst (plan : RollbackPlan) (k : Nat) : RollbackPlan :=
  { plan with steps := (plan.steps.take k).map RollbackStep.marked ++ plan.steps.drop k }

section Plan

variable {plan : RollbackPlan}

@[simp] theorem length_executedFirst (k : Nat) :
    (plan.executedFirst k).steps.length = plan.steps.length := by
  simp only [RollbackPlan.executedFirst, List.length_append, List.length_map, List.length_take,
    List.length_drop]
  omega

/-- Marking the next step. -/
private theorem modify_marked (steps : List RollbackStep) {k : Nat} (hk : k < steps.length) :
    ((steps.take k).map RollbackStep.marked ++ steps.drop k).modify k RollbackStep.marked =
      (steps.take (k + 1)).map RollbackStep.marked ++ steps.drop (k + 1) := by
  induction steps generalizing k with
  | nil => exact absurd hk (Nat.not_lt_zero k)
  | cons step steps ih =>
    cases k with
    | zero => rfl
    | succ k =>
      have hrest := ih (Nat.lt_of_succ_lt_succ hk)
      simp only [List.take_succ_cons, List.drop_succ_cons, List.map_cons, List.cons_append,
        List.modify_succ_cons] at hrest ⊢
      rw [hrest]

theorem executedFirst_succ {k : Nat} (hk : k < plan.steps.length) :
    { plan.executedFirst k with
      steps := (plan.executedFirst k).steps.modify k RollbackStep.marked } =
        plan.executedFirst (k + 1) := by
  unfold RollbackPlan.executedFirst
  dsimp only
  rw [modify_marked plan.steps hk]

/-- Of a plan without marks exactly the first `k` steps are marked. -/
theorem map_executed_executedFirst (hplan : ∀ step ∈ plan.steps, step.executed = false) {k : Nat}
    (hk : k ≤ plan.steps.length) :
    (plan.executedFirst k).steps.map RollbackStep.executed =
      List.replicate k true ++ List.replicate (plan.steps.length - k) false := by
  unfold RollbackPlan.executedFirst
  rw [List.map_append, List.map_map]
  congr 1
  · refine List.eq_replicate_iff.mpr ⟨by simp [hk], ?_⟩
    intro b hb
    obtain ⟨step, -, rfl⟩ := List.mem_map.mp hb
    rfl
  · refine List.eq_replicate_iff.mpr ⟨by simp, ?_⟩
    intro b hb
    obtain ⟨step, hstep, rfl⟩ := List.mem_map.mp hb
    exact hplan step (List.mem_of_mem_drop hstep)

/-- **Step lemma.** On a plan whose first steps are marked, as many as are counted, a call with the
    authority marks and counts the next one, if there is one. -/
theorem runNext_eq {e : RollbackExecutor} (hplan : e.plan = plan.executedFirst e.completed)
    (hle : e.completed ≤ plan.steps.length) (flag : Bool) :
    (e.runNext flag).1.completed = min plan.steps.length (e.completed + flag.toNat) ∧
      (e.runNext flag).1.plan = plan.executedFirst (e.runNext flag).1.completed := by
  have hlength : e.plan.steps.length = plan.steps.length := by rw [hplan, length_executedFirst]
  unfold RollbackExecutor.runNext
  split_ifs with hcomplete hflag
  -- complete: the call answers true whatever the flag, and the count is already the length
  · rw [e.isComplete_iff, hlength] at hcomplete
    refine ⟨?_, hplan⟩
    show e.completed = _
    omega
  · rw [Bool.not_eq_true'] at hflag
    rw [hflag]
    exact ⟨(Nat.min_eq_right hle).symm, hplan⟩
  · rw [e.isComplete_iff, hlength] at hcomplete
    rw [Bool.not_eq_true', Bool.not_eq_false] at hflag
    rw [hflag]
    have hlt : e.completed < plan.steps.length := by omega
    refine ⟨(Nat.min_eq_right hlt).symm, ?_⟩
    dsimp only
    rw [hplan]
    exact executedFirst_succ hlt

/-- **Run lemma.** A run marks and counts as many steps as calls had the authority, up to the end
    of the plan. -/
theorem run_eq (plan : RollbackPlan) (flags : List Bool) :
    (rollback.run { plan } flags).completed = min plan.steps.length (flags.count true) ∧
      (rollback.run { plan } flags).plan =
        plan.executedFirst (rollback.run { plan } flags).completed := by
  -- from the end: the step lemma speaks of the state that the calls before have left
  induction flags using List.reverseRecOn with
  | nil => exact ⟨(Nat.min_eq_right (Nat.zero_le _)).symm, rfl⟩
  | append_singleton flags flag ih =>
    obtain ⟨hcompleted, hplan⟩ := ih
    obtain ⟨hstep, hmarked⟩ := runNext_eq hplan (by omega) flag
    rw [Machine.run_concat]
    refine ⟨?_, hmarked⟩
    rw [show (rollback.step (rollback.run { plan } flags) flag).1.completed = _ from hstep,
      hcompleted, List.count_append]
    cases flag with
    | false => simp
    | true => simp; omega

end Plan

/-- An executor that is built anew goes on as the old one would. -/
theorem rebuilt_run (e : RollbackExecutor) (flags : List Bool) :
    (rollback.run e.rebuilt flags).plan = (rollback.run e flags).plan ∧
      (rollback.run e.rebuilt flags).completed = (rollback.run e flags).completed := by
  have hstart : (e.rebuilt.plan, e.rebuilt.completed) = (e.plan, e.completed) := rfl
  have hsame : ((rollback.run e.rebuilt flags).plan, (rollback.run e.rebuilt flags).completed) =
      ((rollback.run e flags).plan, (rollback.run e flags).completed) :=
    Machine.run_observe (M := rollback) (fun e : RollbackExecutor => (e.plan, e.completed))
      (fun _ _ flag h => RollbackExecutor.runNext_observe h flag) hstart flags
  exact ⟨congrArg Prod.fst hsame, congrArg Prod.snd hsame⟩

/-- **Every step once, in order, also over a crash.** For every plan without marks and every list
    of authority flags: a call never takes the count back, and returns false exactly when it has no
    authority and there is something left to do; at every place of the run the count is the number
    of calls with authority, up to the length of the plan, and exactly the first steps, as many, are
    marked; and an executor that is built anew there ends with the same plan and count. -/
theorem rollback_resumes {plan : RollbackPlan}
    (hplan : ∀ step ∈ plan.steps, step.executed = false) (flags : List Bool) :
    (∀ pre flag post, flags = pre ++ flag :: post →
      (rollback.run { plan } pre).completed ≤ (rollback.run { plan } (pre ++ [flag])).completed ∧
        ((rollback.step (rollback.run { plan } pre) flag).2 = false ↔
          flag = false ∧ (rollback.run { plan } pre).isComplete = false)) ∧
    (∀ pre post, flags = pre ++ post →
      (rollback.run { plan } pre).completed = min plan.steps.length (pre.count true) ∧
      (rollback.run { plan } pre).plan.steps.map RollbackStep.executed =
        List.replicate (rollback.run { plan } pre).completed true ++
          List.replicate (plan.steps.length - (rollback.run { plan } pre).completed) false ∧
      (rollback.run (rollback.run { plan } pre).rebuilt post).plan =
        (rollback.run { plan } flags).plan ∧
      (rollback.run (rollback.run { plan } pre).rebuilt post).completed =
        (rollback.run { plan } flags).completed) := by
  constructor
  · intro pre flag post _
    rw [Machine.run_concat]
    exact ⟨RollbackExecutor.completed_le_runNext _ flag,
      RollbackExecutor.runNext_eq_false_iff _ flag⟩
  · rintro pre post rfl
    obtain ⟨hcompleted, hmarked⟩ := run_eq plan pre
    refine ⟨hcompleted, ?_, ?_⟩
    · rw [hmarked]
      exact map_executed_executedFirst hplan (by omega)
    · rw [Machine.run_append]
      exact rebuilt_run _ post

/-- Of two steps one is rolled back, the authority is lost, and the executor is built anew. -/
theorem rollback_resumes_afterFence :
    (rollback.run { plan := { steps := [{}, {}] } } [true, false]).completed = 1 ∧
      (rollback.run (rollback.run { plan := { steps := [{}, {}] } } [true, false]).rebuilt
          [true]).completed =
        (rollback.run { plan := { steps := [{}, {}] } } [true, false, true]).completed := by
  have hresumes := @rollback_resumes { steps := [{}, {}] } (by decide) [true, false, true]
  obtain ⟨hcompleted, -, -, hsame⟩ := hresumes.2 [true, false] [true] rfl
  exact ⟨hcompleted, hsame⟩

end FailureFabric
