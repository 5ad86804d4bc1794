import FailureFabric.Authority
import Mathlib.Algebra.Order.Ring.Nat
import Mathlib.Data.List.Nodup

namespace FailureFabric

/-!
# Incarnations of a worker

A worker that restarts goes on with the next envelope: a fresh boot, and every generation one
further.  The three fences order the incarnations of a chain.

* `incarnation e₀ boots i` — the envelope after the first `i` boots;
* `incarnation_generation` — a generation has moved by the number of boots, one lemma for all
  four; `incarnation_workerBoot`, `incarnation_attempt`, … — the other dimensions;
* `fences_incarnations` — a completion passes from the same incarnation only, a failure from the
  same or a later one, a recovery command from a later one only.
-/

open AuthorityEnvelope

/-- The envelope after the first `i` of the boots. -/
def incarnation (e₀ : AuthorityEnvelope) (boots : List WorkerBootId) (i : Nat) :
    AuthorityEnvelope :=
  (boots.take i).foldl nextBoot e₀

section Chain

variable {e₀ : AuthorityEnvelope} {boots : List WorkerBootId}

/-- The next incarnation comes of the one before by its boot. -/
theorem incarnation_succ {i : Nat} (hi : i < boots.length) :
    incarnation e₀ boots (i + 1) = (incarnation e₀ boots i).nextBoot boots[i] := by
  unfold incarnation
  rw [List.take_add_one, List.getElem?_eq_getElem hi, Option.toList_some, List.foldl_append,
    List.foldl_cons, List.foldl_nil]

/-- What `next_boot` keeps, every incarnation has. -/
theorem incarnation_kept {α : Type} {f : AuthorityEnvelope → α}
    (hf : ∀ e boot, f (e.nextBoot boot) = f e) (i : Nat) : f (incarnation e₀ boots i) = f e₀ := by
  unfold incarnation
  induction boots.take i generalizing e₀ with
  | nil => rfl
  | cons b bs ih => rw [List.foldl_cons, ih, hf]

/-- All have the epoch of the first. -/
theorem incarnation_coordinatorEpoch (i : Nat) :
    (incarnation e₀ boots i).coordinatorEpoch = e₀.coordinatorEpoch :=
  incarnation_kept (f := coordinatorEpoch) (fun _ _ => rfl) i

/-- All have its attempt. -/
theorem incarnation_attempt (i : Nat) : (incarnation e₀ boots i).attempt = e₀.attempt :=
  incarnation_kept (f := attempt) (fun _ _ => rfl) i

/-- The boot of an incarnation, with the first one in front. -/
theorem incarnation_workerBoot {i : Nat} (hi : i < (e₀.workerBoot :: boots).length) :
    (incarnation e₀ boots i).workerBoot = (e₀.workerBoot :: boots)[i] := by
  cases i with
  | zero => rfl
  | succ i => rw [incarnation_succ (Nat.lt_of_succ_lt_succ hi)]; rfl

/-- **A generation counts the boots**, as long as it does not wrap. -/
theorem incarnation_generation {f : AuthorityEnvelope → Generation}
    (hf : ∀ e boot, f (e.nextBoot boot) = (f e).next)
    (hwrap : (f e₀).value.toNat + boots.length < 2 ^ 64) {i : Nat} (hi : i ≤ boots.length) :
    (f (incarnation e₀ boots i)).value.toNat = (f e₀).value.toNat + i := by
  induction i with
  | zero => rfl
  | succ i ih =>
    have hbefore := ih (by omega)
    rw [incarnation_succ hi, hf, Generation.next, UInt64.toNat_add, hbefore,
      show (1 : UInt64).toNat = 1 from rfl]
    omega

/-- A generation of an earlier incarnation is below that of a later one. -/
theorem incarnation_lt_iff {f : AuthorityEnvelope → Generation}
    (hf : ∀ e boot, f (e.nextBoot boot) = (f e).next)
    (hwrap : (f e₀).value.toNat + boots.length < 2 ^ 64) {i k : Nat} (hi : i ≤ boots.length)
    (hk : k ≤ boots.length) : f (incarnation e₀ boots i) < f (incarnation e₀ boots k) ↔ i < k := by
  rw [Generation.lt_iff, incarnation_generation hf hwrap hi, incarnation_generation hf hwrap hk]
  omega

/-- A generation that every boot advances is ordered as the incarnations are, unless it wraps. -/
theorem incarnation_le_iff {f : AuthorityEnvelope → Generation}
    (hf : ∀ e boot, f (e.nextBoot boot) = (f e).next)
    (hwrap : (f e₀).value.toNat + boots.length < 2 ^ 64) {i k : Nat} (hi : i ≤ boots.length)
    (hk : k ≤ boots.length) : f (incarnation e₀ boots i) ≤ f (incarnation e₀ boots k) ↔ i ≤ k := by
  rw [Generation.le_iff, incarnation_generation hf hwrap hi, incarnation_generation hf hwrap hk]
  omega

/-- Distinct boots tell the incarnations apart. -/
theorem incarnation_workerBoot_inj (hdistinct : (e₀.workerBoot :: boots).Nodup) {i k : Nat}
    (hi : i ≤ boots.length) (hk : k ≤ boots.length) :
    (incarnation e₀ boots i).workerBoot = (incarnation e₀ boots k).workerBoot ↔ i = k := by
  rw [incarnation_workerBoot (Nat.lt_succ_of_le hi), incarnation_workerBoot (Nat.lt_succ_of_le hk)]
  exact hdistinct.getElem_inj_iff

/-- No incarnation has the null boot. -/
theorem incarnation_workerBoot_isNull (hboot : ∀ b ∈ e₀.workerBoot :: boots, b.isNull = false)
    {i : Nat} (hi : i ≤ boots.length) : (incarnation e₀ boots i).workerBoot.isNull = false := by
  rw [incarnation_workerBoot (Nat.lt_succ_of_le hi)]
  exact hboot _ (List.getElem_mem _)

end Chain

/-- An envelope with a boot is not unset. -/
theorem AuthorityEnvelope.isUnset_of_workerBoot {e : AuthorityEnvelope}
    (h : e.workerBoot.isNull = false) : e.isUnset = false := by
  simp [isUnset, h]

/-! ### The fences -/

section Fences

variable {e₀ : AuthorityEnvelope} {boots : List WorkerBootId} {i k : Nat}

/-- A completion passes from the current incarnation only. -/
theorem fenceCompletion_incarnation (hboot : ∀ b ∈ e₀.workerBoot :: boots, b.isNull = false)
    (hdistinct : (e₀.workerBoot :: boots).Nodup) (hi : i ≤ boots.length) (hk : k ≤ boots.length) :
    (fenceCompletion (incarnation e₀ boots i) (incarnation e₀ boots k) {}).accepted = true ↔
      i = k := by
  have hnotNull := incarnation_workerBoot_isNull hboot hk
  rw [fenceCompletion_accepted_iff]
  constructor
  · rintro ⟨-, -, -, -, hsame, -⟩
    exact (incarnation_workerBoot_inj hdistinct hi hk).mp (hsame hnotNull)
  · rintro rfl
    have hterminal : isUnset {} = true := by decide
    have hirrefl : ∀ g : Generation, ¬ g < g := fun g => by
      rw [Generation.lt_iff]
      exact Nat.lt_irrefl _
    refine ⟨isUnset_of_workerBoot hnotNull, hirrefl _, fun _ => rfl, fun _ => rfl, fun _ => rfl,
      hirrefl _, hirrefl _, fun h => ?_⟩
    rw [hterminal] at h
    exact absurd h (by decide)

/-- A failure passes from the current incarnation and from those after it. -/
theorem fenceFailure_incarnation (hboot : ∀ b ∈ e₀.workerBoot :: boots, b.isNull = false)
    (hattempt : e₀.attemptGeneration.value.toNat + boots.length < 2 ^ 64)
    (hi : i ≤ boots.length) (hk : k ≤ boots.length) :
    (fenceFailure (incarnation e₀ boots i) (incarnation e₀ boots k)).accepted = true ↔ k ≤ i := by
  have hnotNull := incarnation_workerBoot_isNull hboot hi
  rw [fenceFailure_accepted_iff, incarnation_lt_iff (fun _ _ => rfl) hattempt hi hk,
    incarnation_le_iff (fun _ _ => rfl) hattempt hi hk, incarnation_attempt, incarnation_attempt,
    incarnation_coordinatorEpoch, incarnation_coordinatorEpoch, Generation.lt_iff]
  constructor
  · rintro ⟨-, -, -, hnotOlder, -⟩
    omega
  · intro hle
    refine ⟨isUnset_of_workerBoot hnotNull, Nat.lt_irrefl _, fun _ => rfl, by omega,
      fun _ _ hother => ?_⟩
    -- another boot is another incarnation, hence a later one
    have hne : i ≠ k := fun h => hother (by rw [h])
    omega

/-- A recovery command passes from a later incarnation only. -/
theorem fenceRecovery_incarnation (hboot : ∀ b ∈ e₀.workerBoot :: boots, b.isNull = false)
    (hrecovery : e₀.recoveryGeneration.value.toNat + boots.length < 2 ^ 64)
    (hi : i ≤ boots.length) (hk : k ≤ boots.length) :
    (fenceRecovery (incarnation e₀ boots i) (incarnation e₀ boots k)
      (incarnation e₀ boots k).recoveryGeneration).accepted = true ↔ k < i := by
  have hnotNull := incarnation_workerBoot_isNull hboot hi
  rw [fenceRecovery_accepted_iff, incarnation_le_iff (fun _ _ => rfl) hrecovery hi hk,
    incarnation_attempt, incarnation_attempt, incarnation_coordinatorEpoch,
    incarnation_coordinatorEpoch, Generation.lt_iff]
  constructor
  · rintro ⟨-, -, hnewer, -⟩
    omega
  · intro hlt
    exact ⟨isUnset_of_workerBoot hnotNull, Nat.lt_irrefl _, by omega, fun _ => rfl⟩

end Fences

/-- **Fencing orders the incarnations exactly.** Along any chain of distinct boots whose
    generations do not wrap. -/
theorem fences_incarnations {e₀ : AuthorityEnvelope} {boots : List WorkerBootId}
    (hboot : ∀ b ∈ e₀.workerBoot :: boots, b.isNull = false)
    (hdistinct : (e₀.workerBoot :: boots).Nodup)
    (hattempt : e₀.attemptGeneration.value.toNat + boots.length < 2 ^ 64)
    (hrecovery : e₀.recoveryGeneration.value.toNat + boots.length < 2 ^ 64) {i k : Nat}
    (hi : i ≤ boots.length) (hk : k ≤ boots.length) :
    ((fenceCompletion (incarnation e₀ boots i) (incarnation e₀ boots k) {}).accepted = true ↔
        i = k) ∧
      ((fenceFailure (incarnation e₀ boots i) (incarnation e₀ boots k)).accepted = true ↔
        k ≤ i) ∧
      ((fenceRecovery (incarnation e₀ boots i) (incarnation e₀ boots k)
          (incarnation e₀ boots k).recoveryGeneration).accepted = true ↔ k < i) :=
  ⟨fenceCompletion_incarnation hboot hdistinct hi hk, fenceFailure_incarnation hboot hattempt hi hk,
    fenceRecovery_incarnation hboot hrecovery hi hk⟩

/-- The first boot of a worker that restarts twice. -/
def firstBoot : AuthorityEnvelope :=
  { coordinatorEpoch := ⟨3⟩, workerBoot := ⟨Uuid128.ofByte 1⟩, attempt := ⟨Uuid128.ofByte 9⟩ }

/-- The two boots after it. -/
def laterBoots : List WorkerBootId := [⟨Uuid128.ofByte 2⟩, ⟨Uuid128.ofByte 3⟩]

/-- Seen from the second boot, the third one is later. -/
theorem fences_incarnations_later :
    ((fenceCompletion (incarnation firstBoot laterBoots 2)
          (incarnation firstBoot laterBoots 1) {}).accepted = true ↔ 2 = 1) ∧
      ((fenceFailure (incarnation firstBoot laterBoots 2)
          (incarnation firstBoot laterBoots 1)).accepted = true ↔ 1 ≤ 2) ∧
      ((fenceRecovery (incarnation firstBoot laterBoots 2) (incarnation firstBoot laterBoots 1)
          (incarnation firstBoot laterBoots 1).recoveryGeneration).accepted = true ↔ 1 < 2) :=
  fences_incarnations (by decide) (by decide) (by decide) (by decide) (by decide) (by decide)

end FailureFabric
