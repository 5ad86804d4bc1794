import FailureFabric.Recovery
import FailureFabric.Library.Machine

namespace FailureFabric

open Library

/-!
# Runs of the recovery ownership

The ownership as a machine over its two mutators, with any arguments in any order.

* `RecoveryOwnership.Grants` — when a call is granted; `step_cases` says all that a call can do;
* `RecoveryOwnership.Coherent` — the invariant: there is an owner exactly when there is a
  generation;
* `generation_step`, `generation_run` — the generation never goes back, and every granted call
  moves it on;
* `ownership_chain` — the chain of holders, over all runs.
-/

/-- The two mutators with their arguments. -/
inductive OwnershipCall
  | adopt (owner : RecoveryOwner) (gen : Generation) (boot : WorkerBootId)
      (authority : AuthorityEnvelope)
  | transfer (owner : RecoveryOwner) (gen : Generation) (boot : WorkerBootId)
      (authority : AuthorityEnvelope)
deriving DecidableEq

namespace OwnershipCall

/-- The owner that a call names. -/
def owner : OwnershipCall → RecoveryOwner
  | adopt o _ _ _ | transfer o _ _ _ => o

/-- The generation that it brings. -/
def gen : OwnershipCall → Generation
  | adopt _ g _ _ | transfer _ g _ _ => g

/-- The boot of the owner. -/
def boot : OwnershipCall → WorkerBootId
  | adopt _ _ b _ | transfer _ _ b _ => b

end OwnershipCall

namespace RecoveryOwnership

/-- One call and its result. -/
def step (own : RecoveryOwnership) : OwnershipCall → RecoveryOwnership × Bool
  | .adopt owner gen boot authority => own.adopt owner gen boot authority
  | .transfer owner gen boot authority => own.transfer owner gen boot authority

/-- There is an owner exactly when there is a generation. -/
def Coherent (own : RecoveryOwnership) : Prop :=
  own.owner = .NONE ↔ own.generation.isUnset = true

/-- The call installs its arguments: there is an owner and a generation to install, and no
    present holder with a generation that is as great. -/
def Grants (own : RecoveryOwnership) (c : OwnershipCall) : Prop :=
  c.owner ≠ .NONE ∧ c.gen.isUnset = false ∧ (own.owner = .NONE ∨ own.generation < c.gen)

/-- **All that a call can do.** It returns false and changes nothing, or it returns true and
    installs its arguments. -/
theorem step_cases (own : RecoveryOwnership) (c : OwnershipCall) :
    own.step c = (own, false) ∨
      own.step c = (⟨c.owner, c.gen, c.boot⟩, true) ∧ own.Grants c := by
  cases c with
  | adopt owner gen boot authority =>
    obtain h | ⟨h, howner, hgen, hfree⟩ := own.adopt_cases owner gen boot authority
    · exact .inl h
    · exact .inr ⟨h, howner, hgen, .inl hfree⟩
  | transfer owner gen boot authority => exact own.transfer_cases owner gen boot authority

/-- A call that returns false changes nothing. -/
theorem step_of_false {own : RecoveryOwnership} {c : OwnershipCall}
    (h : (own.step c).2 = false) : (own.step c).1 = own := by
  obtain hkept | ⟨hgranted, -⟩ := own.step_cases c
  · rw [hkept]
  · rw [hgranted] at h
    exact absurd h (by simp)

/-- A call that returns true installs its arguments. -/
theorem step_of_true {own : RecoveryOwnership} {c : OwnershipCall} (h : (own.step c).2 = true) :
    (own.step c).1 = ⟨c.owner, c.gen, c.boot⟩ ∧ own.Grants c := by
  obtain hkept | ⟨hgranted, hgrants⟩ := own.step_cases c
  · rw [hkept] at h
    exact absurd h (by simp)
  · rw [hgranted]
    exact ⟨rfl, hgrants⟩

/-! ### What a step keeps -/

/-- An unassigned ownership is coherent. -/
theorem coherent_default : Coherent {} := iff_of_true rfl rfl

/-- Every call keeps an ownership coherent. -/
theorem coherent_step {own : RecoveryOwnership} (h : own.Coherent) (c : OwnershipCall) :
    (own.step c).1.Coherent := by
  obtain hkept | ⟨hgranted, howner, hgen, -⟩ := own.step_cases c
  · rw [hkept]
    exact h
  · rw [hgranted]
    exact iff_of_false howner (by rw [hgen]; decide)

/-- A granted call moves the generation on, also the first one. -/
theorem generation_lt_step {own : RecoveryOwnership} (h : own.Coherent) {c : OwnershipCall}
    (htrue : (own.step c).2 = true) : own.generation < (own.step c).1.generation := by
  obtain ⟨hinstalled, -, hgen, hfree | hnewer⟩ := step_of_true htrue
  · rw [hinstalled, Generation.lt_iff, (Generation.isUnset_iff _).mp (h.mp hfree)]
    exact (Generation.isUnset_eq_false_iff _).mp hgen
  · rw [hinstalled]
    exact hnewer

/-- No call takes the generation back. -/
theorem generation_step {own : RecoveryOwnership} (h : own.Coherent) (c : OwnershipCall) :
    own.generation.value.toNat ≤ (own.step c).1.generation.value.toNat := by
  cases hresult : (own.step c).2 with
  | false => exact Nat.le_of_eq (by rw [step_of_false hresult])
  | true =>
    have hlt := generation_lt_step h hresult
    rw [Generation.lt_iff] at hlt
    omega

end RecoveryOwnership

/-! ### Runs -/

/-- The ownership as a machine. -/
def ownership : Machine RecoveryOwnership OwnershipCall Bool where
  step := RecoveryOwnership.step

/-- So do all the calls of a run. -/
theorem coherent_run (calls : List OwnershipCall) : (ownership.run {} calls).Coherent :=
  Machine.run_induction (M := ownership) (P := RecoveryOwnership.Coherent)
    (fun _ c h => RecoveryOwnership.coherent_step h c) RecoveryOwnership.coherent_default calls

/-- No run takes the generation back. -/
theorem generation_run {own : RecoveryOwnership} (h : own.Coherent) (calls : List OwnershipCall) :
    own.generation.value.toNat ≤ (ownership.run own calls).generation.value.toNat := by
  have hrun : (ownership.run own calls).Coherent ∧
      own.generation.value.toNat ≤ (ownership.run own calls).generation.value.toNat :=
    Machine.run_induction (M := ownership)
      (P := fun s => s.Coherent ∧ own.generation.value.toNat ≤ s.generation.value.toNat)
      (fun s c hs => ⟨RecoveryOwnership.coherent_step hs.1 c,
        Nat.le_trans hs.2 (RecoveryOwnership.generation_step hs.1 c)⟩)
      ⟨h, Nat.le_refl _⟩ calls
  exact hrun.2

/-- A holder whose generation has been passed is not the present one. -/
theorem isCurrent_of_lt {own : RecoveryOwnership} {gen : Generation}
    (hlt : gen < own.generation) (boot : WorkerBootId) : own.isCurrent boot gen = false := by
  have hne : gen ≠ own.generation := by
    rintro rfl
    rw [Generation.lt_iff] at hlt
    omega
  simp [RecoveryOwnership.isCurrent, hne]

/-- The generation of a granted call is one that the rest of the run does not fall behind. -/
theorem gen_le_run {pre : List OwnershipCall} {c : OwnershipCall}
    (hc : ((ownership.run {} pre).step c).2 = true) (mid : List OwnershipCall) :
    c.gen.value.toNat ≤ (ownership.run {} (pre ++ c :: mid)).generation.value.toNat := by
  have hafter : ((ownership.run {} pre).step c).1.generation = c.gen := by
    rw [(RecoveryOwnership.step_of_true hc).1]
  have hle := generation_run (RecoveryOwnership.coherent_step (coherent_run pre) c) mid
  rw [hafter] at hle
  rw [Machine.run_append]
  exact hle

/-- **A chain of single holders.** In every run from the unassigned ownership: a call that
    returns false changes nothing, one that returns true moves the generation on, there is an
    owner exactly when the generation is not zero, and a holder that has been followed by another
    is never again the present one. -/
theorem ownership_chain (calls : List OwnershipCall) :
    (∀ pre c post, calls = pre ++ c :: post →
      (((ownership.run {} pre).step c).2 = false →
        ownership.run {} (pre ++ [c]) = ownership.run {} pre) ∧
      (((ownership.run {} pre).step c).2 = true →
        (ownership.run {} pre).generation < (ownership.run {} (pre ++ [c])).generation)) ∧
    ((ownership.run {} calls).owner = .NONE ↔ (ownership.run {} calls).generation.value = 0) ∧
    (∀ pre c mid d post, calls = pre ++ c :: (mid ++ d :: post) →
      ((ownership.run {} pre).step c).2 = true →
      ((ownership.run {} (pre ++ c :: mid)).step d).2 = true →
      (ownership.run {} calls).isCurrent c.boot c.gen = false) := by
  refine ⟨fun pre c post _ => ⟨fun hfalse => ?_, fun htrue => ?_⟩, ?_, ?_⟩
  · rw [Machine.run_concat]
    exact RecoveryOwnership.step_of_false hfalse
  · rw [Machine.run_concat]
    exact RecoveryOwnership.generation_lt_step (coherent_run pre) htrue
  · exact (coherent_run calls).trans beq_iff_eq
  · rintro pre c mid d post rfl hc hd
    refine isCurrent_of_lt ?_ c.boot
    have hpassed := RecoveryOwnership.generation_lt_step (coherent_run (pre ++ c :: mid)) hd
    rw [(RecoveryOwnership.step_of_true hd).1, Generation.lt_iff] at hpassed
    rw [Generation.lt_iff]
    calc c.gen.value.toNat
        ≤ (ownership.run {} (pre ++ c :: mid)).generation.value.toNat := gen_le_run hc mid
      _ < d.gen.value.toNat := hpassed
      _ ≤ (ownership.run {} ((pre ++ c :: mid) ++ d :: post)).generation.value.toNat :=
          gen_le_run hd post
      _ = (ownership.run {} (pre ++ c :: (mid ++ d :: post))).generation.value.toNat := by
          rw [List.append_assoc, List.cons_append]

end FailureFabric
