import FailureFabric.Authority

namespace FailureFabric

/-!
# Recovery ownership

At most one owner may drive recovery.  `adopt` assigns an unassigned ownership and `transfer`
moves an assigned one to a strictly greater generation.  `adopt_cases` and `transfer_cases` say all
that the two can do.
-/

/-- `RecoveryOwnership`. -/
structure RecoveryOwnership where
  owner : RecoveryOwner := .NONE
  generation : Generation := {}
  boot : WorkerBootId := {}
deriving DecidableEq

namespace RecoveryOwnership

variable (own : RecoveryOwnership)

/-- `is_unassigned`. -/
def isUnassigned : Bool := own.owner = .NONE

/-- `adopt`: the ownership after the call and the result.  The source tests the epoch of the
    authority and does nothing with the answer. -/
def adopt (owner : RecoveryOwner) (gen : Generation) (boot : WorkerBootId)
    (_authority : AuthorityEnvelope) : RecoveryOwnership × Bool :=
  if owner = .NONE then (own, false)
  else if gen.isUnset then (own, false)
  else if own.owner ≠ .NONE then (own, false)
  else (⟨owner, gen, boot⟩, true)

/-- `transfer`: the ownership after the call and the result. -/
def transfer (owner : RecoveryOwner) (gen : Generation) (boot : WorkerBootId)
    (authority : AuthorityEnvelope) : RecoveryOwnership × Bool :=
  if owner = .NONE then (own, false)
  else if gen.isUnset then (own, false)
  else if own.owner = .NONE then own.adopt owner gen boot authority
  else if ¬ own.generation < gen then (own, false)
  else (⟨owner, gen, boot⟩, true)

/-- `is_current`: the holder is the present one. -/
def isCurrent (boot : WorkerBootId) (gen : Generation) : Bool :=
  boot = own.boot && gen = own.generation

/-- **All that an adoption can do.** It returns false and changes nothing, or it returns true and
    installs its arguments in an ownership that nobody holds. -/
theorem adopt_cases (owner : RecoveryOwner) (gen : Generation) (boot : WorkerBootId)
    (authority : AuthorityEnvelope) :
    own.adopt owner gen boot authority = (own, false) ∨
      own.adopt owner gen boot authority = (⟨owner, gen, boot⟩, true) ∧
        owner ≠ .NONE ∧ gen.isUnset = false ∧ own.owner = .NONE := by
  unfold adopt
  split_ifs with howner hgen hassigned
  · exact .inl rfl
  · exact .inl rfl
  · exact .inl rfl
  · exact .inr ⟨rfl, howner, Bool.eq_false_iff.mpr hgen, not_not.mp hassigned⟩

/-- **All that a transfer can do.** It returns false and changes nothing, or it returns true and
    installs its arguments in an ownership that nobody holds or that has a smaller generation. -/
theorem transfer_cases (owner : RecoveryOwner) (gen : Generation) (boot : WorkerBootId)
    (authority : AuthorityEnvelope) :
    own.transfer owner gen boot authority = (own, false) ∨
      own.transfer owner gen boot authority = (⟨owner, gen, boot⟩, true) ∧
        owner ≠ .NONE ∧ gen.isUnset = false ∧ (own.owner = .NONE ∨ own.generation < gen) := by
  unfold transfer
  split_ifs with howner hgen hfree hnewer
  · exact .inl rfl
  · exact .inl rfl
  · obtain h | ⟨h, -⟩ := own.adopt_cases owner gen boot authority
    · exact .inl h
    · exact .inr ⟨h, howner, Bool.eq_false_iff.mpr hgen, .inl hfree⟩
  · exact .inr ⟨rfl, howner, Bool.eq_false_iff.mpr hgen, .inr hnewer⟩
  · exact .inl rfl

variable {own}

/-- An assigned ownership is not adopted again. -/
theorem adopt_of_assigned (h : own.isUnassigned = false) (owner : RecoveryOwner)
    (gen : Generation) (boot : WorkerBootId) (authority : AuthorityEnvelope) :
    (own.adopt owner gen boot authority).1 = own := by
  have hne : own.owner ≠ .NONE := by simpa [isUnassigned] using h
  obtain hkept | ⟨-, -, -, hnone⟩ := own.adopt_cases owner gen boot authority
  · rw [hkept]
  · exact absurd hnone hne

/-- An adoption without an owner or without a generation is refused. -/
theorem adopt_of_not_adoptable {owner : RecoveryOwner} {gen : Generation}
    (h : ¬ (owner ≠ .NONE ∧ gen.isUnset = false)) (boot : WorkerBootId)
    (authority : AuthorityEnvelope) : (own.adopt owner gen boot authority).1 = own := by
  obtain hkept | ⟨-, howner, hgen, -⟩ := own.adopt_cases owner gen boot authority
  · rw [hkept]
  · exact absurd ⟨howner, hgen⟩ h

/-- An unassigned ownership is adopted by any owner with a generation. -/
theorem adopt_of_unassigned (h : own.isUnassigned = true) {owner : RecoveryOwner}
    {gen : Generation} (howner : owner ≠ .NONE) (hgen : gen.isUnset = false)
    (boot : WorkerBootId) (authority : AuthorityEnvelope) :
    own.adopt owner gen boot authority = (⟨owner, gen, boot⟩, true) := by
  have hnone : own.owner = .NONE := by simpa [isUnassigned] using h
  unfold adopt
  rw [if_neg howner, if_neg (by simp [hgen]), if_neg (by simp [hnone])]

end RecoveryOwnership

end FailureFabric
