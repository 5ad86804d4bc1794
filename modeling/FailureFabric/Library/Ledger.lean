import Mathlib.Algebra.BigOperators.Group.Finset.Basic
import Mathlib.Data.List.Perm.Subperm

namespace FailureFabric.Library

/-!
# Ledgers

Parties that may spend what was granted.  Each party holds some grants that it has not spent; there
may be infinitely many parties, so the sum is taken over every finite set of them.

* `Covered` — what was spent and what the parties hold is covered by what was granted;
* `Covered.step` — one party takes a step;
* `tally` — how many events of a history count, each for some party;
* `tally_le` — where every party pays for its own, the whole is paid for.
-/

variable {κ : Type} {held held' : κ → Nat} {spent granted : Nat}

/-- What was spent, with what any of the parties hold, is at most what was granted. -/
def Covered (held : κ → Nat) (spent granted : Nat) : Prop :=
  ∀ parties : Finset κ, spent + ∑ k ∈ parties, held k ≤ granted

/-- With nothing held and nothing spent the books are covered. -/
theorem covered_zero : Covered (fun _ : κ => 0) 0 0 := by
  intro parties
  rw [Finset.sum_const_zero, Nat.add_zero]

/-- No more is spent than was granted. -/
theorem Covered.spent_le (h : Covered held spent granted) : spent ≤ granted := by
  have hnone := h ∅
  rwa [Finset.sum_empty] at hnone

/-- **Step rule.** A party that spends, or passes on, no more than it held and is granted keeps the
    books covered. -/
theorem Covered.step [DecidableEq κ] (h : Covered held spent granted) (k : κ) {more new : Nat}
    (hother : ∀ j, j ≠ k → held' j = held j) (hk : held' k + more ≤ held k + new) :
    Covered held' (spent + more) (granted + new) := by
  intro parties
  have hrest : ∑ j ∈ parties.erase k, held' j = ∑ j ∈ parties.erase k, held j :=
    Finset.sum_congr rfl fun j hj => hother j (Finset.ne_of_mem_erase hj)
  have hbefore := h (insert k (parties.erase k))
  rw [Finset.sum_insert (Finset.notMem_erase k parties)] at hbefore
  have hafter : ∑ j ∈ parties, held' j ≤ held' k + ∑ j ∈ parties.erase k, held' j := by
    by_cases hmem : k ∈ parties
    · rw [Finset.add_sum_erase parties held' hmem]
    · rw [Finset.erase_eq_of_notMem hmem]
      omega
  omega

/-! ### Counting events -/

section Tally

variable {α : Type} {f g : α → Option κ}

/-- How many events count, where `f` says for whom. -/
def tally (f : α → Option κ) (l : List α) : Nat := (l.filterMap f).length

/-- Nothing happened. -/
@[simp] theorem tally_nil (f : α → Option κ) : tally f [] = 0 := rfl

/-- One more event counts or does not. -/
@[simp] theorem tally_cons (f : α → Option κ) (x : α) (l : List α) :
    tally f (x :: l) = (if (f x).isSome then 1 else 0) + tally f l := by
  unfold tally
  cases hx : f x with
  | none =>
    rw [List.filterMap_cons_none hx]
    simp
  | some k =>
    rw [List.filterMap_cons_some hx, List.length_cons]
    simp [Nat.add_comm]

/-- Where no event counts, the count is zero. -/
theorem tally_eq_zero {l : List α} (h : ∀ x ∈ l, f x = none) : tally f l = 0 :=
  congrArg List.length (List.filterMap_eq_nil_iff.mpr h)

/-- A trace is counted part by part. -/
theorem tally_append (f : α → Option κ) (l l' : List α) :
    tally f (l ++ l') = tally f l + tally f l' := by
  unfold tally
  rw [List.filterMap_append, List.length_append]

/-- Where every event that counts does so for `k`, the others have none. -/
theorem count_filterMap [DecidableEq κ] {l : List α} {k : κ}
    (h : ∀ x ∈ l, f x = none ∨ f x = some k) (j : κ) :
    (l.filterMap f).count j = if j = k then tally f l else 0 := by
  have hkeys : ∀ i ∈ l.filterMap f, k = i := by
    intro i hi
    obtain ⟨x, hx, hfx⟩ := List.mem_filterMap.mp hi
    rcases h x hx with hnone | hsome
    · rw [hnone] at hfx
      cases hfx
    · exact Option.some.inj (hsome.symm.trans hfx)
  split_ifs with hj
  · rw [hj]
    exact List.count_eq_length.mpr hkeys
  · exact List.count_eq_zero.mpr fun hmem => hj (hkeys j hmem).symm

/-- If the events of one kind are no more than those of another for every party, they are no more
    on the whole. -/
theorem tally_le [DecidableEq κ] {l : List α}
    (h : ∀ k, (l.filterMap f).count k ≤ (l.filterMap g).count k) : tally f l ≤ tally g l :=
  (List.subperm_ext_iff.mpr fun k _ => h k).length_le

end Tally

end FailureFabric.Library
