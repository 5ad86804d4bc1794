import Mathlib.Algebra.Order.BigOperators.Group.Finset
import Mathlib.Data.Prod.Lex
import Mathlib.Logic.Relation
import Mathlib.Order.WellFounded

namespace FailureFabric.Library

/-!
# Activity that ends

A relation says how a state may go on.  Its activity ends from a state if it cannot go on forever
from there, whichever way is chosen.

* `Terminates` — the activity from a state ends; `Terminates.mono` — with fewer steps too;
* `Terminates.not_forever`, `Terminates.exists_final` — there is no infinite activity, and there is
  a state where it stops;
* `terminates_of_measure` — the rule: every step makes a first measure smaller, or keeps it and
  makes a second one smaller; `terminates_of_sum` — the rule for a state of many places, where a
  step changes the measures at one of them;
* `Settles`, `Terminates.settles` — the activity ends, and only in states of a given kind.
-/

variable {σ : Type} {goesTo : σ → σ → Prop}

/-- The activity from a state ends, whichever way it goes. -/
def Terminates (goesTo : σ → σ → Prop) (s : σ) : Prop := Acc (fun s' s => goesTo s s') s

/-- With fewer steps the activity ends all the more. -/
theorem Terminates.mono {goesTo' : σ → σ → Prop} {s : σ} (h : Terminates goesTo s)
    (hsub : ∀ s s', goesTo' s s' → goesTo s s') : Terminates goesTo' s :=
  Subrelation.accessible (hsub _ _) h

/-- There is no infinite activity. -/
theorem Terminates.not_forever {s : σ} (h : Terminates goesTo s) (f : Nat → σ) (hf : f 0 = s) :
    ∃ n, ¬ goesTo (f n) (f (n + 1)) := by
  induction h generalizing f with
  | intro s _ ih =>
    by_cases hstep : goesTo (f 0) (f 1)
    · obtain ⟨n, hn⟩ := ih (f 1) (hf ▸ hstep) (fun n => f (n + 1)) rfl
      exact ⟨n + 1, hn⟩
    · exact ⟨0, hstep⟩

/-- Some way leads to a state that cannot go on. -/
theorem Terminates.exists_final {s : σ} (h : Terminates goesTo s) :
    ∃ s', Relation.ReflTransGen goesTo s s' ∧ ∀ s'', ¬ goesTo s' s'' := by
  induction h with
  | intro s _ ih =>
    by_cases hstep : ∃ s', goesTo s s'
    · obtain ⟨s', hs'⟩ := hstep
      obtain ⟨final, hpath, hfinal⟩ := ih s' hs'
      exact ⟨final, .head hs' hpath, hfinal⟩
    · exact ⟨s, .refl, fun s'' hs'' => hstep ⟨s'', hs''⟩⟩

/-- **Measure rule.** Where an invariant holds and every step makes the first measure smaller, or
    keeps it and makes the second one smaller, the activity ends. -/
theorem terminates_of_measure {I : σ → Prop} {f g : σ → Nat}
    (hI : ∀ s s', I s → goesTo s s' → I s')
    (hdecreases : ∀ s s', I s → goesTo s s' →
      f s' < f s ∨ f s' = f s ∧ g s' < g s)
    {s : σ} (hs : I s) : Terminates goesTo s := by
  generalize hp : (toLex (f s, g s) : Nat ×ₗ Nat) = p
  induction p using WellFoundedLT.induction generalizing s with
  | ind p ih =>
    refine Acc.intro s (fun s' hstep => ih _ ?_ (hI s s' hs hstep) rfl)
    rw [← hp]
    exact Prod.Lex.toLex_lt_toLex.mpr (hdecreases s s' hs hstep)

/-- **Measure rule for many places.** Where an invariant holds, and every step leaves the first
    measure alone at all places but one, and there makes it smaller, or keeps it and makes the
    second one smaller in the same way, the activity ends. -/
theorem terminates_of_sum {ι : Type} {I : σ → Prop} (places : Finset ι) (f g : σ → ι → Nat)
    (hI : ∀ s s', I s → goesTo s s' → I s')
    (hdecreases : ∀ s s', I s → goesTo s s' → ∃ i ∈ places, (∀ j, j ≠ i → f s' j = f s j) ∧
      (f s' i < f s i ∨ f s' i = f s i ∧ (∀ j, j ≠ i → g s' j = g s j) ∧ g s' i < g s i))
    {s : σ} (hs : I s) : Terminates goesTo s := by
  have hsum {h : σ → ι → Nat} {s s' : σ} {i : ι} (hi : i ∈ places)
      (hother : ∀ j, j ≠ i → h s' j = h s j) (hless : h s' i < h s i) :
      ∑ j ∈ places, h s' j < ∑ j ∈ places, h s j := by
    refine Finset.sum_lt_sum (fun j _ => ?_) ⟨i, hi, hless⟩
    by_cases hj : j = i
    · rw [hj]
      exact Nat.le_of_lt hless
    · exact Nat.le_of_eq (hother j hj)
  refine terminates_of_measure (f := fun s => ∑ i ∈ places, f s i)
    (g := fun s => ∑ i ∈ places, g s i) hI (fun s s' hs hstep => ?_) hs
  obtain ⟨i, hi, hother, hless | ⟨hsame, hothers, hless⟩⟩ := hdecreases s s' hs hstep
  · exact Or.inl (hsum hi hother hless)
  · refine Or.inr ⟨Finset.sum_congr rfl fun j _ => ?_, hsum hi hothers hless⟩
    by_cases hj : j = i
    · rw [hj, hsame]
    · exact hother j hj

/-- Left alone, the state settles: it cannot go on forever, it stops only where it is at rest, and
    there is such a place. -/
structure Settles (goesTo : σ → σ → Prop) (AtRest : σ → Prop) (s : σ) : Prop where
  finite : ∀ f : Nat → σ, f 0 = s → ∃ n, ¬ goesTo (f n) (f (n + 1))
  stops : ∀ s', Relation.ReflTransGen goesTo s s' → (∀ s'', ¬ goesTo s' s'') → AtRest s'
  reaches : ∃ s', Relation.ReflTransGen goesTo s s' ∧ AtRest s'

/-- **Settling rule.** Where the activity ends, an invariant holds, and whatever cannot go on is at
    rest, the state settles. -/
theorem Terminates.settles {I AtRest : σ → Prop} {s : σ} (h : Terminates goesTo s)
    (hI : ∀ s s', I s → goesTo s s' → I s') (hs : I s)
    (hrest : ∀ s, I s → (∀ s', ¬ goesTo s s') → AtRest s) : Settles goesTo AtRest s := by
  have hpath : ∀ s', Relation.ReflTransGen goesTo s s' → I s' := by
    intro s' hpath
    induction hpath with
    | refl => exact hs
    | tail _ hstep ih => exact hI _ _ ih hstep
  obtain ⟨final, hfinal, hstuck⟩ := h.exists_final
  exact ⟨h.not_forever, fun s' hs' hstuck => hrest s' (hpath s' hs') hstuck,
    final, hfinal, hrest final (hpath final hfinal) hstuck⟩

end FailureFabric.Library
