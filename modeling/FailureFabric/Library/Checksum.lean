import Mathlib.Logic.Function.Basic

namespace FailureFabric.Library

/-!
# Running checksums

A checksum that is folded over the symbols, one step a symbol.  When a step is injective in the
state and in the symbol, no change of a single symbol goes unnoticed, however many symbols follow.

* `foldl_step_injective` — different states stay different over the same symbols;
* `foldl_set_ne` — one changed symbol changes the result.
-/

variable {σ β : Type} {step : σ → β → σ}

/-- Different states stay different over the same symbols. -/
theorem foldl_step_injective (hstate : ∀ b, Function.Injective (step · b)) (bs : List β) :
    Function.Injective (fun h => bs.foldl step h) := by
  induction bs with
  | nil => exact fun _ _ heq => heq
  | cons b bs ih => exact fun h h' heq => hstate b (ih heq)

/-- **One changed symbol changes the result.** -/
theorem foldl_set_ne (hstate : ∀ b, Function.Injective (step · b))
    (hsymbol : ∀ h, Function.Injective (step h)) {bs : List β} {i : Nat} {b : β}
    (hi : i < bs.length) (hne : b ≠ bs[i]) (h : σ) :
    (bs.set i b).foldl step h ≠ bs.foldl step h := by
  induction bs generalizing i h with
  | nil => exact absurd hi (Nat.not_lt_zero i)
  | cons c bs ih =>
    cases i with
    | zero =>
      intro heq
      exact hne (hsymbol h (foldl_step_injective hstate bs heq))
    | succ i => exact ih (Nat.lt_of_succ_lt_succ hi) hne (step h c)

end FailureFabric.Library
