import Mathlib.Data.List.Basic

namespace FailureFabric.Library

/-!
# Texts written in blocks

A list in which every item is written as a block of the same length, as the digits of a byte are.

* `getElem?_pairs_left`, `getElem?_pairs_right`, `flatMap_range_pairs` — where the two halves of a
  block stand, and that they are the whole text;
* `append_lt_append_iff` — the lexicographic order decides on the front part first;
* `flatMap_lt_flatMap_iff` — blocks ordered as their items make texts ordered as the lists.
-/

variable {α β : Type*}

/-! ### Blocks of two -/

/-- The even places hold the first halves. -/
theorem getElem?_pairs_left (f g : α → β) (as : List α) (i : Nat) :
    (as.flatMap fun a => [f a, g a])[2 * i]? = as[i]?.map f := by
  induction as generalizing i with
  | nil => simp
  | cons a as ih =>
    cases i with
    | zero => rfl
    | succ i => exact ih i

/-- The odd places hold the second halves. -/
theorem getElem?_pairs_right (f g : α → β) (as : List α) (i : Nat) :
    (as.flatMap fun a => [f a, g a])[2 * i + 1]? = as[i]?.map g := by
  induction as generalizing i with
  | nil => simp
  | cons a as ih =>
    cases i with
    | zero => rfl
    | succ i => exact ih i

/-- Read two at a time and written again, a list of even length is unchanged. -/
theorem flatMap_range_pairs (d : β) (n : Nat) :
    ∀ xs : List β, xs.length = 2 * n →
      ((List.range n).flatMap fun i => [xs.getD (2 * i) d, xs.getD (2 * i + 1) d]) = xs := by
  induction n with
  | zero =>
    intro xs hlen
    rw [List.length_eq_zero_iff.mp hlen]
    rfl
  | succ n ih =>
    intro xs hlen
    match xs, hlen with
    | x :: y :: xs, hlen =>
      have htail := ih xs (by simp only [List.length_cons] at hlen; omega)
      rw [List.range_succ_eq_map, List.flatMap_cons, List.flatMap_map]
      -- the places of the tail are those of the list moved by two
      show [x, y] ++ _ = [x, y] ++ xs
      exact congrArg ([x, y] ++ ·) htail

/-! ### The lexicographic order -/

section Order

variable [LT β]

/-- Behind two front parts of one length, the order is that of the front parts, and where these
    agree that of the rest. -/
theorem append_lt_append_iff {xs ys : List β} (h : xs.length = ys.length) (s t : List β) :
    xs ++ s < ys ++ t ↔ xs < ys ∨ xs = ys ∧ s < t := by
  induction xs generalizing ys with
  | nil =>
    rw [List.length_eq_zero_iff.mp h.symm]
    simp
  | cons x xs ih =>
    cases ys with
    | nil => simp at h
    | cons y ys =>
      rw [List.cons_append, List.cons_append, List.cons_lt_cons_iff, List.cons_lt_cons_iff,
        ih (by simpa using h), List.cons.injEq]
      tauto

/-- Blocks of one length, ordered as the items they stand for, make texts that are ordered as the
    lists of items are. -/
theorem flatMap_lt_flatMap_iff [LT α] {f : α → List β} {k : Nat} (hlen : ∀ a, (f a).length = k)
    (hinj : Function.Injective f) (hlt : ∀ a b, f a < f b ↔ a < b) {as bs : List α}
    (h : as.length = bs.length) : as.flatMap f < bs.flatMap f ↔ as < bs := by
  induction as generalizing bs with
  | nil =>
    rw [List.length_eq_zero_iff.mp h.symm]
    simp
  | cons a as ih =>
    cases bs with
    | nil => simp at h
    | cons b bs =>
      rw [List.flatMap_cons, List.flatMap_cons,
        append_lt_append_iff ((hlen a).trans (hlen b).symm), hlt, hinj.eq_iff,
        ih (by simpa using h), List.cons_lt_cons_iff]

end Order

end FailureFabric.Library
