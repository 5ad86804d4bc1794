import FailureFabric.Library.Decoder

namespace FailureFabric.Library

/-!
# Parsers on checked memory

A parser that reads its input through addresses and machine words.  An access outside of the memory
is a *fault*, which is something else than refusing the input, and has to be shown impossible.

* `Outcome` — a fault, a refusal, or a value; `bytesAt` — an access to memory;
* `Checked` — parsers with a state, such as a cursor;
* `Refines` — such a parser never faults and answers what a decoder on natural numbers answers,
  while its state moves in one direction; the laws `Refines.pure`, `Refines.bind`, `Refines.map`,
  `Refines.check`.
-/

/-- What a parser on checked memory comes to. -/
inductive Outcome (α : Type)
  /-- Memory was accessed where there is none. -/
  | fault
  /-- The input was refused. -/
  | refused
  | value (a : α)

namespace Outcome

variable {α β : Type}

/-- Go on with the value. -/
def bind : Outcome α → (α → Outcome β) → Outcome β
  | .fault, _ => .fault
  | .refused, _ => .refused
  | .value a, f => f a

instance : Monad Outcome where
  pure := .value
  bind := Outcome.bind

/-- Refuse the input unless `p`. -/
def check (p : Prop) [Decidable p] : Outcome Unit := if p then .value () else .refused

/-- The outcome of a parser that cannot fault. -/
def ofOption : Option α → Outcome α
  | none => .refused
  | some a => .value a

/-- A computation that has a value goes on with it. -/
@[simp] theorem bind_value (a : α) (f : α → Outcome β) : (Outcome.value a >>= f) = f a := rfl

/-- A check, and the guard for the same condition: what follows is compared where it holds. -/
theorem check_bind_eq {p q : Prop} [Decidable p] [Decidable q] (h : p ↔ q) {f : Unit → Outcome β}
    {g : Unit → Option α} {k : α → β} (hfg : q → f () = ofOption ((g ()).map k)) :
    (check p >>= f) = ofOption ((guard q >>= g).map k) := by
  by_cases hq : q
  · rw [check, if_pos (h.mpr hq), guard, if_pos hq]
    exact hfg hq
  · rw [check, if_neg (h.not.mpr hq), guard, if_neg hq]
    rfl

/-- A refusal is no fault. -/
theorem ofOption_ne_fault (o : Option α) : ofOption o ≠ .fault := by
  cases o <;> simp [ofOption]

end Outcome

/-- The `len` items of the memory from an address on. -/
def bytesAt {β : Type} (mem : List β) (addr len : Nat) :
    Outcome { bs : List β // bs.length = len } :=
  if h : addr + len ≤ mem.length then
    .value ⟨(mem.drop addr).take len, by rw [List.length_take, List.length_drop]; omega⟩
  else .fault

/-- An access inside the memory does not fault. -/
theorem bytesAt_eq {β : Type} {mem : List β} {addr len : Nat} (h : addr + len ≤ mem.length) :
    bytesAt mem addr len =
      .value ⟨(mem.drop addr).take len, by rw [List.length_take, List.length_drop]; omega⟩ :=
  dif_pos h

/-- A parser of `α` with states of type `σ`. -/
abbrev Checked (σ α : Type) := StateT σ Outcome α

/-- Refuse the input unless `p`. -/
def Checked.check {σ : Type} (p : Prop) [Decidable p] : Checked σ Unit := fun s =>
  if p then .value ((), s) else .refused

/-- How the states of a parser are those of a decoder: the view of a state, what is known of every
    state, and a direction in which states move. -/
structure Refinement (σ τ : Type) where
  view : σ → τ
  inv : σ → Prop
  moves : σ → σ → Prop
  moves_refl : ∀ s, moves s s
  moves_trans : ∀ {s s' s''}, moves s s' → moves s' s'' → moves s s''

/-- The parser does not fault, answers what the decoder answers on the view of the state, and moves
    the state in the direction given. -/
def Refines {σ τ α : Type} (R : Refinement σ τ) (m : Checked σ α) (m' : Decoder τ α) : Prop :=
  ∀ s, R.inv s → (m s = .refused ∧ m' (R.view s) = none) ∨
    ∃ a s', m s = .value (a, s') ∧ m' (R.view s) = some (a, R.view s') ∧ R.moves s s' ∧ R.inv s'

namespace Refines

variable {σ τ α γ : Type} {R : Refinement σ τ} {m : Checked σ α} {m' : Decoder τ α}

/-- An answer without a read. -/
theorem pure (a : α) : Refines R (pure a : Checked σ α) (Pure.pure a : Decoder τ α) :=
  fun s hs => .inr ⟨a, s, rfl, rfl, R.moves_refl s, hs⟩

/-- Two parsers in sequence refine two decoders in sequence. -/
theorem bind {f : α → Checked σ γ} {f' : α → Decoder τ γ} (hm : Refines R m m')
    (hf : ∀ a, Refines R (f a) (f' a)) : Refines R (m >>= f) (m' >>= f') := by
  intro s hs
  have hrun : (m >>= f) s = (m s).bind fun p => f p.1 p.2 := rfl
  have hrun' : (m' >>= f') (R.view s) = (m' (R.view s)).bind fun p => f' p.1 p.2 := rfl
  rw [hrun, hrun']
  rcases hm s hs with ⟨hrefused, hnone⟩ | ⟨a, s₁, hvalue, hsome, hmoves, hinv⟩
  · rw [hrefused, hnone]
    exact .inl ⟨rfl, rfl⟩
  · rw [hvalue, hsome]
    rcases hf a s₁ hinv with hrefused | ⟨c, s₂, hvalue₂, hsome₂, hmoves₂, hinv₂⟩
    · exact .inl hrefused
    · exact .inr ⟨c, s₂, hvalue₂, hsome₂, R.moves_trans hmoves hmoves₂, hinv₂⟩

/-- A function of the answer. -/
theorem map (f : α → γ) (hm : Refines R m m') : Refines R (f <$> m) (f <$> m') :=
  hm.bind fun a => pure (f a)

/-- A test. -/
theorem check (p : Prop) [Decidable p] :
    Refines R (Checked.check p : Checked σ Unit) (guard p : Decoder τ Unit) := by
  intro s hs
  by_cases hp : p
  · refine .inr ⟨(), s, if_pos hp, ?_, R.moves_refl s, hs⟩
    rw [show (guard p : Decoder τ Unit) = Pure.pure () from if_pos hp]
    rfl
  · refine .inl ⟨if_neg hp, ?_⟩
    rw [show (guard p : Decoder τ Unit) = failure from if_neg hp]
    rfl

end Refines

end FailureFabric.Library
