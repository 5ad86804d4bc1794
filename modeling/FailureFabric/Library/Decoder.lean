import Mathlib.Data.List.Basic

namespace FailureFabric.Library

/-!
# Decoders

A decoder takes a source of symbols and answers a value and the source after it, or rejects.
What a source is stays open: any state that is in order or not and has a list of symbols left
to read.  The laws below relate decoders to lists only, so that a codec is proved field by field
and never looks at positions.

* `Source` — the states a decoder reads from;
* `Reads m bs a` — on a source in order that has `bs` next, `m` answers `a`, uses exactly `bs`
  and leaves the source in order;
* `Reads.pure`, `Reads.bind`, `Reads.map`, `Reads.check`, `Reads.many` — the laws;
* `Refuses m bs` — on a source in order that has `bs` next, `m` rejects;
* `Ensures m P` — whatever `m` answers, on any source, has the property `P`, with its laws
  `Ensures.pure`, `Ensures.bind`, `Ensures.after`, `Ensures.check`, `Ensures.many`;
* `Takes I m R` — the way back: when reading is still in order after `m`, then `m` took some
  symbols `bs` for its answer `a`, and `R a bs`; `Ends m P` — how `m` leaves the source.
-/

/-- The states a decoder reads symbols of type `β` from. -/
class Source (σ : Type) (β : outParam Type) where
  /-- Reading is still in order. -/
  good : σ → Prop
  /-- The symbols left to read. -/
  unread : σ → List β

/-- A decoder of `α` from sources of type `σ`. -/
abbrev Decoder (σ α : Type) := StateT σ Option α

variable {σ β α γ : Type} [Source σ β]

/-- On a source in order with `bs` next, `m` answers `a` and uses exactly `bs`. -/
def Reads (m : Decoder σ α) (bs : List β) (a : α) : Prop :=
  ∀ s t, Source.good s → Source.unread s = bs ++ t →
    ∃ s', m s = some (a, s') ∧ Source.good s' ∧ Source.unread s' = t

namespace Reads

variable {m : Decoder σ α} {bs cs : List β} {a : α}

/-- An answer without a read uses nothing. -/
theorem pure (a : α) : Reads (pure a : Decoder σ α) [] a :=
  fun s _ hgood hunread => ⟨s, rfl, hgood, hunread⟩

/-- Two decoders in sequence read the concatenation. -/
theorem bind {f : α → Decoder σ γ} {c : γ} (hm : Reads m bs a) (hf : Reads (f a) cs c) :
    Reads (m >>= f) (bs ++ cs) c := by
  intro s t hgood hunread
  rw [List.append_assoc] at hunread
  obtain ⟨s₁, h₁, hgood₁, hunread₁⟩ := hm s (cs ++ t) hgood hunread
  obtain ⟨s₂, h₂, hgood₂, hunread₂⟩ := hf s₁ t hgood₁ hunread₁
  refine ⟨s₂, ?_, hgood₂, hunread₂⟩
  show (m s).bind (fun p => f p.1 p.2) = some (c, s₂)
  rw [h₁]
  exact h₂

/-- A function of the answer uses what the answer does. -/
theorem map (f : α → γ) (hm : Reads m bs a) : Reads (f <$> m) bs (f a) := by
  intro s t hgood hunread
  obtain ⟨s₁, h₁, hgood₁, hunread₁⟩ := hm s t hgood hunread
  refine ⟨s₁, ?_, hgood₁, hunread₁⟩
  show (m s).bind (fun p => some (f p.1, p.2)) = some (f a, s₁)
  rw [h₁]
  rfl

/-- A check that holds reads nothing. -/
theorem check {p : Prop} [Decidable p] (hp : p) : Reads (guard p : Decoder σ Unit) [] () := by
  have hguard : (guard p : Decoder σ Unit) = Pure.pure () := if_pos hp
  rw [hguard]
  exact Reads.pure ()

/-- A decoder followed by one that reads nothing. -/
theorem bind_nil {f : α → Decoder σ γ} {c : γ} (hm : Reads m bs a) (hf : Reads (f a) [] c) :
    Reads (m >>= f) bs c := by
  have h := hm.bind hf
  rwa [List.append_nil] at h

/-- A decoder after one that reads nothing. -/
theorem nil_bind {f : α → Decoder σ γ} {c : γ} (hm : Reads m [] a) (hf : Reads (f a) cs c) :
    Reads (m >>= f) cs c :=
  hm.bind hf

end Reads

/-- Run a decoder `n` times. -/
def readMany (m : Decoder σ α) : Nat → Decoder σ (List α)
  | 0 => pure []
  | n + 1 => do
    let a ← m
    let as ← readMany m n
    return a :: as

/-- Reading as many values as were written, one after the other, reads them all. -/
theorem Reads.many {m : Decoder σ α} {encode : α → List β} {as : List α}
    (h : ∀ a ∈ as, Reads m (encode a) a) :
    Reads (readMany m as.length) (as.flatMap encode) as := by
  induction as with
  | nil => exact Reads.pure []
  | cons a as ih =>
    rw [List.flatMap_cons]
    refine (h a List.mem_cons_self).bind ?_
    exact (ih (fun b hb => h b (List.mem_cons_of_mem a hb))).bind_nil (Reads.pure _)

/-! ### What a decoder rejects -/

/-- On a source in order with `bs` next, `m` rejects. -/
def Refuses (m : Decoder σ α) (bs : List β) : Prop :=
  ∀ s t, Source.good s → Source.unread s = bs ++ t → m s = none

section Refuses

variable {m : Decoder σ α} {bs cs : List β} {a : α} {f : α → Decoder σ γ}

/-- What comes behind does not matter. -/
theorem Refuses.append (hm : Refuses m bs) : Refuses m (bs ++ cs) :=
  fun s t hgood hunread => hm s (cs ++ t) hgood (by rw [hunread, List.append_assoc])

/-- A decoder refuses what its first part does. -/
theorem Refuses.bind (hm : Refuses m bs) : Refuses (m >>= f) bs := by
  intro s t hgood hunread
  show (m s).bind (fun p => f p.1 p.2) = none
  rw [hm s t hgood hunread]
  rfl

/-- After a decoder that reads `bs`, the second one rejects. -/
theorem Reads.bind_refuses (hm : Reads m bs a) (hf : Refuses (f a) cs) :
    Refuses (m >>= f) (bs ++ cs) := by
  intro s t hgood hunread
  rw [List.append_assoc] at hunread
  obtain ⟨s₁, h₁, hgood₁, hunread₁⟩ := hm s (cs ++ t) hgood hunread
  show (m s).bind (fun p => f p.1 p.2) = none
  rw [h₁]
  exact hf s₁ t hgood₁ hunread₁

/-- It refuses what the rest refuses, behind a part that reads nothing. -/
theorem Reads.nil_bind_refuses (hm : Reads m [] a) (hf : Refuses (f a) cs) :
    Refuses (m >>= f) cs :=
  hm.bind_refuses hf

/-- A check that fails rejects whatever comes. -/
theorem Refuses.check {p : Prop} [Decidable p] (hp : ¬ p) :
    Refuses (guard p : Decoder σ Unit) bs := by
  intro s t _ _
  rw [show (guard p : Decoder σ Unit) = failure from if_neg hp]
  rfl

end Refuses

/-! ### What a decoder lets through -/

/-- Whatever `m` answers has the property. -/
def Ensures (m : Decoder σ α) (P : α → Prop) : Prop := ∀ s a s', m s = some (a, s') → P a

namespace Ensures

variable {m : Decoder σ α} {f : α → Decoder σ γ} {P : α → Prop} {Q : γ → Prop}

/-- What is answered without a read. -/
theorem pure {a : α} (ha : P a) : Ensures (Pure.pure a : Decoder σ α) P := by
  intro s a' s' h
  obtain ⟨rfl, -⟩ := Prod.mk.inj (Option.some.inj h)
  exact ha

/-- The second decoder may rely on what the first one lets through. -/
theorem bind (hm : Ensures m P) (hf : ∀ a, P a → Ensures (f a) Q) : Ensures (m >>= f) Q := by
  intro s c s' h
  obtain ⟨⟨a, s₁⟩, h₁, h₂⟩ := Option.bind_eq_some_iff.mp h
  exact hf a (hm s a s₁ h₁) s₁ c s' h₂

/-- A second decoder that does not rely on the first one. -/
theorem after (hf : ∀ a, Ensures (f a) Q) : Ensures (m >>= f) Q :=
  bind (P := fun _ => True) (fun _ _ _ _ => trivial) (fun a _ => hf a)

/-- A check lets through what passes it. -/
theorem check {p : Prop} [Decidable p] : Ensures (guard p : Decoder σ Unit) (fun _ => p) := by
  intro s a s' h
  by_contra hp
  rw [show (guard p : Decoder σ Unit) = failure from if_neg hp] at h
  exact absurd h (by simp [failure, StateT.failure])

/-- Reading `n` values answers `n` values. -/
theorem many (m : Decoder σ α) (n : Nat) :
    Ensures (readMany m n) (fun as => as.length = n) := by
  induction n with
  | zero => exact pure rfl
  | succ n ih =>
    refine after (fun a => ih.bind (fun as has => pure ?_))
    rw [List.length_cons, has]

end Ensures

/-! ### What a decoder takes -/

/-- `m` keeps `I`, a property of the sources whether they are in order or not.  When the source
    is in order after `m`, then it was before, and `m` took symbols `bs` with `R a bs`. -/
def Takes (I : σ → Prop) (m : Decoder σ α) (R : α → List β → Prop) : Prop :=
  ∀ s a s', m s = some (a, s') → I s → I s' ∧ (Source.good s' →
    Source.good s ∧ ∃ bs, Source.unread s = bs ++ Source.unread s' ∧ R a bs)

namespace Takes

variable {I : σ → Prop} {m : Decoder σ α} {f : α → Decoder σ γ} {R : α → List β → Prop}
  {Q : γ → List β → Prop}

/-- An answer without a read takes nothing. -/
theorem pure {a : α} (h : R a []) : Takes I (Pure.pure a : Decoder σ α) R := by
  intro s a' s' hm hI
  obtain ⟨rfl, rfl⟩ := Prod.mk.inj (Option.some.inj hm)
  exact ⟨hI, fun hgood => ⟨hgood, [], rfl, h⟩⟩

/-- What two decoders take is what the first one takes and what the second one takes. -/
theorem bind (hm : Takes I m R)
    (hf : ∀ a, Takes I (f a) (fun c ys => ∀ xs, R a xs → Q c (xs ++ ys))) :
    Takes I (m >>= f) Q := by
  intro s c s' h hI
  obtain ⟨⟨a, s₁⟩, h₁, h₂⟩ := Option.bind_eq_some_iff.mp h
  obtain ⟨hI₁, htakes₁⟩ := hm s a s₁ h₁ hI
  obtain ⟨hI', htakes⟩ := hf a s₁ c s' h₂ hI₁
  refine ⟨hI', fun hgood' => ?_⟩
  obtain ⟨hgood₁, ys, hys, hQ⟩ := htakes hgood'
  obtain ⟨hgood, xs, hxs, hR⟩ := htakes₁ hgood₁
  exact ⟨hgood, xs ++ ys, by rw [hxs, hys, List.append_assoc], hQ xs hR⟩

/-- What a decoder takes may be described more weakly. -/
theorem imp {R' : α → List β → Prop} (hm : Takes I m R) (h : ∀ a bs, R a bs → R' a bs) :
    Takes I m R' := by
  intro s a s' hs hI
  obtain ⟨hI', htakes⟩ := hm s a s' hs hI
  refine ⟨hI', fun hgood' => ?_⟩
  obtain ⟨hgood, bs, hbs, hR⟩ := htakes hgood'
  exact ⟨hgood, bs, hbs, h a bs hR⟩

/-- A function of the answer takes what the answer does. -/
theorem map {g : α → γ} (hm : Takes I m R) (h : ∀ a bs, R a bs → Q (g a) bs) :
    Takes I (g <$> m) Q := by
  intro s c s' hs hI
  obtain ⟨⟨a, s₁⟩, h₁, h₂⟩ := Option.bind_eq_some_iff.mp hs
  obtain ⟨rfl, rfl⟩ := Prod.mk.inj (Option.some.inj h₂)
  have hmap : Takes I m (fun a bs => Q (g a) bs) := hm.imp h
  exact hmap s a s₁ h₁ hI

/-- A check takes nothing. -/
theorem check {p : Prop} [Decidable p] :
    Takes I (guard p : Decoder σ Unit) (fun _ bs => bs = [] ∧ p) := by
  by_cases hp : p
  · rw [show (guard p : Decoder σ Unit) = Pure.pure () from if_pos hp]
    exact pure ⟨rfl, hp⟩
  · intro s a s' h
    rw [show (guard p : Decoder σ Unit) = failure from if_neg hp] at h
    exact absurd h (by simp [failure, StateT.failure])

/-- Values of the same kind, one after the other. -/
theorem many {encode : α → List β} (hm : Takes I m (fun a bs => bs = encode a)) (n : Nat) :
    Takes I (readMany m n) (fun as bs => as.length = n ∧ bs = as.flatMap encode) := by
  induction n with
  | zero => exact pure ⟨rfl, rfl⟩
  | succ n ih =>
    refine hm.bind (fun a => ih.bind (fun as => pure ?_))
    rintro _ ⟨has, rfl⟩ _ rfl
    exact ⟨by rw [List.length_cons, has], by rw [List.flatMap_cons, List.append_nil]⟩

end Takes

/-- Whatever `m` answers, the source that it leaves has the property. -/
def Ends (m : Decoder σ α) (P : σ → Prop) : Prop := ∀ s a s', m s = some (a, s') → P s'

namespace Ends

variable {m : Decoder σ α} {f : α → Decoder σ γ} {P : σ → Prop}

/-- The last decoder decides. -/
theorem after (hf : ∀ a, Ends (f a) P) : Ends (m >>= f) P := by
  intro s c s' h
  obtain ⟨⟨a, s₁⟩, -, h₂⟩ := Option.bind_eq_some_iff.mp h
  exact hf a s₁ c s' h₂

/-- An answer that is made of the last one reads nothing more. -/
theorem then_pure {g : α → γ} (hm : Ends m P) : Ends (m >>= fun a => Pure.pure (g a)) P := by
  intro s c s' h
  obtain ⟨⟨a, s₁⟩, h₁, h₂⟩ := Option.bind_eq_some_iff.mp h
  obtain ⟨-, rfl⟩ := Prod.mk.inj (Option.some.inj h₂)
  exact hm s a s₁ h₁

/-- A check leaves the source as it was. -/
theorem then_check {p : Prop} [Decidable p] {c : γ} (hm : Ends m P) :
    Ends (do let _ ← m; guard p; return c) P := by
  intro s c' s' h
  obtain ⟨⟨a, s₁⟩, h₁, h₂⟩ := Option.bind_eq_some_iff.mp h
  obtain ⟨⟨u, s₂⟩, h₃, h₄⟩ := Option.bind_eq_some_iff.mp h₂
  obtain ⟨-, rfl⟩ := Prod.mk.inj (Option.some.inj h₄)
  by_cases hp : p
  · rw [show (guard p : Decoder σ Unit) = Pure.pure () from if_pos hp] at h₃
    obtain ⟨-, rfl⟩ := Prod.mk.inj (Option.some.inj h₃)
    exact hm s a s₁ h₁
  · rw [show (guard p : Decoder σ Unit) = failure from if_neg hp] at h₃
    exact absurd h₃ (by simp [failure, StateT.failure])

end Ends

end FailureFabric.Library
