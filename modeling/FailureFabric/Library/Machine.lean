import Mathlib.Data.List.Basic

namespace FailureFabric.Library

/-!
# Machines and their runs

A component whose calls are atomic is a *machine*: a total step function from a state and an
input to the next state and an output.  A run is then a list of inputs, and "for every run, in
any order, from any interleaving of clients" is a quantifier over lists.

* `Machine.run`, `Machine.outputs` — the final state and the outputs of a run;
* `Machine.run_induction` — the invariant rule: what a step preserves a run preserves;
  `Machine.run_observe` — the same for two runs that look alike;
* `Machine.always_induction`, `Machine.history_induction`, `Machine.trace_induction` — the same
  rule for runs whose steps all meet a condition, and for a property of the state and of the
  outputs so far;
* `Machine.traced` — the machine that carries its events along, for conditions on the history;
* `Machine.always_iff` — such a condition holds at every place where the run can be split;
* `Machine.erase` — a run without the inputs that a predicate of the current state marks;
  `Machine.run_erase` / `Machine.outputs_erase` say that erasing is invisible when the marked
  inputs do not change the state;
* `Machine.exists_flip` — a property that a run establishes is established by one of its steps;
  `Machine.flip_unique` — and by one only, when no step undoes it.
-/

universe u v w

/-- A machine with states `σ`, inputs `ι` and outputs `ο`. -/
structure Machine (σ : Type u) (ι : Type v) (ο : Type w) where
  /-- One atomic step. -/
  step : σ → ι → σ × ο

namespace Machine

variable {σ : Type u} {ι : Type v} {ο : Type w} (M : Machine σ ι ο)

/-- The state after a run. -/
def run : σ → List ι → σ
  | s, [] => s
  | s, i :: is => run (M.step s i).1 is

/-- The outputs of a run, in order. -/
def outputs : σ → List ι → List ο
  | _, [] => []
  | s, i :: is => (M.step s i).2 :: outputs (M.step s i).1 is

/-- A run over no input stays. -/
@[simp] theorem run_nil (s : σ) : M.run s [] = s := rfl

/-- A run takes the first step and goes on from there. -/
@[simp] theorem run_cons (s : σ) (i : ι) (is : List ι) :
    M.run s (i :: is) = M.run (M.step s i).1 is := rfl

/-- It has no output. -/
@[simp] theorem outputs_nil (s : σ) : M.outputs s [] = [] := rfl

/-- Its first output is that of the first step. -/
@[simp] theorem outputs_cons (s : σ) (i : ι) (is : List ι) :
    M.outputs s (i :: is) = (M.step s i).2 :: M.outputs (M.step s i).1 is := rfl

/-- A run over two parts is the run over the second from where the first ends. -/
@[simp] theorem run_append (s : σ) (is js : List ι) :
    M.run s (is ++ js) = M.run (M.run s is) js := by
  induction is generalizing s with
  | nil => rfl
  | cons i is ih => simp only [List.cons_append, run_cons, ih]

/-- So are the outputs. -/
theorem outputs_append (s : σ) (is js : List ι) :
    M.outputs s (is ++ js) = M.outputs s is ++ M.outputs (M.run s is) js := by
  induction is generalizing s with
  | nil => rfl
  | cons i is ih => simp only [List.cons_append, outputs_cons, run_cons, ih]

/-- The last step of a run. -/
theorem run_concat (s : σ) (is : List ι) (i : ι) :
    M.run s (is ++ [i]) = (M.step (M.run s is) i).1 := by
  rw [run_append, run_cons, run_nil]

/-! ### Invariant rules -/

variable {M}

/-- **Invariant rule.** What every step preserves, every run preserves. -/
theorem run_induction {P : σ → Prop} (hstep : ∀ s i, P s → P (M.step s i).1) {s : σ} (hs : P s)
    (is : List ι) : P (M.run s is) := by
  induction is generalizing s with
  | nil => exact hs
  | cons i is ih => exact ih (hstep s i hs)

/-- **Observation rule.** Where an observation of the state determines what a step makes of it, it
    determines what a run makes of it. -/
theorem run_observe {τ : Type w} (obs : σ → τ)
    (hstep : ∀ s s' i, obs s = obs s' → obs (M.step s i).1 = obs (M.step s' i).1) {s s' : σ}
    (h : obs s = obs s') (is : List ι) : obs (M.run s is) = obs (M.run s' is) := by
  induction is generalizing s s' with
  | nil => exact h
  | cons i is ih => exact ih (hstep s s' i h)

variable (M) in
/-- Every step of the run meets `C`, a condition on the state before the step and its input. -/
def Always (C : σ → ι → Prop) : σ → List ι → Prop
  | _, [] => True
  | s, i :: is => C s i ∧ Always C (M.step s i).1 is

/-- No step violates a condition. -/
@[simp] theorem always_nil (C : σ → ι → Prop) (s : σ) : M.Always C s [] := trivial

/-- The first step meets the condition, and all that follow do. -/
@[simp] theorem always_cons (C : σ → ι → Prop) (s : σ) (i : ι) (is : List ι) :
    M.Always C s (i :: is) ↔ C s i ∧ M.Always C (M.step s i).1 is := Iff.rfl

/-- A condition holds of a run if and only if it does of both parts. -/
theorem always_append (C : σ → ι → Prop) (s : σ) (is js : List ι) :
    M.Always C s (is ++ js) ↔ M.Always C s is ∧ M.Always C (M.run s is) js := by
  induction is generalizing s with
  | nil => simp
  | cons i is ih => simp only [List.cons_append, always_cons, run_cons, ih, and_assoc]

/-- The condition holds at every place where the run can be split. -/
theorem always_iff {C : σ → ι → Prop} {s : σ} {is : List ι} :
    M.Always C s is ↔ ∀ pre i post, is = pre ++ i :: post → C (M.run s pre) i := by
  constructor
  · rintro h pre i post rfl
    exact ((always_append C s pre (i :: post)).mp h).2.1
  · intro h
    induction is generalizing s with
    | nil => trivial
    | cons i is ih =>
      refine ⟨h [] i is rfl, ih (fun pre j post hsplit => ?_)⟩
      exact h (i :: pre) j post (by rw [hsplit, List.cons_append])

/-- A condition may be weakened. -/
theorem Always.imp {C D : σ → ι → Prop} (h : ∀ s i, C s i → D s i) {s : σ} {is : List ι}
    (hC : M.Always C s is) : M.Always D s is := by
  induction is generalizing s with
  | nil => trivial
  | cons i is ih => exact ⟨h s i hC.1, ih hC.2⟩

/-- Two conditions may be joined. -/
theorem Always.and {C D : σ → ι → Prop} {s : σ} {is : List ι} (hC : M.Always C s is)
    (hD : M.Always D s is) : M.Always (fun s i => C s i ∧ D s i) s is := by
  induction is generalizing s with
  | nil => trivial
  | cons i is ih => exact ⟨⟨hC.1, hD.1⟩, ih hC.2 hD.2⟩

instance decidableAlways (C : σ → ι → Prop) [∀ s i, Decidable (C s i)] (s : σ) :
    (is : List ι) → Decidable (M.Always C s is)
  | [] => isTrue trivial
  | i :: is => @instDecidableAnd _ _ _ (decidableAlways C (M.step s i).1 is)

/-- **Invariant rule under a condition.** What every step meeting `C` preserves, every run whose
    steps all meet `C` preserves. -/
theorem always_induction {C : σ → ι → Prop} {P : σ → Prop}
    (hstep : ∀ s i, C s i → P s → P (M.step s i).1) {s : σ} (hs : P s) {is : List ι}
    (hC : M.Always C s is) : P (M.run s is) := by
  induction is generalizing s with
  | nil => exact hs
  | cons i is ih => exact ih (hstep s i hC.1 hs) hC.2

/-- **History rule.** What every step meeting `C` preserves, as a property of the state together
    with the outputs so far, every run whose steps all meet `C` preserves. -/
theorem history_induction {C : σ → ι → Prop} {P : σ → List ο → Prop}
    (hstep : ∀ s i os, C s i → P s os → P (M.step s i).1 (os ++ [(M.step s i).2])) {s : σ}
    {os : List ο} (hs : P s os) {is : List ι} (hC : M.Always C s is) :
    P (M.run s is) (os ++ M.outputs s is) := by
  induction is generalizing s os with
  | nil => simpa using hs
  | cons i is ih =>
    have h := ih (hstep s i os hC.1 hs) hC.2
    simpa using h

/-- **Trace rule.** The history rule for outputs that are lists of events: a property of the
    state together with the events so far. -/
theorem trace_induction {ε : Type w} {M : Machine σ ι (List ε)} {C : σ → ι → Prop}
    {P : σ → List ε → Prop}
    (hstep : ∀ s i t, C s i → P s t → P (M.step s i).1 (t ++ (M.step s i).2)) {s : σ}
    (hs : P s []) {is : List ι} (hC : M.Always C s is) :
    P (M.run s is) (M.outputs s is).flatten := by
  have hhistory : ∀ s i (os : List (List ε)), C s i → P s os.flatten →
      P (M.step s i).1 (os ++ [(M.step s i).2]).flatten := by
    intro s i os hC hP
    rw [List.flatten_append, List.flatten_singleton]
    exact hstep s i os.flatten hC hP
  have hstart : P s ([] : List (List ε)).flatten := hs
  exact history_induction (P := fun s os => P s os.flatten) hhistory hstart hC

/-- A run that ends with `P` and does not start with it has a step that establishes `P`. -/
theorem exists_flip {P : σ → Prop} {s : σ} {is : List ι} (hs : ¬ P s) (hend : P (M.run s is)) :
    ∃ pre i post, is = pre ++ i :: post ∧ ¬ P (M.run s pre) ∧ P (M.run s (pre ++ [i])) := by
  induction is generalizing s with
  | nil => exact absurd hend hs
  | cons i is ih =>
    by_cases hi : P (M.step s i).1
    · exact ⟨[], i, is, rfl, hs, hi⟩
    · obtain ⟨pre, j, post, rfl, hpre, hpost⟩ := ih hi hend
      exact ⟨i :: pre, j, post, rfl, hpre, hpost⟩

/-- Of two steps that establish a property that no step undoes, neither comes before the other. -/
private theorem flip_length_le {P : σ → Prop} (hstays : ∀ s i, P s → P (M.step s i).1) {s : σ}
    {pre post pre' post' : List ι} {i i' : ι} (hsplit : pre ++ i :: post = pre' ++ i' :: post')
    (hdone : P (M.run s (pre ++ [i]))) (hopen : ¬ P (M.run s pre')) :
    pre'.length ≤ pre.length := by
  by_contra hlt
  -- otherwise the run up to the second step extends the run through the first one
  have hprefix : pre ++ [i] <+: pre' := by
    have hpre : pre ++ [i] <+: pre ++ i :: post := ⟨post, by simp⟩
    refine List.prefix_of_prefix_length_le hpre ⟨i' :: post', hsplit.symm⟩ ?_
    rw [List.length_append, List.length_singleton]
    omega
  obtain ⟨mid, rfl⟩ := hprefix
  refine hopen ?_
  rw [run_append]
  exact run_induction hstays hdone mid

/-- A property that no step undoes is established by one step of a run at most. -/
theorem flip_unique {P : σ → Prop} (hstays : ∀ s i, P s → P (M.step s i).1) {s : σ}
    {pre post pre' post' : List ι} {i i' : ι} (hsplit : pre ++ i :: post = pre' ++ i' :: post')
    (hopen : ¬ P (M.run s pre)) (hdone : P (M.run s (pre ++ [i])))
    (hopen' : ¬ P (M.run s pre')) (hdone' : P (M.run s (pre' ++ [i']))) : pre = pre' ∧ i = i' := by
  have hlen : pre.length = pre'.length :=
    Nat.le_antisymm (flip_length_le hstays hsplit.symm hdone' hopen)
      (flip_length_le hstays hsplit hdone hopen')
  obtain ⟨hpre, htail⟩ := List.append_inj hsplit hlen
  exact ⟨hpre, (List.cons.inj htail).1⟩

/-! ### Carrying the trace along -/

/-- The machine whose state holds the events so far, for conditions on the history of a run. -/
def traced {ε : Type w} (M : Machine σ ι (List ε)) : Machine (σ × List ε) ι (List ε) where
  step p i := (((M.step p.1 i).1, p.2 ++ (M.step p.1 i).2), (M.step p.1 i).2)

/-- The trace is what was there and the outputs of the run. -/
theorem run_traced {ε : Type w} (M : Machine σ ι (List ε)) (s : σ) (t : List ε) (is : List ι) :
    M.traced.run (s, t) is = (M.run s is, t ++ (M.outputs s is).flatten) := by
  induction is generalizing s t with
  | nil => rw [run_nil, run_nil, outputs_nil, List.flatten_nil, List.append_nil]
  | cons i is ih =>
    rw [run_cons, run_cons, outputs_cons, List.flatten_cons, ← List.append_assoc]
    exact ih _ _

/-- A condition on the state alone may be read off either machine. -/
theorem Always.traced {ε : Type w} {M : Machine σ ι (List ε)} {C : σ → ι → Prop} {s : σ}
    {is : List ι} (hC : M.Always C s is) (t : List ε) :
    M.traced.Always (fun p i => C p.1 i) (s, t) is := by
  induction is generalizing s t with
  | nil => trivial
  | cons i is ih => exact ⟨hC.1, ih hC.2 _⟩

/-! ### Erasing inputs that change nothing -/

variable (M)

/-- The run without the inputs that `stale` marks in the state in which they would be applied. -/
def erase (stale : σ → ι → Bool) : σ → List ι → List ι
  | _, [] => []
  | s, i :: is =>
    if stale s i then erase stale (M.step s i).1 is else i :: erase stale (M.step s i).1 is

/-- The outputs of the inputs that `erase` keeps, as the full run gives them. -/
def keptOutputs (stale : σ → ι → Bool) : σ → List ι → List ο
  | _, [] => []
  | s, i :: is =>
    if stale s i then keptOutputs stale (M.step s i).1 is
    else (M.step s i).2 :: keptOutputs stale (M.step s i).1 is

variable {M}

/-- Erasing inputs that do not change the state leaves the final state as it was. -/
theorem run_erase {stale : σ → ι → Bool} (h : ∀ s i, stale s i = true → (M.step s i).1 = s)
    (s : σ) (is : List ι) : M.run s (M.erase stale s is) = M.run s is := by
  induction is generalizing s with
  | nil => rfl
  | cons i is ih =>
    cases hi : stale s i with
    | true => simp only [erase, hi, if_true, run_cons, h s i hi, ih]
    | false => simp only [erase, hi, Bool.false_eq_true, if_false, run_cons, ih]

/-- Erasing inputs that do not change the state leaves every other output as it was. -/
theorem outputs_erase {stale : σ → ι → Bool} (h : ∀ s i, stale s i = true → (M.step s i).1 = s)
    (s : σ) (is : List ι) :
    M.outputs s (M.erase stale s is) = M.keptOutputs stale s is := by
  induction is generalizing s with
  | nil => rfl
  | cons i is ih =>
    cases hi : stale s i with
    | true => simp only [erase, keptOutputs, hi, if_true, h s i hi, ih]
    | false =>
      simp only [erase, keptOutputs, hi, Bool.false_eq_true, if_false, outputs_cons, ih]

end Machine

end FailureFabric.Library
