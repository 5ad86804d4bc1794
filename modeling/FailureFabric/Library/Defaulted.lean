import FailureFabric.Library.Machine

namespace FailureFabric.Library

/-!
# A field with a default and a sentinel

A field that a caller may set, and whose default depends on a context that the caller may change
too.  A *fill* writes the default of the current context into the field when the field holds the
sentinel for "not set", and the final reading takes the default when the caller has set nothing.

* `DefaultField.machine` — the field under calls in any order, `DefaultField.result` its reading;
* `lastSet`, `lastContext`, `fills` — what the calls say, without the stored value;
* `DefaultField.result_run_iff` — the reading is the last value set, or else the default of the
  last context, exactly when no fill has come in between (`DefaultField.Undisturbed`).
-/

variable {κ ν : Type}

/-- What a call does, as far as one field is concerned. -/
inductive FieldCall (κ ν : Type)
  /-- The context of the default changes. -/
  | context (c : κ)
  /-- The caller sets the field. -/
  | set (v : ν)
  /-- The default is written if the sentinel is there. -/
  | fill
  /-- Nothing that concerns the field. -/
  | other

namespace FieldCall

/-- The context a call sets. -/
def context? : FieldCall κ ν → Option κ
  | .context c => some c
  | _ => none

/-- The value a call sets. -/
def set? : FieldCall κ ν → Option ν
  | .set v => some v
  | _ => none

end FieldCall

/-- The value set last, if any. -/
def lastSet (calls : List (FieldCall κ ν)) : Option ν := (calls.filterMap FieldCall.set?).getLast?

/-- The context after the calls, from `c`. -/
def lastContext (c : κ) (calls : List (FieldCall κ ν)) : κ :=
  (calls.filterMap FieldCall.context?).getLast?.getD c

theorem lastSet_set (v : ν) (calls : List (FieldCall κ ν)) :
    lastSet (.set v :: calls) = some ((lastSet calls).getD v) :=
  List.getLast?_cons

theorem lastContext_context (c d : κ) (calls : List (FieldCall κ ν)) :
    lastContext c (.context d :: calls) = lastContext d calls :=
  congrArg (Option.getD · c) List.getLast?_cons

/-- The contexts of the fills since the field was last set: those in `cs`, and those of the calls
    from the context `c`. -/
def fills : κ → List κ → List (FieldCall κ ν) → List κ
  | _, cs, [] => cs
  | _, cs, .context c :: calls => fills c cs calls
  | c, _, .set _ :: calls => fills c [] calls
  | c, cs, .fill :: calls => fills c (cs ++ [c]) calls
  | c, cs, .other :: calls => fills c cs calls

/-- A field: the sentinel for "not set", and the default in a context. -/
structure DefaultField (κ ν : Type) where
  unset : ν
  dflt : κ → ν

namespace DefaultField

/-- What is stored of a field. -/
structure Cell (κ ν : Type) where
  context : κ
  value : ν
  /-- The caller has set the field. -/
  isSet : Bool

variable [DecidableEq ν] (F : DefaultField κ ν)

/-- One call on the stored field. -/
def step (s : Cell κ ν) : FieldCall κ ν → Cell κ ν
  | .context c => { s with context := c }
  | .set v => { s with value := v, isSet := true }
  | .fill => { s with value := if s.value = F.unset then F.dflt s.context else s.value }
  | .other => s

/-- The field under calls. -/
def machine : Machine (Cell κ ν) (FieldCall κ ν) Unit where
  step s call := (F.step s call, ())

/-- The final reading: the default for a field that is not set and holds the sentinel. -/
def result (s : Cell κ ν) : ν :=
  if !s.isSet && s.value = F.unset then F.dflt s.context else s.value

/-- The field before any call. -/
def start (c : κ) : Cell κ ν := ⟨c, F.unset, false⟩

/-- The first default in the contexts `cs` that is not the sentinel. -/
def firstDefault (cs : List κ) : Option ν := (cs.map F.dflt).find? (· ≠ F.unset)

/-- What fills in the contexts `cs` make of a field with the value `v`. -/
def filled (v : ν) (cs : List κ) : ν := if v = F.unset then (F.firstDefault cs).getD F.unset else v

/-- No fill has come between the caller and the reading: since a sentinel was set on purpose, all
    were in contexts without a default; and if nothing was set, the first default that was written
    is that of the last context. -/
def Undisturbed (c : κ) (calls : List (FieldCall κ ν)) : Prop :=
  match lastSet calls with
  | some v => v = F.unset → ∀ d ∈ fills c [] calls, F.dflt d = F.unset
  | none => ∀ v ∈ F.firstDefault (fills c [] calls), v = F.dflt (lastContext c calls)

variable {F}

theorem firstDefault_ne_unset {cs : List κ} {v : ν} (h : F.firstDefault cs = some v) :
    v ≠ F.unset := by
  simpa using List.find?_some h

theorem firstDefault_eq_none_iff {cs : List κ} :
    F.firstDefault cs = none ↔ ∀ c ∈ cs, F.dflt c = F.unset := by
  simp [firstDefault]

theorem filled_nil (v : ν) : F.filled v [] = v := by
  unfold filled
  split
  · next h => exact h.symm
  · rfl

/-- One more fill. -/
theorem filled_concat (v : ν) (cs : List κ) (c : κ) :
    F.filled v (cs ++ [c]) = if F.filled v cs = F.unset then F.dflt c else F.filled v cs := by
  unfold filled
  by_cases hv : v = F.unset
  · have happend : F.firstDefault (cs ++ [c]) = (F.firstDefault cs).or (F.firstDefault [c]) := by
      rw [firstDefault, List.map_append, List.find?_append]
      rfl
    rw [if_pos hv, if_pos hv, happend]
    cases hfirst : F.firstDefault cs with
    | none =>
      by_cases hc : F.dflt c = F.unset
      · simp [firstDefault, hc]
      · simp [firstDefault, hc]
    | some d => simp [firstDefault_ne_unset hfirst]
  · rw [if_neg hv, if_neg hv, if_neg hv]

/-- Fills leave a value in place when it is not the sentinel, or when none of them has a default
    to write. -/
theorem filled_eq_self_iff (v : ν) (cs : List κ) :
    F.filled v cs = v ↔ (v = F.unset → ∀ c ∈ cs, F.dflt c = F.unset) := by
  unfold filled
  by_cases hv : v = F.unset
  · rw [if_pos hv, hv, ← firstDefault_eq_none_iff]
    cases hfirst : F.firstDefault cs with
    | none => simp
    | some d => simp [firstDefault_ne_unset hfirst]
  · simp [hv]

/-- **Run lemma.** The stored field is determined by what was set last, by the last context and by
    the fills since then. -/
theorem run_eq (c : κ) (o : Option ν) (cs : List κ) (calls : List (FieldCall κ ν)) :
    F.machine.run ⟨c, F.filled (o.getD F.unset) cs, o.isSome⟩ calls =
      ⟨lastContext c calls, F.filled (((lastSet calls).or o).getD F.unset) (fills c cs calls),
        ((lastSet calls).or o).isSome⟩ := by
  -- the invariant: the field as it was set before, filled in at the contexts `cs` since then
  induction calls generalizing c o cs with
  | nil => rfl
  | cons call calls ih =>
    cases call with
    | context d =>
      rw [lastContext_context]
      exact ih d o cs
    | set v =>
      have h := ih c (some v) []
      have hor : (lastSet calls).or (some v) = some ((lastSet calls).getD v) := by
        cases lastSet calls <;> rfl
      rw [filled_nil, hor] at h
      rw [lastSet_set, Option.some_or]
      exact h
    | fill =>
      have h := ih c o (cs ++ [c])
      rw [filled_concat] at h
      exact h
    | other => exact ih c o cs

/-- **The reading.** It is what was set last, or else the default of the last context, exactly
    when no fill has come in between. -/
theorem result_run_iff (c : κ) (calls : List (FieldCall κ ν)) :
    F.result (F.machine.run (F.start c) calls) =
        (lastSet calls).getD (F.dflt (lastContext c calls)) ↔
      F.Undisturbed c calls := by
  have hrun : F.machine.run (F.start c) calls =
      ⟨lastContext c calls, F.filled ((lastSet calls).getD F.unset) (fills c [] calls),
        (lastSet calls).isSome⟩ := by
    have h := run_eq (F := F) c none [] calls
    rw [filled_nil, Option.or_none] at h
    exact h
  rw [hrun, result, Undisturbed]
  cases hset : lastSet calls with
  | some v => simpa using filled_eq_self_iff v (fills c [] calls)
  | none =>
    -- nothing was set: the stored value is the first default that was written
    cases hfirst : F.firstDefault (fills c [] calls) with
    | none => simp [filled, hfirst]
    | some d => simp [filled, hfirst, firstDefault_ne_unset hfirst]

/-- Without fills nothing comes in between. -/
theorem undisturbed_of_fills_eq_nil {c : κ} {calls : List (FieldCall κ ν)}
    (h : fills c [] calls = []) : F.Undisturbed c calls := by
  unfold Undisturbed
  rw [h]
  split
  · exact fun _ d hd => absurd hd List.not_mem_nil
  · exact fun v hv => absurd hv (by simp [firstDefault])

end DefaultField

end FailureFabric.Library
