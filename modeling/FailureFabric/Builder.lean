import FailureFabric.FailureRecord
import FailureFabric.Library.Defaulted

namespace FailureFabric

/-!
# The builder of failure records

The setters of `FailureRecordBuilder` and `derive_defaults` in any order, followed by `build`
(`failure_record.hpp`, `failure_record.cpp`).  Retryability, rollback, compensation and terminality
are *dimensions*: the caller may set them, and the failure class suggests a value otherwise.

* `BuilderCall`, `builder` — the calls and what one of them does;
* `Dimension` — a dimension of the record as a field with a default and a sentinel, with the proof
  that the calls treat it as one; `retryability`, `rollback`, `compensation`, `terminality`;
* `Dimension.get_build_iff` — `build` gives the value set last, or that of the final class, exactly
  when no `derive_defaults` has come in between;
* `keepsIntent_iff` — the same for the whole record, which is then what it would be without the
  calls of `derive_defaults`.

`derive_defaults` writes the suggestion of the class of the moment into every dimension that holds
its "unknown" value.  It does not look at the flags that `build` looks at: it overwrites such a
value when it was set on purpose, and what it has written stays when the class changes.
-/

open Library

/-- `derive_dimensions`. -/
def deriveDimensions (rec : FailureRecord) : FailureRecord :=
  let d := dimsFor rec.failureClass
  { rec with
    retryability := if rec.retryability = .UNKNOWN then d.retry else rec.retryability
    rollback := if rec.rollback = .NONE then d.rollback else rec.rollback
    compensation := if rec.compensation = .NONE then d.comp else rec.compensation
    terminality := if rec.terminality = .UNKNOWN then d.term else rec.terminality }

/-- A call on a builder: one of its setters, or `derive_defaults`. -/
inductive BuilderCall
  | operation (v : OperationId) | request (v : RequestId) | workload (v : WorkloadId)
  | attempt (v : AttemptId) | dispatch (v : DispatchId) | worker (v : WorkerId)
  | node (v : NodeId) | device (v : DeviceId) | id (v : FailureId)
  | failureClass (v : FailureClass) | origin (v : FailureOrigin) | code (v : UInt32)
  | summary (v : Text) | reason (v : Text) | phase (v : FailurePhase) | timestamp (v : UInt64)
  | completion (v : Ambiguity) | sideEffectState (v : SideEffectState)
  | unknownSideEffects (v : UInt32) | authority (v : AuthorityEnvelope)
  | retryability (v : Retryability) | rollback (v : RollbackRequirement)
  | compensation (v : CompensationRequirement) | terminality (v : Terminality)
  | recoveryOwner (v : RecoveryOwner) | provenance (v : Provenance)
  | causalParent (v : FailureId) | dependency (v : FailureId)
  | deriveDefaults

/-- What one call makes of the builder. -/
def FailureRecordBuilder.call (b : FailureRecordBuilder) : BuilderCall → FailureRecordBuilder
  | .operation v => { b with r.operation := v }
  | .request v => { b with r.request := v }
  | .workload v => { b with r.workload := v }
  | .attempt v => { b with r.attempt := v }
  | .dispatch v => { b with r.dispatch := v }
  | .worker v => { b with r.worker := v }
  | .node v => { b with r.node := v }
  | .device v => { b with r.device := v }
  | .id v => { b with r.failureId := v }
  | .failureClass v => { b with r.failureClass := v }
  | .origin v => { b with r.origin := v }
  | .code v => { b with r.failureCode := v }
  | .summary v => { b with r.summary := v }
  | .reason v => { b with r.reason := v }
  | .phase v => { b with r.phase := v }
  | .timestamp v => { b with r.timestampMs := v }
  | .completion v => { b with r.completion := v }
  | .sideEffectState v => { b with r.sideEffectState := v }
  | .unknownSideEffects v => { b with r.unknownSideEffects := v }
  | .authority v => { b with r.authority := v }
  | .retryability v => { b with r.retryability := v, retrySet := true }
  | .rollback v => { b with r.rollback := v, rollbackSet := true }
  | .compensation v => { b with r.compensation := v, compSet := true }
  | .terminality v => { b with r.terminality := v, termSet := true }
  | .recoveryOwner v => { b with r.recoveryOwner := v }
  | .provenance v => { b with r.provenance := v }
  | .causalParent v => { b with r.causalParent := v }
  | .dependency v => { b with r.dependencies := b.r.dependencies ++ [v] }
  | .deriveDefaults => { b with r := deriveDimensions b.r }

/-- The builder under calls. -/
def builder : Machine FailureRecordBuilder BuilderCall Unit where
  step b call := (b.call call, ())

/-- `build` after the calls, on a new builder. -/
def built (calls : List BuilderCall) (drawn : Uuid128) : FailureRecord :=
  (builder.run {} calls).build drawn

namespace BuilderCall

/-- A call of `derive_defaults`. -/
def isDerive : BuilderCall → Bool
  | .deriveDefaults => true
  | _ => false

/-- The class a call sets. -/
def failureClass? : BuilderCall → Option FailureClass
  | .failureClass v => some v
  | _ => none

/-- The retryability a call sets. -/
def retryability? : BuilderCall → Option Retryability
  | .retryability v => some v
  | _ => none

/-- The rollback requirement a call sets. -/
def rollback? : BuilderCall → Option RollbackRequirement
  | .rollback v => some v
  | _ => none

/-- The compensation requirement a call sets. -/
def compensation? : BuilderCall → Option CompensationRequirement
  | .compensation v => some v
  | _ => none

/-- The terminality a call sets. -/
def terminality? : BuilderCall → Option Terminality
  | .terminality v => some v
  | _ => none

end BuilderCall

/-- The failure class set last, `UNKNOWN` if none was. -/
def finalClass (calls : List BuilderCall) : FailureClass :=
  (calls.filterMap BuilderCall.failureClass?).getLast?.getD .UNKNOWN

/-- Leaving out items without a value does not change the list of values. -/
private theorem filterMap_filter_of_none {α β : Type} {f : α → Option β} {p : α → Bool}
    (h : ∀ a, p a = false → f a = none) (as : List α) :
    (as.filter p).filterMap f = as.filterMap f := by
  induction as with
  | nil => rfl
  | cons a as ih =>
    cases hp : p a with
    | true => rw [List.filter_cons_of_pos hp, List.filterMap_cons, List.filterMap_cons, ih]
    | false =>
      rw [List.filter_cons_of_neg (by simp [hp]), List.filterMap_cons_none (h a hp), ih]

/-! ### A dimension of the record -/

/-- A call as a dimension sees it that the calls with a value under `explicit` set. -/
def BuilderCall.fieldCall {ν : Type} (explicit : BuilderCall → Option ν) :
    BuilderCall → FieldCall FailureClass ν
  | .failureClass c => .context c
  | .deriveDefaults => .fill
  | call => match explicit call with
    | some v => .set v
    | none => .other

/-- A dimension of the record: a field with a default that depends on the failure class. -/
structure Dimension (ν : Type) [DecidableEq ν] where
  field : DefaultField FailureClass ν
  get : FailureRecord → ν
  /-- The flag of the builder: the caller has set the dimension. -/
  isSet : FailureRecordBuilder → Bool
  /-- The value a call of its setter sets. -/
  explicit : BuilderCall → Option ν
  explicit_failureClass : ∀ c, explicit (.failureClass c) = none
  explicit_deriveDefaults : explicit .deriveDefaults = none
  /-- It starts unset. -/
  start_eq : get ({} : FailureRecordBuilder).r = field.unset ∧ isSet {} = false
  /-- A call does to it what it does to the field. -/
  call_eq : ∀ b call,
    (⟨(b.call call).r.failureClass, get (b.call call).r, isSet (b.call call)⟩ :
        DefaultField.Cell FailureClass ν) =
      field.step ⟨b.r.failureClass, get b.r, isSet b⟩ (call.fieldCall explicit)
  /-- `build` reads it as the field is read. -/
  build_eq : ∀ (b : FailureRecordBuilder) drawn,
    get (b.build drawn) = field.result ⟨b.r.failureClass, get b.r, isSet b⟩

namespace Dimension

/-- The retryability. -/
def retryability : Dimension Retryability where
  field := ⟨.UNKNOWN, fun c => (dimsFor c).retry⟩
  get rec := rec.retryability
  isSet b := b.retrySet
  explicit := BuilderCall.retryability?
  explicit_failureClass _ := rfl
  explicit_deriveDefaults := rfl
  start_eq := ⟨rfl, rfl⟩
  call_eq b call := by cases call <;> rfl
  build_eq _ _ := rfl

/-- The rollback requirement. -/
def rollback : Dimension RollbackRequirement where
  field := ⟨.NONE, fun c => (dimsFor c).rollback⟩
  get rec := rec.rollback
  isSet b := b.rollbackSet
  explicit := BuilderCall.rollback?
  explicit_failureClass _ := rfl
  explicit_deriveDefaults := rfl
  start_eq := ⟨rfl, rfl⟩
  call_eq b call := by cases call <;> rfl
  build_eq _ _ := rfl

/-- The compensation requirement. -/
def compensation : Dimension CompensationRequirement where
  field := ⟨.NONE, fun c => (dimsFor c).comp⟩
  get rec := rec.compensation
  isSet b := b.compSet
  explicit := BuilderCall.compensation?
  explicit_failureClass _ := rfl
  explicit_deriveDefaults := rfl
  start_eq := ⟨rfl, rfl⟩
  call_eq b call := by cases call <;> rfl
  build_eq _ _ := rfl

/-- The terminality. -/
def terminality : Dimension Terminality where
  field := ⟨.UNKNOWN, fun c => (dimsFor c).term⟩
  get rec := rec.terminality
  isSet b := b.termSet
  explicit := BuilderCall.terminality?
  explicit_failureClass _ := rfl
  explicit_deriveDefaults := rfl
  start_eq := ⟨rfl, rfl⟩
  call_eq b call := by cases call <;> rfl
  build_eq _ _ := rfl

/-! ### What the calls leave in a dimension -/

variable {ν : Type} [DecidableEq ν] (D : Dimension ν)

/-- What the builder holds of the dimension. -/
def cell (b : FailureRecordBuilder) : DefaultField.Cell FailureClass ν :=
  ⟨b.r.failureClass, D.get b.r, D.isSet b⟩

/-- The calls as the dimension sees them. -/
def fieldCalls (calls : List BuilderCall) : List (FieldCall FailureClass ν) :=
  calls.map (·.fieldCall D.explicit)

/-- What the caller has asked for: the value set last, or what the final class suggests. -/
def intended (calls : List BuilderCall) : ν :=
  (calls.filterMap D.explicit).getLast?.getD (D.field.dflt (finalClass calls))

/-- No `derive_defaults` has come in between: after a call that sets the "unknown" value on
    purpose, it is only called while the class suggests that value; and when the dimension is never
    set, the first suggestion that it writes is that of the final class. -/
def Undisturbed (calls : List BuilderCall) : Prop :=
  D.field.Undisturbed .UNKNOWN (D.fieldCalls calls)

theorem cell_run (b : FailureRecordBuilder) (calls : List BuilderCall) :
    D.cell (builder.run b calls) = D.field.machine.run (D.cell b) (D.fieldCalls calls) := by
  induction calls generalizing b with
  | nil => rfl
  | cons call calls ih =>
    have hcall : D.cell (b.call call) = D.field.step (D.cell b) (call.fieldCall D.explicit) :=
      D.call_eq b call
    calc D.cell (builder.run (b.call call) calls)
        = D.field.machine.run (D.cell (b.call call)) (D.fieldCalls calls) := ih (b.call call)
      _ = D.field.machine.run (D.cell b) (D.fieldCalls (call :: calls)) := by rw [hcall]; rfl

theorem set?_fieldCall (call : BuilderCall) :
    (call.fieldCall D.explicit).set? = D.explicit call := by
  unfold BuilderCall.fieldCall
  split
  · exact (D.explicit_failureClass _).symm
  · exact D.explicit_deriveDefaults.symm
  · split
    · next h => exact h.symm
    · next h => exact h.symm

theorem context?_fieldCall (call : BuilderCall) :
    (call.fieldCall D.explicit).context? = call.failureClass? := by
  cases call with
  | failureClass c => rfl
  | deriveDefaults => rfl
  | _ =>
    simp only [BuilderCall.fieldCall]
    split <;> rfl

theorem lastSet_fieldCalls (calls : List BuilderCall) :
    lastSet (D.fieldCalls calls) = (calls.filterMap D.explicit).getLast? := by
  rw [lastSet, fieldCalls, List.filterMap_map]
  exact congrArg (List.getLast? <| List.filterMap · calls) (funext D.set?_fieldCall)

theorem lastContext_fieldCalls (calls : List BuilderCall) :
    lastContext .UNKNOWN (D.fieldCalls calls) = finalClass calls := by
  rw [lastContext, fieldCalls, List.filterMap_map, finalClass]
  exact congrArg (fun f => (calls.filterMap f).getLast?.getD .UNKNOWN)
    (funext D.context?_fieldCall)

/-- `build` gives what the caller has asked for exactly when no `derive_defaults` has come in
    between. -/
theorem get_build_iff (calls : List BuilderCall) (drawn : Uuid128) :
    D.get (built calls drawn) = D.intended calls ↔ D.Undisturbed calls := by
  have hstart : D.cell {} = D.field.start .UNKNOWN := by
    rw [cell, D.start_eq.1, D.start_eq.2]
    rfl
  have hrun := D.cell_run {} calls
  rw [hstart] at hrun
  have hresult := DefaultField.result_run_iff (F := D.field) .UNKNOWN (D.fieldCalls calls)
  rw [← hrun, D.lastSet_fieldCalls, D.lastContext_fieldCalls] at hresult
  rw [built, D.build_eq]
  exact hresult

/-! ### Without the calls of `derive_defaults` -/

/-- Without `derive_defaults` there are no fills. -/
theorem fills_fieldCalls {calls : List BuilderCall} (h : ∀ call ∈ calls, call.isDerive = false)
    (c : FailureClass) : fills c [] (D.fieldCalls calls) = [] := by
  induction calls generalizing c with
  | nil => rfl
  | cons call calls ih =>
    have hcalls := ih fun call hcall => h call (List.mem_cons_of_mem _ hcall)
    have hcall := h call List.mem_cons_self
    rw [fieldCalls, List.map_cons]
    cases hfield : call.fieldCall D.explicit with
    | context d => exact hcalls d
    | set v => exact hcalls c
    | other => exact hcalls c
    | fill =>
      -- only `derive_defaults` is a fill
      unfold BuilderCall.fieldCall at hfield
      split at hfield
      · cases hfield
      · cases hcall
      · split at hfield <;> cases hfield

/-- Without `derive_defaults` nothing comes in between. -/
theorem undisturbed_of_no_derive {calls : List BuilderCall}
    (h : ∀ call ∈ calls, call.isDerive = false) : D.Undisturbed calls :=
  DefaultField.undisturbed_of_fills_eq_nil (D.fills_fieldCalls h .UNKNOWN)

/-- The calls of `derive_defaults` ask for nothing. -/
theorem intended_filter (calls : List BuilderCall) :
    D.intended (calls.filter (!·.isDerive)) = D.intended calls := by
  have hderive : ∀ call : BuilderCall, (!call.isDerive) = false →
      D.explicit call = none ∧ call.failureClass? = none := by
    intro call hcall
    cases call with
    | deriveDefaults => exact ⟨D.explicit_deriveDefaults, rfl⟩
    | _ => cases hcall
  rw [intended, intended, finalClass, finalClass,
    filterMap_filter_of_none fun call hcall => (hderive call hcall).1,
    filterMap_filter_of_none fun call hcall => (hderive call hcall).2]

end Dimension

/-- A record with every dimension reset. -/
def FailureRecord.undimensioned (rec : FailureRecord) : FailureRecord :=
  { rec with
    retryability := .UNKNOWN, rollback := .NONE, compensation := .NONE, terminality := .UNKNOWN }

/-- A record is determined by its dimensions and the rest. -/
theorem FailureRecord.eq_of_undimensioned {rec rec' : FailureRecord}
    (hrest : rec.undimensioned = rec'.undimensioned)
    (hretry : rec.retryability = rec'.retryability) (hrollback : rec.rollback = rec'.rollback)
    (hcomp : rec.compensation = rec'.compensation) (hterm : rec.terminality = rec'.terminality) :
    rec = rec' := by
  calc rec = { rec.undimensioned with
        retryability := rec.retryability, rollback := rec.rollback
        compensation := rec.compensation, terminality := rec.terminality } := rfl
    _ = { rec'.undimensioned with
        retryability := rec'.retryability, rollback := rec'.rollback
        compensation := rec'.compensation, terminality := rec'.terminality } := by
      rw [hrest, hretry, hrollback, hcomp, hterm]
    _ = rec' := rfl

/-- What a call leaves outside the dimensions depends on what was there. -/
theorem undimensioned_call (b : FailureRecordBuilder) (call : BuilderCall) :
    (b.call call).r.undimensioned =
      (FailureRecordBuilder.call { r := b.r.undimensioned } call).r.undimensioned := by
  cases call <;> rfl

/-- Outside the dimensions, calls of `derive_defaults` change nothing. -/
theorem undimensioned_run_filter (calls : List BuilderCall) {b b' : FailureRecordBuilder}
    (h : b.r.undimensioned = b'.r.undimensioned) :
    (builder.run b calls).r.undimensioned =
      (builder.run b' (calls.filter (!·.isDerive))).r.undimensioned := by
  induction calls generalizing b b' with
  | nil => exact h
  | cons call calls ih =>
    cases hderive : call.isDerive with
    | true =>
      rw [List.filter_cons_of_neg (by simp [hderive])]
      refine ih ?_
      cases call with
      | deriveDefaults => exact h
      | _ => cases hderive
    | false =>
      rw [List.filter_cons_of_pos (by simp [hderive])]
      refine ih ?_
      show (b.call call).r.undimensioned = (b'.call call).r.undimensioned
      rw [undimensioned_call, h, ← undimensioned_call]

/-! ### What build returns -/

/-- The builder keeps what the caller has asked for: in the built record every dimension has the
    value set last, or else what the class set last suggests, and the calls of `derive_defaults`
    have made no difference. -/
structure KeepsIntent (calls : List BuilderCall) : Prop where
  retryability : ∀ drawn, (built calls drawn).retryability =
    (calls.filterMap BuilderCall.retryability?).getLast?.getD (dimsFor (finalClass calls)).retry
  rollback : ∀ drawn, (built calls drawn).rollback =
    (calls.filterMap BuilderCall.rollback?).getLast?.getD (dimsFor (finalClass calls)).rollback
  compensation : ∀ drawn, (built calls drawn).compensation =
    (calls.filterMap BuilderCall.compensation?).getLast?.getD (dimsFor (finalClass calls)).comp
  terminality : ∀ drawn, (built calls drawn).terminality =
    (calls.filterMap BuilderCall.terminality?).getLast?.getD (dimsFor (finalClass calls)).term
  deriveDefaults : ∀ drawn, built calls drawn = built (calls.filter (!·.isDerive)) drawn

/-- With all dimensions as they were asked for, the record is the one built without the calls of
    `derive_defaults`. -/
theorem built_filter {calls : List BuilderCall} (hretry : Dimension.retryability.Undisturbed calls)
    (hrollback : Dimension.rollback.Undisturbed calls)
    (hcomp : Dimension.compensation.Undisturbed calls)
    (hterm : Dimension.terminality.Undisturbed calls) (drawn : Uuid128) :
    built calls drawn = built (calls.filter (!·.isDerive)) drawn := by
  -- `derive_defaults` touches the four dimensions only, so the other fields never see it
  have hrest : (built calls drawn).undimensioned =
      (built (calls.filter (!·.isDerive)) drawn).undimensioned := by
    have hbuild : ∀ b : FailureRecordBuilder, (b.build drawn).undimensioned =
        (FailureRecordBuilder.build { r := b.r.undimensioned } drawn).undimensioned := fun _ => rfl
    rw [built, built, hbuild, undimensioned_run_filter calls rfl, ← hbuild]
  have hkept : ∀ call ∈ calls.filter (!·.isDerive), call.isDerive = false := fun call hcall => by
    simpa using (List.mem_filter.mp hcall).2
  have hdim : ∀ {ν : Type} [DecidableEq ν] (D : Dimension ν), D.Undisturbed calls →
      D.get (built calls drawn) = D.get (built (calls.filter (!·.isDerive)) drawn) := by
    intro ν _ D h
    calc D.get (built calls drawn) = D.intended calls := (D.get_build_iff calls drawn).mpr h
      _ = D.intended (calls.filter (!·.isDerive)) := (D.intended_filter calls).symm
      _ = D.get (built (calls.filter (!·.isDerive)) drawn) :=
        ((D.get_build_iff _ drawn).mpr (D.undisturbed_of_no_derive hkept)).symm
  exact FailureRecord.eq_of_undimensioned hrest (hdim Dimension.retryability hretry)
    (hdim Dimension.rollback hrollback) (hdim Dimension.compensation hcomp)
    (hdim Dimension.terminality hterm)

/-- **The builder.** For every sequence of calls, `build` keeps what the caller has asked for
    exactly when no `derive_defaults` has come in between in any of the four dimensions. -/
theorem keepsIntent_iff (calls : List BuilderCall) :
    KeepsIntent calls ↔
      Dimension.retryability.Undisturbed calls ∧ Dimension.rollback.Undisturbed calls ∧
        Dimension.compensation.Undisturbed calls ∧ Dimension.terminality.Undisturbed calls := by
  constructor
  · intro h
    let drawn : Uuid128 := .zero
    exact ⟨(Dimension.retryability.get_build_iff calls drawn).mp (h.retryability drawn),
      (Dimension.rollback.get_build_iff calls drawn).mp (h.rollback drawn),
      (Dimension.compensation.get_build_iff calls drawn).mp (h.compensation drawn),
      (Dimension.terminality.get_build_iff calls drawn).mp (h.terminality drawn)⟩
  · rintro ⟨hretry, hrollback, hcomp, hterm⟩
    exact {
      retryability := fun drawn => (Dimension.retryability.get_build_iff calls drawn).mpr hretry
      rollback := fun drawn => (Dimension.rollback.get_build_iff calls drawn).mpr hrollback
      compensation := fun drawn => (Dimension.compensation.get_build_iff calls drawn).mpr hcomp
      terminality := fun drawn => (Dimension.terminality.get_build_iff calls drawn).mpr hterm
      deriveDefaults := built_filter hretry hrollback hcomp hterm }

/-- A rollback requirement that was set to `NONE` on purpose is overwritten, and a suggestion stays
    when the class changes. -/
theorem deriveDefaults_disturbs :
    ¬ KeepsIntent [.failureClass .CORRUPTION, .rollback .NONE, .deriveDefaults] ∧
      ¬ KeepsIntent [.failureClass .TRANSIENT, .deriveDefaults, .failureClass .CORRUPTION] := by
  constructor
  · intro h
    exact absurd (h.rollback .zero) (by decide)
  · intro h
    exact absurd (h.retryability .zero) (by decide)

end FailureFabric
