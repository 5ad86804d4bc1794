import FailureFabric.Readback
import FailureFabric.Accepted

namespace FailureFabric

open Library

/-!
# Two ways into the log

A record enters the failure log through `append_failure`, which checks it, or through `load`,
whose decoder makes checks of its own.  The two sets of checks are not the same.

* `publicStore` — the public calls of the store, loads of any bytes included, as one machine;
* `log_admitted_iff` — in every state of a run the log holds admissible records only, exactly
  when no file that is loaded and accepted holds a record without a failure, an operation or an
  attempt.
-/

/-! ### The public calls of the store -/

/-- `FailureStore::clear`. -/
def FailureStore.clear (_ : FailureStore) : FailureStore := {}

/-- A public call: on a component, or on the store as a whole. -/
inductive PublicCall
  | component (c : StoreCall)
  | load (file : Option (List UInt8))
  | clear

/-- The store as a machine. -/
def publicStore : Machine FailureStore PublicCall StoreResult where
  step s
    | .component c => failureStore.step s c
    | .load file => let (s', b) := s.load file; (s', .flag b)
    | .clear => (s.clear, .nothing)

/-! ### What each way checks -/

/-- The record names a failure, an operation and an attempt. -/
def FailureRecord.Named (rec : FailureRecord) : Prop :=
  rec.failureId.isNull = false ∧ rec.operation.isNull = false ∧ rec.attempt.isNull = false

instance (rec : FailureRecord) : Decidable rec.Named := by
  unfold FailureRecord.Named
  infer_instance

/-- Every record stands under its own id, and `append_failure` would accept it into an empty
    store. -/
def FailureStore.LogAdmitted (s : FailureStore) : Prop :=
  ∀ id rec, s.failures.lookup id = some rec →
    rec.failureId = id ∧ (({} : FailureStore).appendFailure rec).2 = true

/-- What `append_failure` checks of a record, other than that its id is new. -/
theorem appendFailure_empty_iff (rec : FailureRecord) :
    (({} : FailureStore).appendFailure rec).2 = true ↔
      rec.Named ∧ validateAuthority rec.authority = true := by
  unfold FailureStore.appendFailure FailureRecord.Named
  cases rec.failureId.isNull <;> cases rec.operation.isNull <;> cases rec.attempt.isNull <;>
    cases validateAuthority rec.authority <;> simp

/-- The file is refused, or its records are named. -/
def PublicCall.LoadsNamed : PublicCall → Prop
  | .load (some data) => AcceptableSnapshot data → ∀ nfail nop nid es,
      ParsesTo data nfail nop nid es data.length → ∀ rec ∈ failuresOf es, rec.Named
  | .load none | .component _ | .clear => True

/-! ### The log after a load -/

section Loaded

variable {es : List SnapshotEntry}

/-- The log after a load holds records of the file. -/
theorem mem_failuresOf_of_restored {id : FailureId} {rec : FailureRecord}
    (h : (restored es).failures.lookup id = some rec) :
    rec.failureId = id ∧ rec ∈ failuresOf es := by
  obtain ⟨rec, hmem, rfl, rfl⟩ := UnorderedMap.exists_of_lookup_made h
  exact ⟨rfl, hmem⟩

/-- And it holds them all, when no two have the same id. -/
theorem lookup_restored_failures (hids : ((failuresOf es).map FailureRecord.failureId).Nodup)
    {rec : FailureRecord} (h : rec ∈ failuresOf es) :
    (restored es).failures.lookup rec.failureId = some rec :=
  UnorderedMap.lookup_made (f := fun rec : FailureRecord => ⟨rec.failureId, rec⟩) hids h

end Loaded

/-! ### Runs -/

/-- Of the calls on the components only `append_failure` changes the log. -/
theorem failures_component (s : FailureStore) (c : StoreCall) :
    (failureStore.step s c).1.failures = s.failures ∨
      ∃ rec, c = .appendFailure rec ∧ admitsFailure s rec = true ∧
        (failureStore.step s c).1.failures = s.failures.insert rec.failureId rec := by
  cases c with
  | appendFailure rec =>
    have hfailures := appendFailure_failures s rec
    cases hadmits : admitsFailure s rec with
    | false => exact Or.inl (by rw [hadmits] at hfailures; exact hfailures)
    | true => exact Or.inr ⟨rec, rfl, hadmits, by rw [hadmits] at hfailures; exact hfailures⟩
  | operation | restoreOperation | clearOperations | idempotency | restoreEntry | clearEntries
  | adopt | transfer => exact Or.inl rfl

/-- **Inversion.** A record in the log after a call was there before, or the call brought it in
    under its own id. -/
theorem lookup_failures_of_step {s : FailureStore} {c : PublicCall} {fid : FailureId}
    {rec : FailureRecord} (h : (publicStore.step s c).1.failures.lookup fid = some rec) :
    s.failures.lookup fid = some rec ∨ rec.failureId = fid ∧
      (admitsFailure s rec = true ∨
        ∃ data nfail nop nid es, c = .load (some data) ∧ AcceptableSnapshot data ∧
          ParsesTo data nfail nop nid es data.length ∧ rec ∈ failuresOf es) := by
  cases c with
  | clear => exact absurd h (by simp [publicStore, FailureStore.clear])
  | component c =>
    have hlookup : (failureStore.step s c).1.failures.lookup fid = some rec := h
    rcases failures_component s c with hsame | ⟨rec', -, hadmits, hinsert⟩
    · rw [hsame] at hlookup
      exact Or.inl hlookup
    · rw [hinsert, UnorderedMap.lookup_insert'] at hlookup
      split_ifs at hlookup with hid
      · obtain rfl := Option.some.inj hlookup
        exact Or.inr ⟨hid.symm, Or.inl hadmits⟩
      · exact Or.inl hlookup
  | load file =>
    have hlookup : (s.load file).1.failures.lookup fid = some rec := h
    rcases load_cases s file with ⟨own, hkept⟩ |
      ⟨data, nfail, nop, nid, es, rfl, hacc, hparses, hrestored⟩
    · rw [hkept] at hlookup
      exact Or.inl hlookup
    · rw [hrestored] at hlookup
      obtain ⟨hid, hmem⟩ := mem_failuresOf_of_restored hlookup
      exact Or.inr ⟨hid, Or.inr ⟨data, nfail, nop, nid, es, rfl, hacc, hparses, hmem⟩⟩

/-- **Step lemma.** A call that loads named records only keeps the log admitted. -/
theorem FailureStore.LogAdmitted.step {s : FailureStore} (hs : s.LogAdmitted) {c : PublicCall}
    (hc : c.LoadsNamed) : (publicStore.step s c).1.LogAdmitted := by
  intro fid rec hrec
  rcases lookup_failures_of_step hrec with hold | ⟨hid, hadmits | hloads⟩
  · exact hs fid rec hold
  · simp only [admitsFailure, Bool.and_eq_true, Bool.not_eq_true'] at hadmits
    obtain ⟨⟨⟨⟨hfailure, -⟩, hop⟩, hattempt⟩, hauthority⟩ := hadmits
    exact ⟨hid, (appendFailure_empty_iff rec).mpr ⟨⟨hfailure, hop, hattempt⟩, hauthority⟩⟩
  · obtain ⟨data, nfail, nop, nid, es, rfl, hacc, hparses, hmem⟩ := hloads
    have hauthority := (hparses.encodable _ (mem_failuresOf.mp hmem)).authority_valid
    exact ⟨hid, (appendFailure_empty_iff rec).mpr
      ⟨hc hacc nfail nop nid es hparses rec hmem, hauthority⟩⟩

theorem FailureStore.LogAdmitted.run {s : FailureStore} (hs : s.LogAdmitted)
    {calls : List PublicCall} (hcalls : ∀ c ∈ calls, c.LoadsNamed) :
    (publicStore.run s calls).LogAdmitted := by
  induction calls generalizing s with
  | nil => exact hs
  | cons c calls ih =>
    exact ih (hs.step (hcalls c List.mem_cons_self))
      (fun c' hc' => hcalls c' (List.mem_cons_of_mem c hc'))

/-- **One admission rule.** In a run that starts empty, the log is admitted in every state exactly
    when every file that is loaded and accepted holds named records only. -/
theorem log_admitted_iff (calls : List PublicCall) :
    (∀ pre, pre <+: calls → (publicStore.run {} pre).LogAdmitted) ↔
      ∀ c ∈ calls, c.LoadsNamed := by
  constructor
  · intro hadmitted c hc
    obtain ⟨pre, post, rfl⟩ := List.append_of_mem hc
    cases c with
    | component | clear => trivial
    | load file =>
      cases file with
      | none => trivial
      | some data =>
        intro hacc nfail nop nid es hparses rec hmem
        obtain ⟨hids, hload⟩ := load_of_accepted hacc hparses (publicStore.run {} pre)
        -- the state right after the load
        have hafter := hadmitted (pre ++ [.load (some data)]) ⟨post, by simp⟩
        rw [Machine.run_concat] at hafter
        have hstate : (publicStore.step (publicStore.run {} pre) (.load (some data))).1 =
            restored es := congrArg Prod.fst hload
        rw [hstate] at hafter
        have haccepted := (hafter rec.failureId rec (lookup_restored_failures hids hmem)).2
        exact ((appendFailure_empty_iff rec).mp haccepted).1
  · rintro hnamed pre ⟨post, rfl⟩
    refine FailureStore.LogAdmitted.run (fun fid rec h => absurd h (by simp)) (fun c hc => ?_)
    exact hnamed c (List.mem_append_left _ hc)

/-- A file with one record, all of whose ids are null. -/
def anonymousFile : List UInt8 := snapshot 1 0 0 [.failure {}]

/-- It is accepted, and the log then holds a record that `append_failure` refuses. -/
theorem anonymous_record_loaded :
    (publicStore.outputs {} [.load (some anonymousFile)]) = [.flag true] ∧
      (publicStore.run {} [.load (some anonymousFile)]).failures.lookup ⟨.zero⟩ = some {} ∧
      (({} : FailureStore).appendFailure {}).2 = false ∧
      ¬ (publicStore.run {} [.load (some anonymousFile)]).LogAdmitted := by
  have hlookup : (publicStore.run {} [.load (some anonymousFile)]).failures.lookup ⟨.zero⟩ =
      some {} := by decide +kernel
  refine ⟨by decide +kernel, hlookup, by decide, fun hadmitted => ?_⟩
  exact absurd (hadmitted _ _ hlookup).2 (by decide)

end FailureFabric
