import FailureFabric.RegistryRuns
import FailureFabric.Reload

namespace FailureFabric

open Library

/-!
# Reading back what was written

The store writes whatever its components accepted, and the loader checks every envelope and the
length of every list of dependencies again.  The two sets of checks were written apart: the
registry stores envelopes that it never validates, and the log stores lists that it never counts.

* `load_save_cut` — a store whose envelopes and lists pass the loader's checks is read back,
  texts that are too long included: they are written as empty ones;
* `failureStore` — the calls on the components as one machine;
* `readable_run` — if every envelope and every list that a call stores passes the loader's checks,
  then every state of the run can be read back.
-/

/-! ### Texts that are too long -/

/-- The text that comes back: one that is too long for its length field is written as empty. -/
def Text.cut (t : Text) : Text := if t.length > 0xFFFF then [] else t

/-- A cut text fits its length field. -/
theorem Text.length_cut (t : Text) : t.cut.length ≤ 0xFFFF := by
  unfold cut
  split_ifs with h
  · simp
  · omega

/-- A text and its cut are written alike. -/
theorem BinaryWriter.str16_cut (t : Text) : str16 t.cut = str16 t := by
  unfold Text.cut
  split_ifs with h
  · rw [str16, str16, if_pos h]
    rfl
  · rfl

/-- The entry with its texts cut. -/
def SnapshotEntry.cut : SnapshotEntry → SnapshotEntry
  | failure rec => failure { rec with summary := rec.summary.cut, reason := rec.reason.cut }
  | operation op rt => operation op { rt with terminalOutcome := rt.terminalOutcome.cut }
  | idempotency ev => idempotency { ev with resultMetadata := ev.resultMetadata.cut }
  | ownership own => ownership own

/-- The loader's checks of an entry, but for the lengths of its texts. -/
def SnapshotEntry.Checked : SnapshotEntry → Prop
  | failure rec => rec.dependencies.length ≤ 4096 ∧ validateAuthority rec.authority = true
  | operation _ rt => validateAuthority rt.authority = true ∧ validateAuthority rt.terminal = true
  | idempotency _ | ownership _ => True

namespace SnapshotEntry

/-- Cutting the texts does not change what is written. -/
theorem payload_cut (e : SnapshotEntry) : e.cut.payload = e.payload := by
  cases e with
  | failure rec =>
    show encodeFailureRecord _ = encodeFailureRecord rec
    unfold encodeFailureRecord
    dsimp only
    rw [BinaryWriter.str16_cut, BinaryWriter.str16_cut]
  | operation op rt =>
    show encodeOperation op _ = encodeOperation op rt
    unfold encodeOperation
    dsimp only
    rw [BinaryWriter.str16_cut]
  | idempotency ev =>
    show encodeEntry _ = encodeEntry ev
    unfold encodeEntry
    dsimp only
    rw [BinaryWriter.str16_cut]
  | ownership own => rfl

/-- So its frame is the same. -/
theorem frame_cut (e : SnapshotEntry) : e.cut.frame = e.frame := by
  have hkind : e.cut.kind = e.kind := by cases e <;> rfl
  rw [frame, frame, hkind, payload_cut]

/-- With its texts cut, a checked entry can be read back. -/
theorem Checked.encodable_cut {e : SnapshotEntry} (h : e.Checked) : e.cut.Encodable := by
  cases e with
  | failure rec => exact ⟨Text.length_cut _, Text.length_cut _, h.1, h.2⟩
  | operation op rt => exact ⟨Text.length_cut _, h.1, h.2⟩
  | idempotency ev => exact Text.length_cut _
  | ownership own => trivial

variable (es : List SnapshotEntry)

/-- Cutting leaves the keys of the records. -/
theorem failuresOf_cut : (failuresOf (es.map cut)).map FailureRecord.failureId =
    (failuresOf es).map FailureRecord.failureId := by
  induction es with
  | nil => rfl
  | cons e es ih => cases e <;> simpa [failuresOf, cut] using ih

/-- It leaves the keys of the operations. -/
theorem operationsOf_cut :
    (operationsOf (es.map cut)).map Prod.fst = (operationsOf es).map Prod.fst := by
  induction es with
  | nil => rfl
  | cons e es ih => cases e <;> simpa [operationsOf, cut] using ih

/-- It leaves the number of the others. -/
theorem length_identsOf_cut : (identsOf (es.map cut)).length = (identsOf es).length := by
  induction es with
  | nil => rfl
  | cons e es ih => cases e <;> simpa [identsOf, cut] using ih

/-- A snapshot is that of the cut entries. -/
theorem snapshot_cut (nfail nop nid : Nat) :
    snapshot nfail nop nid (es.map cut) = snapshot nfail nop nid es := by
  unfold snapshot
  rw [List.flatMap_map]
  simp only [frame_cut]

end SnapshotEntry

/-! ### A store that the loader accepts -/

/-- Everything in the store passes the loader's checks. -/
structure FailureStore.Checked (s : FailureStore) : Prop where
  record : ∀ id rec, s.failures.lookup id = some rec →
    rec.failureId = id ∧ (SnapshotEntry.failure rec).Checked
  runtime : ∀ op rt, s.ops.find op = some rt → (SnapshotEntry.operation op rt).Checked

/-- Whatever order `save` takes, every store loads what it writes. -/
def FailureStore.Readable (s : FailureStore) : Prop :=
  ∀ (o : s.Orders) (s₀ : FailureStore), (s₀.load (some (s.save o))).2 = true

section Load

variable {s : FailureStore} (o : s.Orders)

/-- The entries of a checked store are checked. -/
theorem checked_entries (hs : s.Checked) : ∀ e ∈ s.entries o, e.Checked :=
  forall_entries o (fun id rec hrec => (hs.record id rec hrec).2) hs.runtime
    (fun _ _ _ _ => trivial) trivial

/-- The records are iterated under their own ids. -/
theorem failureIds_entries (hs : s.Checked) :
    (failuresOf (s.entries o)).map FailureRecord.failureId = o.failures.map Sigma.fst := by
  rw [FailureStore.failuresOf_entries, List.map_map]
  refine List.map_congr_left ?_
  rintro ⟨id, rec⟩ hmem
  exact (hs.record id rec ((o.failures_iterates.mem_iff id rec).mp hmem)).1

/-- A store that passes the loader's checks is read back, up to the texts that are too long. -/
theorem load_save_cut (hs : s.Checked) (hcount : s.Countable) (s₀ : FailureStore) :
    s₀.load (some (s.save o)) = (restored ((s.entries o).map SnapshotEntry.cut), true) := by
  have hes : ∀ e ∈ (s.entries o).map SnapshotEntry.cut, e.Encodable := by
    intro e he
    obtain ⟨e', he', rfl⟩ := List.mem_map.mp he
    exact (checked_entries o hs e' he').encodable_cut
  have hfail := SnapshotEntry.failuresOf_cut (s.entries o)
  have hops := SnapshotEntry.operationsOf_cut (s.entries o)
  have hnfail : (failuresOf ((s.entries o).map SnapshotEntry.cut)).length =
      (failuresOf (s.entries o)).length := by
    simpa using congrArg List.length hfail
  have hnop : (operationsOf ((s.entries o).map SnapshotEntry.cut)).length =
      (operationsOf (s.entries o)).length := by
    simpa using congrArg List.length hops
  have hnid := SnapshotEntry.length_identsOf_cut (s.entries o)
  rw [FailureStore.save_eq_snapshot, ← hnfail, ← hnop, ← hnid, ← SnapshotEntry.snapshot_cut]
  refine load_snapshot hes ?_ ?_ ?_ ?_ ?_ s₀
  · rw [hfail, failureIds_entries o hs]
    exact o.failures_iterates.nodup_map_fst
  · rw [hops, FailureStore.operationsOf_entries, List.map_map]
    exact o.ops_iterates.nodup_map_fst
  · rw [hnfail, FailureStore.length_failuresOf_entries]
    exact hcount.failures_lt
  · rw [hnop, FailureStore.length_operationsOf_entries]
    exact hcount.ops_lt
  · rw [hnid, FailureStore.length_identsOf_entries]
    exact hcount.idem_lt

end Load

/-- A checked store that can be counted is readable. -/
theorem FailureStore.Checked.readable {s : FailureStore} (hs : s.Checked) (hcount : s.Countable) :
    s.Readable := by
  intro o s₀
  rw [load_save_cut o hs hcount]

/-! ### The calls on the components as one machine -/

/-- A call on a component of the store. -/
inductive StoreCall
  | appendFailure (rec : FailureRecord)
  | operation (c : RegistryCall)
  | restoreOperation (op : OperationId) (rt : OperationRuntime)
  | clearOperations
  | idempotency (c : IdempotencyCall)
  | restoreEntry (ev : EntryView)
  | clearEntries
  | adopt (owner : RecoveryOwner) (gen : Generation) (boot : WorkerBootId)
      (authority : AuthorityEnvelope)
  | transfer (owner : RecoveryOwner) (gen : Generation) (boot : WorkerBootId)
      (authority : AuthorityEnvelope)

/-- What a call returns. -/
inductive StoreResult
  | flag (b : Bool)
  | applied (res : ApplyResult)
  | verdict (v : Option IdempotencyVerdict)
  | nothing
deriving DecidableEq

/-- The components of the store as one machine. -/
def failureStore : Machine FailureStore StoreCall StoreResult where
  step s
    | .appendFailure rec => let (s', b) := s.appendFailure rec; (s', .flag b)
    | .operation c => let (reg, res) := registry.step s.ops c; ({ s with ops := reg }, .applied res)
    | .restoreOperation op rt =>
      let (reg, b) := s.ops.restore op rt; ({ s with ops := reg }, .flag b)
    | .clearOperations => ({ s with ops := {} }, .nothing)
    | .idempotency c =>
      let (idem, v) := idempotency.step s.idem c; ({ s with idem }, .verdict v)
    | .restoreEntry ev =>
      ({ s with
          idem := s.idem.restore ev.op ev.key ev.payloadHash ev.state ev.resultMetadata }, .nothing)
    | .clearEntries => ({ s with idem := {} }, .nothing)
    | .adopt owner gen boot authority =>
      let (own, b) := s.ownership.adopt owner gen boot authority
      ({ s with ownership := own }, .flag b)
    | .transfer owner gen boot authority =>
      let (own, b) := s.ownership.transfer owner gen boot authority
      ({ s with ownership := own }, .flag b)

/-! ### What the calls store -/

/-- The call stores its envelope: `create` of an unknown operation, `dispatch` of one without a
    recorded outcome, and the events that record one. -/
def storesEnvelope (reg : OperationRegistry) : RegistryCall → Bool
  | .create op _ => (reg.find op).isNone
  | .dispatch op _ => (reg.find op).any (fun r => !r.terminalRecorded)
  | c => (reg.find c.op).any (fun r => !r.terminalRecorded && c.outcome.isSome &&
      (c.fence r).accepted && c.targets.any (isAllowed r.machine.state))

/-- `append_failure` accepts the record. -/
def admitsFailure (s : FailureStore) (rec : FailureRecord) : Bool :=
  !rec.failureId.isNull && (s.failures.lookup rec.failureId).isNone && !rec.operation.isNull &&
    !rec.attempt.isNull && validateAuthority rec.authority

/-- What the call stores passes the loader's checks. -/
def storesChecked (s : FailureStore) : StoreCall → Bool
  | .appendFailure rec => !admitsFailure s rec || rec.dependencies.length ≤ 4096
  | .operation c => !storesEnvelope s.ops c || validateAuthority c.envelope
  | .restoreOperation op rt =>
    s.ops.has op || validateAuthority rt.authority && validateAuthority rt.terminal
  | .clearOperations | .idempotency _ | .restoreEntry _ | .clearEntries | .adopt .. | .transfer ..
    => true

section Step

variable {s : FailureStore}

/-- An event that records an outcome stores its envelope. -/
theorem storesEnvelope_of_recorded {reg : OperationRegistry} {c : RegistryCall}
    {r : OperationRuntime} (hfound : reg.find c.op = some r) (hevent : c.isEvent = true)
    (hopen : r.terminalRecorded = false) (hfence : c.Fenced r) {dst : OperationState}
    (hallowed : isAllowed r.machine.state dst = true) (htarget : dst ∈ c.targets)
    (hsome : c.outcome.isSome = true) : storesEnvelope reg c = true := by
  have hstores : (reg.find c.op).any (fun r => !r.terminalRecorded && c.outcome.isSome &&
      (c.fence r).accepted && c.targets.any (isAllowed r.machine.state)) = true := by
    rw [hfound]
    simp only [Option.any_some, hopen, hsome, Bool.not_false, Bool.and_true, Bool.true_and,
      Bool.and_eq_true, List.any_eq_true]
    exact ⟨hfence, dst, htarget, hallowed⟩
  cases c with
  | create | dispatch => simp [RegistryCall.isEvent] at hevent
  | run | reportCompletion | confirmCompletion | reportFailure | transition
  | recordTerminal => exact hstores

/-- A call that does not store its envelope leaves the envelopes of the runtime as they were. -/
theorem RegistryCall.Effect.checked {reg : OperationRegistry} {c : RegistryCall}
    {r r' : OperationRuntime} {res : ApplyResult} (h : c.Effect r r' res)
    (hfound : reg.find c.op = some r) (hr : (SnapshotEntry.operation c.op r).Checked)
    (hC : storesEnvelope reg c = true → validateAuthority c.envelope = true) :
    (SnapshotEntry.operation c.op r').Checked := by
  cases h with
  | refused | repeated | advanced => exact hr
  | rebound hcall hopen | dispatched hcall hopen =>
    obtain ⟨op, hop⟩ := hcall
    refine ⟨hC ?_, hr.2⟩
    rw [hop] at hfound ⊢
    have hlookup : reg.find op = some r := hfound
    simp [storesEnvelope, hlookup, hopen]
  | recorded dst outcome hevent hopen hfence hallowed _ htarget hsome =>
    exact ⟨hr.1, hC (storesEnvelope_of_recorded hfound hevent hopen hfence hallowed htarget
      (by rw [hsome]; rfl))⟩

/-- A call keeps all runtimes checked when the envelope it stores is. -/
theorem checked_step {reg : OperationRegistry} {c : RegistryCall}
    (hreg : ∀ op rt, reg.find op = some rt → (SnapshotEntry.operation op rt).Checked)
    (hC : storesEnvelope reg c = true → validateAuthority c.envelope = true) (op : OperationId)
    (r' : OperationRuntime) (hr' : (registry.step reg c).1.find op = some r') :
    (SnapshotEntry.operation op r').Checked := by
  rcases find_of_step hr' with hold | ⟨hnone, e, rfl, rfl⟩ | ⟨r, hr, rfl, -, heff⟩
  · exact hreg op r' hold
  · exact ⟨hC (by simp [storesEnvelope, hnone]), rfl⟩
  · exact heff.checked hr (hreg _ r hr) hC

/-- `append_failure` returns whether it admits the record. -/
theorem appendFailure_result (s : FailureStore) (rec : FailureRecord) :
    (s.appendFailure rec).2 = admitsFailure s rec := by
  unfold FailureStore.appendFailure admitsFailure
  cases rec.failureId.isNull <;> cases s.failures.lookup rec.failureId <;>
    cases rec.operation.isNull <;> cases rec.attempt.isNull <;>
    cases validateAuthority rec.authority <;> rfl

/-- `append_failure` adds exactly the records that it admits. -/
theorem appendFailure_failures (s : FailureStore) (rec : FailureRecord) :
    (s.appendFailure rec).1.failures =
      if admitsFailure s rec then s.failures.insert rec.failureId rec else s.failures := by
  unfold FailureStore.appendFailure admitsFailure
  split_ifs with _ _ _ _ hadmits <;> simp_all

/-- A runtime that is there after `restore` was there before, or is the one that it brings. -/
theorem find_of_restore {reg : OperationRegistry} {op op' : OperationId} {rt rt' : OperationRuntime}
    (h : (reg.restore op rt).1.find op' = some rt') :
    reg.find op' = some rt' ∨ reg.has op = false ∧ op' = op ∧ rt' = rt := by
  unfold OperationRegistry.restore at h
  cases hknown : reg.find op with
  | some r =>
    rw [hknown] at h
    exact Or.inl h
  | none =>
    rw [hknown] at h
    have hlookup := (UnorderedMap.lookup_insert' reg.ops op op' rt).symm.trans h
    split_ifs at hlookup with hop
    · exact Or.inr ⟨by rw [OperationRegistry.has, hknown]; rfl, hop,
        (Option.some.inj hlookup).symm⟩
    · exact Or.inl hlookup

/-- **Step lemma.** A call that stores what the loader accepts keeps the store acceptable. -/
theorem FailureStore.Checked.step (hs : s.Checked) {c : StoreCall}
    (hC : storesChecked s c = true) : (failureStore.step s c).1.Checked := by
  cases c with
  | appendFailure rec =>
    show (s.appendFailure rec).1.Checked
    refine ⟨?_, ?_⟩
    · intro id rec' hlookup
      rw [appendFailure_failures] at hlookup
      split_ifs at hlookup with hadmits
      · rw [UnorderedMap.lookup_insert'] at hlookup
        split_ifs at hlookup with hid
        · obtain rfl := Option.some.inj hlookup
          have hlen : rec.dependencies.length ≤ 4096 := by
            simpa [storesChecked, hadmits] using hC
          simp only [admitsFailure, Bool.and_eq_true] at hadmits
          exact ⟨hid.symm, hlen, hadmits.2⟩
        · exact hs.record id rec' hlookup
      · exact hs.record id rec' hlookup
    · rw [FailureStore.appendFailure_eq]
      exact hs.runtime
  | operation c =>
    refine ⟨hs.record, checked_step hs.runtime (fun hstores => ?_)⟩
    simpa [storesChecked, hstores] using hC
  | restoreOperation op rt =>
    refine ⟨hs.record, fun op' rt' hfind => ?_⟩
    rcases find_of_restore hfind with hold | ⟨hknown, -, rfl⟩
    · exact hs.runtime op' rt' hold
    · simpa [storesChecked, hknown, SnapshotEntry.Checked] using hC
  | clearOperations =>
    refine ⟨hs.record, fun op rt h => ?_⟩
    have hempty : ({} : OperationRegistry).find op = some rt := h
    exact absurd hempty (by simp [OperationRegistry.find])
  | idempotency | restoreEntry | clearEntries | adopt | transfer => exact ⟨hs.record, hs.runtime⟩

end Step

/-- The empty store is checked. -/
theorem checked_empty : ({} : FailureStore).Checked where
  record := fun id rec h => absurd h (by simp)
  runtime := fun op rt h => absurd h (by simp [OperationRegistry.find])

/-- **Reading back.** A run of the components, from an empty store, in which every envelope and
    every list of dependencies that a call stores passes the loader's checks, ends in a store that
    can be read back, as long as its maps can be counted in 32 bits. -/
theorem readable_run (calls : List StoreCall)
    (hC : failureStore.Always (fun s c => storesChecked s c = true) {} calls)
    (hcount : (failureStore.run {} calls).Countable) : (failureStore.run {} calls).Readable :=
  (Machine.always_induction (fun _ _ hC hs => hs.step hC) checked_empty hC).readable hcount

/-- The record of a worker that was lost. -/
def lostRecord : FailureRecord where
  failureId := ⟨.ofByte 1⟩
  operation := ⟨.ofByte 2⟩
  attempt := ⟨.ofByte 3⟩
  dependencies := [⟨.ofByte 4⟩]
  authority := { attempt := ⟨.ofByte 3⟩, attemptGeneration := ⟨1⟩ }

theorem readable_run_sample :
    (failureStore.run {} [.operation (.create ⟨.ofByte 2⟩ {}), .appendFailure lostRecord,
      .idempotency (.complete ⟨.ofByte 2⟩ {} completedText),
      .adopt .COORDINATOR ⟨1⟩ {} {}]).Readable :=
  readable_run _ (by decide) ⟨by decide, by decide, by decide⟩

/-- An operation is created under an attempt without a generation. -/
def unsetGeneration : List StoreCall :=
  [.operation (.create ⟨.ofByte 2⟩ { attempt := ⟨.ofByte 3⟩ })]

/-- The only iteration orders of the store that holds it. -/
def unsetOrders : (failureStore.run {} unsetGeneration).Orders where
  failures := []
  ops := [⟨⟨.ofByte 2⟩, { authority := { attempt := ⟨.ofByte 3⟩ } }⟩]
  idem := []
  failures_iterates := rfl
  ops_iterates := rfl
  idem_iterates := rfl

/-- Its snapshot is refused. -/
theorem unset_generation_unreadable :
    failureStore.outputs {} unsetGeneration = [.applied .OK] ∧
      (({} : FailureStore).load
        (some ((failureStore.run {} unsetGeneration).save unsetOrders))).2 = false ∧
      ¬ (failureStore.run {} unsetGeneration).Readable := by
  have hrefused : (({} : FailureStore).load
      (some ((failureStore.run {} unsetGeneration).save unsetOrders))).2 = false := by
    decide +kernel
  exact ⟨by decide, hrefused, fun h => by rw [h unsetOrders {}] at hrefused; cases hrefused⟩

end FailureFabric
