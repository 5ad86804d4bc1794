import FailureFabric.Snapshot

namespace FailureFabric

open Library

/-!
# Reloading a store

What survives a save and a load, and what a failed load leaves behind.

* `reload_saved` — the log, the operations and the idempotency entries survive, for every
  iteration order and every loading store.
* `ownership_lost` — the recovery ownership never does: the commit resets it after the frame
  loop has adopted it.
* `failed_load_unchanged_iff` — a failed load leaves the store as it was unless an ownership
  frame was adopted before the rejection; the theorem gives the exact condition.
-/

/-! ### The log, the operations and the idempotency entries -/

/-- Everything in the store can be written and read back. -/
structure FailureStore.WellFormed (s : FailureStore) : Prop where
  record : ∀ id rec, s.failures.lookup id = some rec → rec.failureId = id ∧ rec.Encodable
  runtime : ∀ op rt, s.ops.find op = some rt → rt.Encodable
  metadata : ∀ op key e, s.idem.find op key = some e → e.resultMetadata.length ≤ 0xFFFF

/-- The counts of the snapshot header hold the sizes of the maps. -/
structure FailureStore.Countable (s : FailureStore) : Prop where
  failures_lt : s.failures.size < 2 ^ 32
  ops_lt : s.ops.ops.size < 2 ^ 32
  idem_lt : s.idem.entries.size < 2 ^ 32

/-- A store within the limits of the snapshot format. -/
structure FailureStore.Saveable (s : FailureStore) : Prop extends s.WellFormed, s.Countable

/-- What a snapshot keeps of an idempotency entry: hash, state and metadata. -/
def IdempotencyEntry.saved (e : IdempotencyEntry) : UInt64 × IdempotencyState × Text :=
  (e.payloadHash, e.state, e.resultMetadata)

section Reload

variable {s : FailureStore} (o : s.Orders)

/-- What holds of everything in the store holds of every entry that `save` writes. -/
theorem forall_entries {P : SnapshotEntry → Prop}
    (hfailure : ∀ id rec, s.failures.lookup id = some rec → P (.failure rec))
    (hoperation : ∀ op rt, s.ops.find op = some rt → P (.operation op rt))
    (hidempotency : ∀ op key e, s.idem.find op key = some e →
      P (.idempotency (FailureStore.viewOf ⟨⟨op, key⟩, e⟩)))
    (hownership : P (.ownership s.ownership)) : ∀ e ∈ s.entries o, P e := by
  intro e he
  simp only [FailureStore.entries, List.mem_append, List.mem_map, List.mem_singleton] at he
  rcases he with ⟨⟨id, rec⟩, hmem, rfl⟩ | ⟨⟨op, rt⟩, hmem, rfl⟩ | ⟨⟨pair, ent⟩, hmem, rfl⟩ | rfl
  · exact hfailure id rec ((o.failures_iterates.mem_iff id rec).mp hmem)
  · exact hoperation op rt ((o.ops_iterates.mem_iff op rt).mp hmem)
  · exact hidempotency pair.op pair.key ent ((o.idem_iterates.mem_iff pair ent).mp hmem)
  · exact hownership

/-- Every entry that `save` writes can be read back. -/
theorem encodable_entries (hs : s.WellFormed) : ∀ e ∈ s.entries o, e.Encodable :=
  forall_entries o (fun id rec hrec => (hs.record id rec hrec).2) hs.runtime hs.metadata trivial

/-- The iteration of the log is the list of its records under their ids. -/
theorem map_failureId (hs : s.WellFormed) :
    (o.failures.map Sigma.snd).map (fun rec => (⟨rec.failureId, rec⟩ : Entry _ _)) =
      o.failures := by
  rw [List.map_map]
  refine (List.map_congr_left ?_).trans (List.map_id _)
  rintro ⟨id, rec⟩ hmem
  have hid := (hs.record id rec ((o.failures_iterates.mem_iff id rec).mp hmem)).1
  show (⟨rec.failureId, rec⟩ : Entry _ _) = ⟨id, rec⟩
  rw [hid]

/-- No record is iterated twice. -/
theorem nodup_failureIds (hs : s.WellFormed) :
    ((o.failures.map Sigma.snd).map FailureRecord.failureId).Nodup := by
  have hkeys : (o.failures.map Sigma.snd).map FailureRecord.failureId =
      o.failures.map Sigma.fst := by
    conv_rhs => rw [← map_failureId o hs]
    simp [List.map_map, Function.comp_def]
  rw [hkeys]
  exact o.failures_iterates.nodup_map_fst

/-- The saved bytes are accepted by every store and restore the saved entries. -/
theorem load_save (hs : s.Saveable) (s₀ : FailureStore) :
    s₀.load (some (s.save o)) = (restored (s.entries o), true) := by
  rw [FailureStore.save_eq_snapshot]
  refine load_snapshot (encodable_entries o hs.toWellFormed) ?_ ?_ ?_ ?_ ?_ s₀
  · rw [FailureStore.failuresOf_entries]
    exact nodup_failureIds o hs.toWellFormed
  · rw [FailureStore.operationsOf_entries, List.map_map]
    exact o.ops_iterates.nodup_map_fst
  · rw [FailureStore.length_failuresOf_entries]
    exact hs.failures_lt
  · rw [FailureStore.length_operationsOf_entries]
    exact hs.ops_lt
  · rw [FailureStore.length_identsOf_entries]
    exact hs.idem_lt

theorem restored_failures (hs : s.WellFormed) :
    (restored (s.entries o)).failures = s.failures := by
  unfold restored
  rw [FailureStore.failuresOf_entries]
  dsimp only
  rw [map_failureId o hs]
  exact o.failures_iterates.insertAll_eq

theorem restored_ops : (restored (s.entries o)).ops = s.ops := by
  unfold restored
  rw [FailureStore.operationsOf_entries]
  dsimp only
  rw [List.map_map]
  have hself : o.ops.map ((fun p : OperationId × OperationRuntime => (⟨p.1, p.2⟩ : Entry _ _)) ∘
      fun e => (e.1, e.2)) = o.ops := List.map_id _
  rw [hself, o.ops_iterates.insertAll_eq]

/-- An entry comes back without the authority of its first submission, which is not saved. -/
theorem restored_idem (op : OperationId) (key : IdempotencyKey) :
    (restored (s.entries o)).idem.find op key = (s.idem.find op key).map (fun e =>
      { payloadHash := e.payloadHash, state := e.state, resultMetadata := e.resultMetadata }) := by
  have h := o.idem_iterates.lookup_insertAll_map (fun e : IdempotencyEntry =>
    ({ payloadHash := e.payloadHash, state := e.state, resultMetadata := e.resultMetadata } :
      IdempotencyEntry)) ⟨op, key⟩
  unfold restored
  rw [FailureStore.identsOf_entries]
  dsimp only
  rw [List.map_map]
  exact h

end Reload

/-- **Save and load.** For every iteration order and every loading store, the saved bytes are
    accepted and the log, the operations and the idempotency entries are those that were saved. -/
theorem reload_saved (s : FailureStore) (hs : s.Saveable) (o : s.Orders) (s₀ : FailureStore) :
    ∃ s₁, s₀.load (some (s.save o)) = (s₁, true) ∧ s₁.failures = s.failures ∧ s₁.ops = s.ops ∧
      ∀ op key, (s₁.idem.find op key).map IdempotencyEntry.saved =
        (s.idem.find op key).map IdempotencyEntry.saved := by
  refine ⟨restored (s.entries o), load_save o hs s₀, restored_failures o hs.toWellFormed,
    restored_ops o, fun op key => ?_⟩
  rw [restored_idem, Option.map_map]
  rfl

/-- A store with one failure record, one confirmed operation, one completed idempotency entry
    and an assigned ownership. -/
def sampleStore : FailureStore where
  failures := Finmap.singleton ⟨.ofByte 1⟩
    { failureId := ⟨.ofByte 1⟩, operation := ⟨.ofByte 2⟩, attempt := ⟨.ofByte 3⟩,
      summary := Text.ofLiteral "worker lost mid-execution", dependencies := [⟨.ofByte 4⟩],
      authority := { attempt := ⟨.ofByte 3⟩, attemptGeneration := ⟨1⟩ } }
  ops := ⟨Finmap.singleton ⟨.ofByte 2⟩
    { machine := ⟨.COMPLETION_CONFIRMED⟩, terminalRecorded := true, attemptCount := 2,
      terminalOutcome := completedText }⟩
  idem := ⟨Finmap.singleton ⟨⟨.ofByte 2⟩, ⟨.ofByte 5⟩⟩
    { payloadHash := 77, state := .COMPLETED, resultMetadata := Text.ofLiteral "ok" }⟩
  ownership := ⟨.REPLACEMENT_WORKER, ⟨7⟩, ⟨.ofByte 9⟩⟩

/-- Its only iteration orders. -/
def sampleOrders : sampleStore.Orders where
  failures := [⟨⟨.ofByte 1⟩, _⟩]
  ops := [⟨⟨.ofByte 2⟩, _⟩]
  idem := [⟨⟨⟨.ofByte 2⟩, ⟨.ofByte 5⟩⟩, _⟩]
  failures_iterates := rfl
  ops_iterates := rfl
  idem_iterates := rfl

/-- The only value of a map with one entry. -/
private theorem of_lookup_singleton {κ α : Type} [DecidableEq κ] {k k' : κ} {a a' : α}
    (h : (Finmap.singleton k a : UnorderedMap κ α).lookup k' = some a') : k' = k ∧ a' = a := by
  have hmem : (⟨k', a'⟩ : Entry κ α) ∈ [(⟨k, a⟩ : Entry κ α)] := Finmap.lookup_eq_some_iff.mp h
  obtain ⟨hk, ha⟩ := Sigma.mk.inj (List.mem_singleton.mp hmem)
  exact ⟨hk, eq_of_heq ha⟩

theorem sampleStore_saveable : sampleStore.Saveable where
  record := by
    intro id rec h
    obtain ⟨rfl, rfl⟩ := of_lookup_singleton h
    exact ⟨rfl, by decide, by decide, by decide, by decide⟩
  runtime := by
    intro op rt h
    obtain ⟨-, rfl⟩ := of_lookup_singleton h
    exact ⟨by decide, by decide, by decide⟩
  metadata := by
    intro op key e h
    obtain ⟨-, rfl⟩ := of_lookup_singleton h
    decide
  failures_lt := by decide
  ops_lt := by decide
  idem_lt := by decide

theorem reload_saved_sample :
    ∃ s₁, ({} : FailureStore).load (some (sampleStore.save sampleOrders)) = (s₁, true) ∧
      s₁.failures = sampleStore.failures ∧ s₁.ops = sampleStore.ops ∧
      ∀ op key, (s₁.idem.find op key).map IdempotencyEntry.saved =
        (sampleStore.idem.find op key).map IdempotencyEntry.saved :=
  reload_saved sampleStore sampleStore_saveable sampleOrders {}

/-! ### The recovery ownership -/

/-- The ownership that `s'` holds is the one of `s`, and fences the transfers that it fences. -/
structure OwnershipSurvives (s s' : FailureStore) : Prop where
  same : s'.ownership = s.ownership
  stale_rejected : ∀ owner gen boot authority, ¬ s.ownership.generation < gen →
    (s'.ownership.transfer owner gen boot authority).2 = false

/-- After a successful load the ownership is unassigned, whatever the file holds. -/
theorem load_true_ownership {s₀ : FailureStore} {file : Option (List UInt8)}
    (h : (s₀.load file).2 = true) : (s₀.load file).1.ownership = {} := by
  unfold FailureStore.load at h ⊢
  split at h
  · exact absurd h (by simp)
  · next data =>
    dsimp only at h ⊢
    split_ifs at h ⊢
    rfl

/-- An unassigned ownership is transferred to any generation that is set. -/
theorem transfer_of_unassigned {owner : RecoveryOwner} {gen : Generation}
    (howner : owner ≠ .NONE) (hgen : gen.isUnset = false) (boot : WorkerBootId)
    (authority : AuthorityEnvelope) :
    (({} : RecoveryOwnership).transfer owner gen boot authority).2 = true := by
  unfold RecoveryOwnership.transfer
  rw [if_neg howner, if_neg (by simp [hgen]), if_pos rfl,
    RecoveryOwnership.adopt_of_unassigned rfl howner hgen]

/-- **Ownership is lost.** No assigned ownership survives a save and a successful load, into any
    store: neither the ownership itself nor its fence against stale generations does. -/
theorem ownership_lost (s : FailureStore) (o : s.Orders) (s₀ : FailureStore)
    (hassigned : s.ownership.isUnassigned = false)
    (hgen : s.ownership.generation.isUnset = false)
    (hload : (s₀.load (some (s.save o))).2 = true) :
    ¬ OwnershipSurvives s (s₀.load (some (s.save o))).1 := by
  rintro ⟨-, hstale⟩
  have howner : s.ownership.owner ≠ .NONE := by
    simpa [RecoveryOwnership.isUnassigned] using hassigned
  -- the very generation that was saved is accepted again
  have hreject := hstale s.ownership.owner s.ownership.generation s.ownership.boot {}
    (by rw [Generation.lt_iff]; omega)
  rw [load_true_ownership hload, transfer_of_unassigned howner hgen] at hreject
  exact absurd hreject (by simp)

theorem ownership_lost_sample :
    ¬ OwnershipSurvives sampleStore
      (({} : FailureStore).load (some (sampleStore.save sampleOrders))).1 :=
  ownership_lost sampleStore sampleOrders {} rfl rfl
    (by rw [load_save sampleOrders sampleStore_saveable])

/-- The sample store holds generation 7; after the reload a transfer to generation 3 succeeds. -/
theorem stale_transfer_after_reload :
    sampleStore.ownership = ⟨.REPLACEMENT_WORKER, ⟨7⟩, ⟨.ofByte 9⟩⟩ ∧
    ∃ s₁, ({} : FailureStore).load (some (sampleStore.save sampleOrders)) = (s₁, true) ∧
      s₁.ownership ≠ sampleStore.ownership ∧
      (s₁.ownership.transfer .OPERATOR ⟨3⟩ {} {}).2 = true :=
  ⟨rfl, _, load_save sampleOrders sampleStore_saveable {}, by decide, by decide⟩

/-! ### A failed load -/

/-- The entry assigns an ownership that has none. -/
def SnapshotEntry.Adoptable : SnapshotEntry → Prop
  | ownership own => own.owner ≠ .NONE ∧ own.generation.isUnset = false
  | _ => False

section Ownership

variable {st : LoadState} {es : List SnapshotEntry}

/-- Entries do not change an assigned ownership. -/
theorem ownership_foldl_of_assigned (h : st.ownership.isUnassigned = false) :
    (es.foldl LoadState.add st).ownership = st.ownership := by
  induction es generalizing st with
  | nil => rfl
  | cons e es ih =>
    have hadd : (st.add e).ownership = st.ownership := by
      cases e with
      | ownership own => exact RecoveryOwnership.adopt_of_assigned h _ _ _ _
      | failure | operation | idempotency => rfl
    rw [List.foldl_cons, ih (by rw [hadd]; exact h), hadd]

/-- Without an adoptable entry the ownership stays as it is. -/
theorem ownership_foldl_of_not_adoptable (h : ∀ e ∈ es, ¬ e.Adoptable) :
    (es.foldl LoadState.add st).ownership = st.ownership := by
  induction es generalizing st with
  | nil => rfl
  | cons e es ih =>
    rw [List.foldl_cons, ih (fun e' he' => h e' (List.mem_cons_of_mem e he'))]
    cases e with
    | ownership own =>
      exact RecoveryOwnership.adopt_of_not_adoptable (h _ List.mem_cons_self) _ _
    | failure | operation | idempotency => rfl

/-- After an adoptable entry the ownership is assigned. -/
theorem ownership_foldl_of_adoptable {e : SnapshotEntry} (he : e ∈ es) (had : e.Adoptable) :
    (es.foldl LoadState.add st).ownership.isUnassigned = false := by
  induction es generalizing st with
  | nil => exact absurd he List.not_mem_nil
  | cons e' es ih =>
    rcases List.mem_cons.mp he with rfl | hmem
    · have hadd : (st.add e).ownership.isUnassigned = false := by
        cases e with
        | failure | operation | idempotency => exact absurd had id
        | ownership own =>
          show (st.ownership.adopt own.owner own.generation own.boot {}).1.isUnassigned = false
          cases hst : st.ownership.isUnassigned with
          | false => rw [RecoveryOwnership.adopt_of_assigned hst, hst]
          | true =>
            rw [RecoveryOwnership.adopt_of_unassigned hst had.1 had.2]
            simpa [RecoveryOwnership.isUnassigned] using had.1
      rw [List.foldl_cons, ownership_foldl_of_assigned hadd, hadd]
    · exact ih hmem

end Ownership

/-- Before the first rejected byte the data holds an ownership that can be adopted. -/
def EarlyOwnership (data : List UInt8) : Prop :=
  ∃ nfail nop nid es off, ParsesTo data nfail nop nid es off ∧ ∃ e ∈ es, e.Adoptable

/-- The data is a snapshot: it parses to its end, the counts are right, and no failure or
    operation is repeated. -/
def AcceptableSnapshot (data : List UInt8) : Prop :=
  ∃ nfail nop nid es, ParsesTo data nfail nop nid es data.length ∧
    (failuresOf es).length = nfail.toNat ∧ (operationsOf es).length = nop.toNat ∧
    (identsOf es).length = nid.toNat ∧ ((failuresOf es).map FailureRecord.failureId).Nodup ∧
    ((operationsOf es).map Prod.fst).Nodup

section Failed

variable {data : List UInt8}

/-- The frames that the loop of `load` accepts parse, when there are any. -/
theorem parsesTo_of_frames {off : Nat} {h : FrameHeader} {hs : List FrameHeader}
    {own : RecoveryOwnership} {st : LoadState} (hframes : Frames data 0 (h :: hs) off)
    (hst : (h :: hs).foldlM loadFrame { ownership := own } = some st) :
    ∃ nfail nop nid es, ParsesTo data nfail nop nid es off ∧
      st = .of nfail nop nid es own := by
  rw [List.foldlM_cons, loadFrame_first rfl] at hst
  obtain ⟨st₁, hst₁, hrest⟩ := Option.bind_eq_some_iff.mp hst
  obtain ⟨⟨⟨nfail, nop, nid⟩, r⟩, hp, rfl⟩ := Option.map_eq_some_iff.mp hst₁
  obtain ⟨es, hentries, rfl⟩ := (foldlM_loadFrame_iff rfl hs).mp hrest
  exact ⟨nfail, nop, nid, es, ⟨h, hs, hframes, by rw [hp]; rfl, hentries⟩, rfl⟩

/-- What the loop of `load` leaves: it accepted no frame, or what it accepted parses. -/
theorem loadLoop_parses (data : List UInt8) (own : RecoveryOwnership) :
    (loadLoop data data.length 0 { ownership := own } =
      ({ ownership := own }, decide (data = []))) ∨
    ∃ nfail nop nid es off, ParsesTo data nfail nop nid es off ∧
      loadLoop data data.length 0 { ownership := own } =
        (.of nfail nop nid es own, decide (data.length ≤ off)) := by
  obtain ⟨hs, off, hframes, hst, hend⟩ :=
    loadLoop_maximal data data.length 0 { ownership := own } (by omega)
  have hparsed : (loadLoop data data.length 0 { ownership := own }).2 =
      decide (data.length ≤ off) := by
    rw [Bool.eq_iff_iff, decide_eq_true_eq]
    exact hend
  cases hs with
  | nil =>
    left
    cases hframes
    refine Prod.ext (Option.some.inj hst).symm (hparsed.trans ?_)
    rw [decide_eq_decide, ← List.length_eq_zero_iff]
    omega
  | cons h hs =>
    right
    obtain ⟨nfail, nop, nid, es, hparses, hof⟩ := parsesTo_of_frames hframes hst
    exact ⟨nfail, nop, nid, es, off, hparses, Prod.ext hof hparsed⟩

/-- An acceptable snapshot is accepted, and nothing else is. -/
theorem load_true_iff (s : FailureStore) (data : List UInt8) :
    (s.load (some data)).2 = true ↔ AcceptableSnapshot data := by
  constructor
  · intro h
    rcases loadLoop_parses data s.ownership with hnone | ⟨nfail, nop, nid, es, off, hparses, hloop⟩
    · unfold FailureStore.load at h
      simp only [hnone] at h
      split_ifs at h with hempty hvalid
      exact absurd hvalid (by simp [hempty])
    · have hbound : off ≤ data.length := by
        obtain ⟨_, _, hframes, -⟩ := hparses
        exact hframes.bounds.2 (Nat.zero_le _)
      unfold FailureStore.load at h
      simp only [hloop] at h
      split_ifs at h with hempty hvalid
      rw [Bool.and_eq_true, decide_eq_true_eq, valid_of_iff] at hvalid
      obtain rfl : off = data.length := le_antisymm hbound hvalid.1
      exact ⟨nfail, nop, nid, es, hparses, hvalid.2⟩
  · rintro ⟨nfail, nop, nid, es, hparses, hvalid⟩
    rw [load_of_parsesTo hparses, if_pos ((valid_of_iff nfail nop nid s.ownership).mpr hvalid)]

/-- A failed load of a file that is not empty changes the ownership as the loop did, and nothing
    else. -/
theorem load_false_eq {s : FailureStore} (hne : data ≠ []) (h : (s.load (some data)).2 = false) :
    (s.load (some data)).1 =
      { s with
        ownership := (loadLoop data data.length 0 { ownership := s.ownership }).1.ownership } := by
  unfold FailureStore.load at h ⊢
  simp only [if_neg hne] at h ⊢
  split_ifs at h ⊢
  rfl

/-- An adoptable ownership before the first rejection leaves an assigned one. -/
theorem loadLoop_assigned (h : EarlyOwnership data) (own : RecoveryOwnership) :
    (loadLoop data data.length 0 { ownership := own }).1.ownership.isUnassigned = false := by
  obtain ⟨nfail, nop, nid, es, off, hparses, e, he, had⟩ := h
  obtain ⟨fuel, hfuel, hloop⟩ := loadLoop_of_parsesTo hparses own
  obtain ⟨hs, _, -, hrest, -⟩ := loadLoop_maximal data fuel off (.of nfail nop nid es own) hfuel
  have hassigned : (LoadState.of nfail nop nid es own).ownership.isUnassigned = false :=
    ownership_foldl_of_adoptable he had
  have hfirst : (LoadState.of nfail nop nid es own).first = false := by
    unfold LoadState.of
    rw [foldl_add]
  obtain ⟨es', -, hfold⟩ := (foldlM_loadFrame_iff hfirst hs).mp hrest
  rw [hloop, ← hfold, ownership_foldl_of_assigned hassigned, hassigned]

/-- Without an adoptable ownership before the first rejection the loop leaves the ownership
    alone, and with an assigned one it does so in any case. -/
theorem loadLoop_ownership {own : RecoveryOwnership}
    (h : own.isUnassigned = false ∨ ¬ EarlyOwnership data) :
    (loadLoop data data.length 0 { ownership := own }).1.ownership = own := by
  rcases loadLoop_parses data own with hnone | ⟨nfail, nop, nid, es, off, hparses, hloop⟩
  · rw [hnone]
  · rw [hloop]
    rcases h with hassigned | hearly
    · exact ownership_foldl_of_assigned hassigned
    · exact ownership_foldl_of_not_adoptable
        (fun e he had => hearly ⟨nfail, nop, nid, es, off, hparses, e, he, had⟩)

end Failed

/-- **A failed load.** A failed load leaves the store as it was exactly when the ownership was
    assigned before, or the file holds no adoptable ownership before its first rejection, or the
    file is acceptable, so that the load does not fail. -/
theorem failed_load_unchanged_iff (s : FailureStore) (file : Option (List UInt8)) :
    ((s.load file).2 = false → (s.load file).1 = s) ↔
      (s.ownership.isUnassigned = false ∨
        ∀ data, file = some data → ¬ EarlyOwnership data ∨ AcceptableSnapshot data) := by
  cases file with
  | none => exact ⟨fun _ => Or.inr (fun data h => absurd h (by simp)), fun _ _ => rfl⟩
  | some data =>
    by_cases hne : data = []
    · subst hne
      refine ⟨fun _ => Or.inr ?_, fun _ _ => rfl⟩
      rintro data hdata
      obtain rfl : [] = data := Option.some.inj hdata
      left
      rintro ⟨_, _, _, _, _, ⟨_, _, hframes, -⟩, -⟩
      have hbounds := hframes.bounds
      rw [List.length_cons, List.length_nil] at hbounds
      omega
    constructor
    · intro hunchanged
      by_contra hcond
      push Not at hcond
      obtain ⟨hassigned, data', hdata, hearly, hacc⟩ := hcond
      obtain rfl : data = data' := Option.some.inj hdata
      have hfalse : (s.load (some data)).2 = false := by
        rw [← Bool.not_eq_true, load_true_iff]
        exact hacc
      -- the store before was unassigned, the store after is assigned
      have hown := congrArg FailureStore.ownership (hunchanged hfalse)
      rw [load_false_eq hne hfalse] at hown
      have hloop := loadLoop_assigned hearly s.ownership
      dsimp only at hown
      rw [hown] at hloop
      exact hassigned hloop
    · intro hcond hfalse
      rw [load_false_eq hne hfalse]
      have hkept : s.ownership.isUnassigned = false ∨ ¬ EarlyOwnership data := by
        refine hcond.imp id (fun h => (h data rfl).resolve_right ?_)
        rw [← load_true_iff s, hfalse]
        simp
      rw [loadLoop_ownership hkept]

/-- A snapshot that announces one failure and holds none, but an ownership. -/
def shortSnapshot : List UInt8 := snapshot 1 0 0 [.ownership ⟨.COORDINATOR, ⟨1⟩, ⟨.ofByte 9⟩⟩]

/-- Loading it into an empty store fails, and assigns the recovery ownership. -/
theorem failed_load_assigns :
    (({} : FailureStore).load (some shortSnapshot)).2 = false ∧
      (({} : FailureStore).load (some shortSnapshot)).1.ownership =
        ⟨.COORDINATOR, ⟨1⟩, ⟨.ofByte 9⟩⟩ ∧
      (({} : FailureStore).load (some shortSnapshot)).1 ≠ {} := by
  have hes : ∀ e ∈ [SnapshotEntry.ownership ⟨.COORDINATOR, ⟨1⟩, ⟨.ofByte 9⟩⟩], e.Encodable := by
    simp [SnapshotEntry.Encodable]
  have hparses := parsesTo_snapshot 1 0 0 hes
  have hload : ({} : FailureStore).load (some shortSnapshot) =
      ({ ownership := ⟨.COORDINATOR, ⟨1⟩, ⟨.ofByte 9⟩⟩ }, false) := by
    rw [shortSnapshot, load_of_parsesTo hparses, if_neg (by decide)]
    rfl
  rw [hload]
  refine ⟨rfl, rfl, fun h => ?_⟩
  exact absurd (congrArg FailureStore.ownership h) (by decide)

end FailureFabric
