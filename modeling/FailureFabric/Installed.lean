import FailureFabric.Admission
import FailureFabric.Truncation

namespace FailureFabric

open Library

/-!
# What a load installs

An accepted file becomes the state of the store.  The loader casts the two state codes without a
look at them, takes the terminal flag as it comes, lets a later idempotency entry replace an
earlier one, and does not count the frames of the ownership.

* `installed_valid_iff` — when the operations and the idempotency entries are in valid states;
* `no_conflict_iff` — when no two frames are in conflict, so that everything is installed.
-/

/-! ### Valid states -/

/-- The state is one of the enumerators. -/
def OperationState.Named (s : OperationState) : Prop := s.code < 20

/-- The state is one of the enumerators. -/
def IdempotencyState.Named (s : IdempotencyState) : Prop := s.code < 4

/-- The state is named, and an outcome is recorded exactly in the terminal ones. -/
def OperationRuntime.Valid (rt : OperationRuntime) : Prop :=
  rt.machine.state.Named ∧ (rt.terminalRecorded = true ↔ isTerminal rt.machine.state = true)

/-- Every operation is valid, and every idempotency entry is in one of the four states. -/
structure FailureStore.Valid (s : FailureStore) : Prop where
  runtime : ∀ op rt, s.ops.find op = some rt → rt.Valid
  entry : ∀ op key e, s.idem.find op key = some e → e.state.Named

/-- The pair of the entry. -/
def EntryView.pair (ev : EntryView) : PairKey := ⟨ev.op, ev.key⟩

/-- The entry is the last one of its pair. -/
def LastOfPair (evs : List EntryView) (ev : EntryView) : Prop :=
  ∃ l₁ l₂, evs = l₁ ++ ev :: l₂ ∧ ∀ ev' ∈ l₂, ev'.pair ≠ ev.pair

section Installed

variable {es : List SnapshotEntry}

/-- The entry that is installed for a pair is the last one of the file. -/
theorem find_restored_idem_iff {op : OperationId} {key : IdempotencyKey} {e : IdempotencyEntry} :
    (restored es).idem.find op key = some e ↔
      ∃ ev, LastOfPair (identsOf es) ev ∧ ev.op = op ∧ ev.key = key ∧
        e = { payloadHash := ev.payloadHash, state := ev.state,
              resultMetadata := ev.resultMetadata } := by
  constructor
  · intro h
    obtain ⟨l₁, l₂, hl, hne⟩ := UnorderedMap.exists_last_of_lookup_insertAll h
    obtain ⟨evs₁, evs₂', hevs, rfl, htail⟩ := List.map_eq_append_iff.mp hl
    obtain ⟨ev, evs₂, rfl, heq, rfl⟩ := List.map_eq_cons_iff.mp htail
    obtain ⟨hpair, he⟩ := Sigma.mk.inj heq
    obtain ⟨rfl, rfl⟩ := PairKey.mk.inj hpair
    refine ⟨ev, ⟨evs₁, evs₂, hevs, ?_⟩, rfl, rfl, (eq_of_heq he).symm⟩
    exact fun ev' hev' => hne _ (List.mem_map_of_mem hev')
  · rintro ⟨ev, ⟨evs₁, evs₂, hevs, hlast⟩, rfl, rfl, rfl⟩
    show (UnorderedMap.insertAll ∅ _).lookup _ = _
    rw [hevs, List.map_append, List.map_cons]
    refine UnorderedMap.lookup_insertAll_last ?_ ∅ _
    intro e' he'
    obtain ⟨ev', hev', rfl⟩ := List.mem_map.mp he'
    exact hlast ev' hev'

end Installed

/-- **Valid states.** An accepted file leaves a valid store exactly when its operation frames hold
    valid runtimes, and the last idempotency frame of every pair a named state. -/
theorem installed_valid_iff (s : FailureStore) (data : List UInt8)
    (hload : (s.load (some data)).2 = true) :
    (s.load (some data)).1.Valid ↔ ∀ nfail nop nid es,
      ParsesTo data nfail nop nid es data.length →
        (∀ op rt, .operation op rt ∈ es → rt.Valid) ∧
        ∀ ev, LastOfPair (identsOf es) ev → ev.state.Named := by
  have hacc := (load_true_iff s data).mp hload
  obtain ⟨nfail, nop, nid, es, hparses, -, -, -, -, hops⟩ := hacc
  have hstate := (load_of_accepted ((load_true_iff s data).mp hload) hparses s).2
  rw [hstate]
  constructor
  · intro hvalid nfail' nop' nid' es' hparses'
    obtain ⟨-, -, -, rfl⟩ := hparses.unique hparses'
    refine ⟨fun op rt hmem => hvalid.runtime op rt (find_restored hops hmem), fun ev hlast => ?_⟩
    exact hvalid.entry ev.op ev.key _ (find_restored_idem_iff.mpr ⟨ev, hlast, rfl, rfl, rfl⟩)
  · intro hfile
    obtain ⟨hruntimes, hentries⟩ := hfile nfail nop nid es hparses
    refine ⟨fun op rt hfind => ?_, fun op key e hfind => ?_⟩
    · obtain ⟨⟨op', rt'⟩, hmem, rfl, rfl⟩ := UnorderedMap.exists_of_lookup_made hfind
      exact hruntimes op' rt' (mem_operationsOf.mp hmem)
    · obtain ⟨ev, hlast, -, -, rfl⟩ := find_restored_idem_iff.mp hfind
      exact hentries ev hlast

theorem installed_valid_sample :
    (({} : FailureStore).load (some (sampleStore.save sampleOrders))).1.Valid ↔
      ∀ nfail nop nid es, ParsesTo (sampleStore.save sampleOrders) nfail nop nid es
          (sampleStore.save sampleOrders).length →
        (∀ op rt, .operation op rt ∈ es → rt.Valid) ∧
        ∀ ev, LastOfPair (identsOf es) ev → ev.state.Named :=
  installed_valid_iff {} _ (by rw [load_save sampleOrders sampleStore_saveable])

/-- A file with one operation, whose state has the code 99. -/
def unnamedState : List UInt8 :=
  snapshot 0 1 0 [.operation ⟨.ofByte 2⟩ { machine := ⟨.unnamed 99 (by decide)⟩ }]

/-- It is accepted, and the operation is in no state. -/
theorem unnamed_state_installed :
    (({} : FailureStore).load (some unnamedState)).2 = true ∧
      (({} : FailureStore).load (some unnamedState)).1.ops.state ⟨.ofByte 2⟩ =
        .unnamed 99 (by decide) ∧
      ¬ (({} : FailureStore).load (some unnamedState)).1.Valid := by
  have hes : ∀ e ∈ [SnapshotEntry.operation ⟨.ofByte 2⟩
      { machine := ⟨.unnamed 99 (by decide)⟩ }], e.Encodable := by
    simp only [List.mem_singleton, forall_eq]
    exact ⟨by decide, by decide, by decide⟩
  have hload : ({} : FailureStore).load (some unnamedState) = (restored _, true) :=
    load_snapshot hes (by decide) (by decide) (by decide) (by decide) (by decide) {}
  rw [hload]
  refine ⟨rfl, rfl, fun hvalid => ?_⟩
  have hnamed := (hvalid.runtime ⟨.ofByte 2⟩ _ (find_restored (by decide) List.mem_cons_self)).1
  exact absurd hnamed (by unfold OperationState.Named; decide)

/-! ### Conflicts -/

/-- Nothing that the frames hold is in conflict: every record, every runtime and every idempotency
    entry is installed, the maps are as large as the header says, and there is one ownership at
    most. -/
structure NoConflict (nfail nop nid : UInt32) (es : List SnapshotEntry) (s : FailureStore) :
    Prop where
  failure_ids : ((failuresOf es).map FailureRecord.failureId).Nodup
  operation_ids : ((operationsOf es).map Prod.fst).Nodup
  pairs : ((identsOf es).map EntryView.pair).Nodup
  ownerships : (ownershipsOf es).length ≤ 1
  failures_size : s.failures.size = nfail.toNat
  ops_size : s.ops.ops.size = nop.toNat
  idem_size : s.idem.entries.size = nid.toNat
  failures : ∀ rec ∈ failuresOf es, s.failures.lookup rec.failureId = some rec
  operations : ∀ op rt, .operation op rt ∈ es → s.ops.find op = some rt
  idents : ∀ ev ∈ identsOf es, s.idem.find ev.op ev.key =
    some { payloadHash := ev.payloadHash, state := ev.state, resultMetadata := ev.resultMetadata }

/-- In a list without repeated pairs every entry is the last one of its pair. -/
theorem lastOfPair_of_nodup {evs : List EntryView}
    (h : (evs.map EntryView.pair).Nodup) {ev : EntryView} (hev : ev ∈ evs) :
    LastOfPair evs ev := by
  obtain ⟨l₁, l₂, rfl⟩ := List.append_of_mem hev
  refine ⟨l₁, l₂, rfl, fun ev' hev' hpair => ?_⟩
  rw [List.map_append, List.map_cons] at h
  have hnew := (List.nodup_cons.mp (List.Nodup.of_append_right h)).1
  exact hnew (List.mem_map.mpr ⟨ev', hev', hpair⟩)

/-- **Conflicts.** Nothing in an accepted file is in conflict exactly when no pair is repeated
    among its idempotency frames and it holds one ownership frame at most. -/
theorem no_conflict_iff (s : FailureStore) (data : List UInt8)
    (hload : (s.load (some data)).2 = true) :
    (∀ nfail nop nid es, ParsesTo data nfail nop nid es data.length →
        NoConflict nfail nop nid es (s.load (some data)).1) ↔
      ∀ nfail nop nid es, ParsesTo data nfail nop nid es data.length →
        ((identsOf es).map EntryView.pair).Nodup ∧ (ownershipsOf es).length ≤ 1 := by
  constructor
  · intro hnone nfail nop nid es hparses
    exact ⟨(hnone nfail nop nid es hparses).pairs, (hnone nfail nop nid es hparses).ownerships⟩
  · intro hfile nfail nop nid es hparses
    obtain ⟨hpairs, hown⟩ := hfile nfail nop nid es hparses
    obtain ⟨nfail', nop', nid', es', hparses', hvalid⟩ := (load_true_iff s data).mp hload
    obtain ⟨rfl, rfl, rfl, rfl⟩ := hparses.unique hparses'
    obtain ⟨hnfail, hnop, hnid, hfail, hops⟩ := hvalid
    rw [(load_of_accepted ((load_true_iff s data).mp hload) hparses s).2]
    refine ⟨hfail, hops, hpairs, hown, ?_, ?_, ?_, ?_, ?_, ?_⟩
    · rw [← hnfail]
      exact UnorderedMap.size_made hfail
    · rw [← hnop]
      exact UnorderedMap.size_made hops
    · rw [← hnid]
      exact UnorderedMap.size_made hpairs
    · exact fun rec hrec => lookup_restored_failures hfail hrec
    · exact fun op rt hmem => find_restored hops hmem
    · exact fun ev hev => find_restored_idem_iff.mpr
        ⟨ev, lastOfPair_of_nodup hpairs hev, rfl, rfl, rfl⟩

theorem no_conflict_sample :
    (∀ nfail nop nid es, ParsesTo (sampleStore.save sampleOrders) nfail nop nid es
        (sampleStore.save sampleOrders).length →
        NoConflict nfail nop nid es
          (({} : FailureStore).load (some (sampleStore.save sampleOrders))).1) ↔
      ∀ nfail nop nid es, ParsesTo (sampleStore.save sampleOrders) nfail nop nid es
          (sampleStore.save sampleOrders).length →
        ((identsOf es).map EntryView.pair).Nodup ∧ (ownershipsOf es).length ≤ 1 :=
  no_conflict_iff {} _ (by rw [load_save sampleOrders sampleStore_saveable])

/-- Two idempotency frames with one pair and different hashes. -/
def repeatedPair : List UInt8 :=
  snapshot 0 0 2 [.idempotency ⟨⟨.ofByte 2⟩, {}, 1, .COMPLETED, []⟩,
    .idempotency ⟨⟨.ofByte 2⟩, {}, 2, .FAILED, []⟩]

/-- The file is accepted, and the first of the two entries is gone. -/
theorem repeated_pair_installed :
    (({} : FailureStore).load (some repeatedPair)).2 = true ∧
      (({} : FailureStore).load (some repeatedPair)).1.idem.entries.size = 1 ∧
      ¬ ∀ nfail nop nid es, ParsesTo repeatedPair nfail nop nid es repeatedPair.length →
        NoConflict nfail nop nid es (({} : FailureStore).load (some repeatedPair)).1 := by
  have hes : ∀ e ∈ [SnapshotEntry.idempotency ⟨⟨.ofByte 2⟩, {}, 1, .COMPLETED, []⟩,
      .idempotency ⟨⟨.ofByte 2⟩, {}, 2, .FAILED, []⟩], e.Encodable := by
    simp [SnapshotEntry.Encodable]
  have hload : ({} : FailureStore).load (some repeatedPair) = (restored _, true) :=
    load_snapshot hes (by decide) (by decide) (by decide) (by decide) (by decide) {}
  refine ⟨by rw [hload], by rw [hload]; decide, fun hnone => ?_⟩
  exact absurd (hnone _ _ _ _ (parsesTo_snapshot 0 0 2 hes)).pairs (by decide)

end FailureFabric
