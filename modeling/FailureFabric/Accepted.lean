import FailureFabric.Reload

namespace FailureFabric

open Library

/-!
# What a load accepts

A file may hold anything.  Whatever `load` makes of it can be saved again and read back: the
decoders let through only what the encoders write without loss, and the commit keeps it.

* `ensures_failureRecord`, `ensures_operation`, `ensures_entry` — what the payload decoders let
  through;
* `wellFormed_restored` — encodable entries restore a well formed store;
* `load_of_accepted`, `load_of_refused` — what a load leaves of the store; `load_cases` puts the
  two together;
* `load_wellFormed` — a load leaves a well formed store, whatever the file and the result.
-/

/-! ### The decoders -/

section Decoders

open BinaryReader

/-- The length field bounds a text. -/
theorem ensures_str16 : Ensures str16 (fun s => s.length ≤ 0xFFFF) := by
  refine .after (fun len => ?_)
  intro r s r' h
  dsimp only at h
  split_ifs at h
  · obtain ⟨rfl, -⟩ := Prod.mk.inj (Option.some.inj h)
    exact Nat.zero_le _
  · obtain ⟨rfl, -⟩ := Prod.mk.inj (Option.some.inj h)
    have hlen := len.toNat_lt
    rw [List.length_take]
    omega

/-- An accepted authority is valid. -/
theorem ensures_auth : Ensures decAuth (fun e => validateAuthority e = true) := by
  unfold decAuth
  -- eight fields and the state of the reader
  iterate 9 refine .after (fun _ => ?_)
  exact Ensures.check.bind (fun _ h => .pure h)

/-- An accepted operation can be written again. -/
theorem ensures_operation : Ensures decodeOperation (fun p => p.2.Encodable) := by
  unfold decodeOperation
  iterate 5 refine .after (fun _ => ?_)
  refine ensures_str16.bind (fun outcome houtcome => ?_)
  iterate 2 refine .after (fun _ => ?_)
  refine ensures_auth.bind (fun authority hauthority => ?_)
  refine ensures_auth.bind (fun terminal hterminal => ?_)
  refine .after (fun _ => .pure ?_)
  exact ⟨houtcome, hauthority, hterminal⟩

/-- So can an accepted entry. -/
theorem ensures_entry : Ensures decodeEntry (fun ev => ev.resultMetadata.length ≤ 0xFFFF) := by
  unfold decodeEntry
  iterate 4 refine .after (fun _ => ?_)
  refine ensures_str16.bind (fun metadata hmetadata => ?_)
  exact .after (fun _ => .pure hmetadata)

/-- So can an accepted record. -/
theorem ensures_failureRecord : Ensures decodeFailureRecord FailureRecord.Encodable := by
  unfold decodeFailureRecord
  -- the identities, the two codes with their checks, and the failure code
  iterate 15 refine .after (fun _ => ?_)
  refine ensures_str16.bind (fun summary hsummary => ?_)
  refine ensures_str16.bind (fun reason hreason => ?_)
  -- what happened, the authority, the dimensions, the cause and the number of dependencies
  iterate 20 refine .after (fun _ => ?_)
  refine .after (fun ndeps => .after (fun _ => ?_))
  refine Ensures.check.bind (fun _ hndeps => ?_)
  refine (Ensures.many _ _).bind (fun deps hdeps => .after (fun _ => ?_))
  refine Ensures.check.bind (fun _ hauthority => .pure ?_)
  refine ⟨hsummary, hreason, ?_, hauthority⟩
  show deps.length ≤ 4096
  rw [hdeps]
  exact UInt32.le_iff_toNat_le.mp hndeps

end Decoders

/-- The entry that a frame holds can be read back. -/
theorem encodable_of_entryOf {h : FrameHeader} {e : SnapshotEntry} (he : entryOf h = some e) :
    e.Encodable := by
  unfold entryOf at he
  dsimp only at he
  split_ifs at he <;> obtain ⟨⟨a, r⟩, hdec, rfl⟩ := Option.map_eq_some_iff.mp he
  · exact ensures_failureRecord _ a r hdec
  · exact ensures_operation _ a r hdec
  · exact ensures_entry _ a r hdec
  · trivial

/-! ### The commit -/

section Restored

variable {es : List SnapshotEntry}

/-- The records of a snapshot are those of its entries. -/
theorem mem_failuresOf {rec : FailureRecord} : rec ∈ failuresOf es ↔ .failure rec ∈ es := by
  rw [failuresOf, List.mem_filterMap]
  constructor
  · rintro ⟨e, he, hrec⟩
    cases e with
    | failure rec' => exact (Option.some.inj hrec) ▸ he
    | operation | idempotency | ownership => exact absurd hrec (by simp)
  · exact fun h => ⟨_, h, rfl⟩

/-- So are its operations. -/
theorem mem_operationsOf {op : OperationId} {rt : OperationRuntime} :
    (op, rt) ∈ operationsOf es ↔ .operation op rt ∈ es := by
  rw [operationsOf, List.mem_filterMap]
  constructor
  · rintro ⟨e, he, hop⟩
    cases e with
    | operation op' rt' =>
      obtain ⟨rfl, rfl⟩ := Prod.mk.inj (Option.some.inj hop)
      exact he
    | failure | idempotency | ownership => exact absurd hop (by simp)
  · exact fun h => ⟨_, h, rfl⟩

/-- So are its entries of the idempotency store. -/
theorem mem_identsOf {ev : EntryView} : ev ∈ identsOf es ↔ .idempotency ev ∈ es := by
  rw [identsOf, List.mem_filterMap]
  constructor
  · rintro ⟨e, he, hev⟩
    cases e with
    | idempotency ev' => exact (Option.some.inj hev) ▸ he
    | failure | operation | ownership => exact absurd hev (by simp)
  · exact fun h => ⟨_, h, rfl⟩

/-- **Commit lemma.** Encodable entries restore a well formed store. -/
theorem wellFormed_restored (hes : ∀ e ∈ es, e.Encodable) : (restored es).WellFormed where
  record := by
    intro id rec h
    obtain ⟨rec, hmem, rfl, rfl⟩ := UnorderedMap.exists_of_lookup_made h
    exact ⟨rfl, hes _ (mem_failuresOf.mp hmem)⟩
  runtime := by
    intro op rt h
    obtain ⟨⟨op, rt⟩, hmem, rfl, rfl⟩ := UnorderedMap.exists_of_lookup_made h
    exact hes _ (mem_operationsOf.mp hmem)
  metadata := by
    intro op key e h
    obtain ⟨ev, hmem, -, rfl⟩ := UnorderedMap.exists_of_lookup_made h
    exact hes _ (mem_identsOf.mp hmem)

/-- The runtime of an entry is restored when no other entry is of its operation. -/
theorem find_restored (hops : ((operationsOf es).map Prod.fst).Nodup) {op : OperationId}
    {rt : OperationRuntime} (h : .operation op rt ∈ es) :
    (restored es).ops.find op = some rt :=
  UnorderedMap.lookup_made (f := fun p : OperationId × OperationRuntime => ⟨p.1, p.2⟩) hops
    (mem_operationsOf.mpr h)

end Restored

/-! ### The load -/

/-- The frames that cover the data are determined by it. -/
theorem Frames.unique {data : List UInt8} {off off' : Nat} {hs hs' : List FrameHeader}
    (h : Frames data off hs off') (h' : Frames data off hs' off') (hend : off' = data.length) :
    hs = hs' := by
  induction h generalizing hs' with
  | nil =>
    cases h' with
    | nil => rfl
    | cons hdec _ =>
      have hbounds := decodeFrame_bounds hdec
      omega
  | cons hdec _ ih =>
    cases h' with
    | nil =>
      have hbounds := decodeFrame_bounds hdec
      omega
    | cons hdec' hrest' =>
      rw [hdec] at hdec'
      obtain ⟨rfl, rfl⟩ := Prod.mk.inj (Option.some.inj hdec')
      rw [ih hrest' hend]

/-- The counts and the entries of a file are determined by it. -/
theorem ParsesTo.unique {data : List UInt8} {nfail nop nid nfail' nop' nid' : UInt32}
    {es es' : List SnapshotEntry} (h : ParsesTo data nfail nop nid es data.length)
    (h' : ParsesTo data nfail' nop' nid' es' data.length) :
    nfail = nfail' ∧ nop = nop' ∧ nid = nid' ∧ es = es' := by
  obtain ⟨h, hs, hframes, hheader, hentries⟩ := h
  obtain ⟨h₁, hs₁, hframes₁, hheader₁, hentries₁⟩ := h'
  obtain ⟨rfl, rfl⟩ := List.cons.inj (hframes.unique hframes₁ rfl)
  rw [hheader] at hheader₁
  rw [hentries] at hentries₁
  obtain ⟨rfl, hcounts⟩ := Prod.mk.inj (Option.some.inj hheader₁)
  obtain ⟨rfl, rfl⟩ := Prod.mk.inj hcounts
  exact ⟨rfl, rfl, rfl, Option.some.inj hentries₁⟩

/-- What a list of answers holds is the answer for some element. -/
private theorem mem_of_mapM {α β : Type} {f : α → Option β} {l : List α} {bs : List β}
    (h : l.mapM f = some bs) {b : β} (hb : b ∈ bs) : ∃ a ∈ l, f a = some b := by
  induction l generalizing bs with
  | nil =>
    obtain rfl : [] = bs := Option.some.inj h
    exact absurd hb List.not_mem_nil
  | cons a l ih =>
    rw [List.mapM_cons] at h
    obtain ⟨b', hb', hrest⟩ := Option.bind_eq_some_iff.mp h
    obtain ⟨bs', hbs', hcons⟩ := Option.bind_eq_some_iff.mp hrest
    obtain rfl : b' :: bs' = bs := Option.some.inj hcons
    rcases List.mem_cons.mp hb with rfl | hmem
    · exact ⟨a, List.mem_cons_self, hb'⟩
    · obtain ⟨a', ha', hfa⟩ := ih hbs' hmem
      exact ⟨a', List.mem_cons_of_mem a ha', hfa⟩

/-- Every entry that the frames of a file hold can be read back. -/
theorem ParsesTo.encodable {data : List UInt8} {nfail nop nid : UInt32} {es : List SnapshotEntry}
    {off : Nat} (h : ParsesTo data nfail nop nid es off) : ∀ e ∈ es, e.Encodable := by
  obtain ⟨_, hs, -, -, hentries⟩ := h
  intro e he
  obtain ⟨h, -, hh⟩ := mem_of_mapM hentries he
  exact encodable_of_entryOf hh

/-- What an accepted load leaves. -/
theorem load_of_accepted {data : List UInt8} {nfail nop nid : UInt32} {es : List SnapshotEntry}
    (hacc : AcceptableSnapshot data) (hparses : ParsesTo data nfail nop nid es data.length)
    (s : FailureStore) :
    ((failuresOf es).map FailureRecord.failureId).Nodup ∧
      s.load (some data) = (restored es, true) := by
  obtain ⟨nfail', nop', nid', es', hparses', hvalid⟩ := hacc
  obtain ⟨rfl, rfl, rfl, rfl⟩ := hparses.unique hparses'
  refine ⟨hvalid.2.2.2.1, ?_⟩
  rw [load_of_parsesTo hparses, if_pos ((valid_of_iff nfail nop nid s.ownership).mpr hvalid),
    commit_of hvalid.2.2.2.2]

/-- A load that is refused leaves everything but the ownership. -/
theorem load_of_refused {data : List UInt8} (hacc : ¬ AcceptableSnapshot data)
    (s : FailureStore) : ∃ own, (s.load (some data)).1 = { s with ownership := own } := by
  by_cases hne : data = []
  · subst hne
    exact ⟨s.ownership, rfl⟩
  · rw [← load_true_iff s, Bool.not_eq_true] at hacc
    exact ⟨_, load_false_eq hne hacc⟩

/-- **All that a load can do.** It leaves everything but the ownership, or it restores what the
    frames of an acceptable file hold. -/
theorem load_cases (s : FailureStore) (file : Option (List UInt8)) :
    (∃ own, (s.load file).1 = { s with ownership := own }) ∨
      ∃ data nfail nop nid es, file = some data ∧ AcceptableSnapshot data ∧
        ParsesTo data nfail nop nid es data.length ∧ (s.load file).1 = restored es := by
  cases file with
  | none => exact Or.inl ⟨s.ownership, rfl⟩
  | some data =>
    by_cases hacc : AcceptableSnapshot data
    · obtain ⟨nfail, nop, nid, es, hparses, -⟩ := id hacc
      have hload := (load_of_accepted hacc hparses s).2
      exact Or.inr ⟨data, nfail, nop, nid, es, rfl, hacc, hparses, congrArg Prod.fst hload⟩
    · exact Or.inl (load_of_refused hacc s)

/-- **What a load accepts is well formed.** Whatever the file holds, and whether it is accepted
    or not, a load into a well formed store leaves a well formed store. -/
theorem load_wellFormed {s : FailureStore} (hs : s.WellFormed) (file : Option (List UInt8)) :
    (s.load file).1.WellFormed := by
  rcases load_cases s file with ⟨own, hkept⟩ | ⟨_, _, _, _, es, -, -, hparses, hrestored⟩
  · rw [hkept]
    exact ⟨hs.record, hs.runtime, hs.metadata⟩
  · rw [hrestored]
    exact wellFormed_restored hparses.encodable

/-- The empty store is well formed. -/
theorem wellFormed_empty : ({} : FailureStore).WellFormed where
  record := fun id rec h => absurd h (by simp)
  runtime := fun op rt h => absurd h (by simp [OperationRegistry.find])
  metadata := fun op key e h => absurd h (by simp [IdempotencyStore.find])

end FailureFabric
