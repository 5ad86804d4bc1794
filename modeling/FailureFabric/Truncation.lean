import FailureFabric.Readback
import FailureFabric.Corruption

namespace FailureFabric

open Library

/-!
# Truncated files

What the loader makes of the first bytes of a saved file.  A cut inside of a frame is always
found.  A cut between two frames is found by the counts of the header, and these do not count the
ownership frame, which is written last.

* `refuses_operation`, `refuses_failureRecord` — what fails the loader's checks is not decoded;
* `entry_of_prefix`, `kept_of_frames` — from a prefix of the saved frames the loop reads whole
  frames only, and gets the entries that they were written for;
* `truncation_detected_iff` — which prefixes are refused;
* `uncountedCut_iff` — the one cut of a store that is read back whole that is not found.
-/

/-! ### Entries that fail the loader's checks -/

section Refused

open BinaryReader Reads

/-- An invalid authority is refused. -/
theorem refuses_auth {e : AuthorityEnvelope} (he : ¬ validateAuthority e = true) :
    Refuses decAuth (encAuth e) := by
  unfold encAuth decAuth
  simp only [List.append_assoc]
  refine (reads_generation _).bind_refuses ?_
  iterate 3 refine (reads_id _).bind_refuses ?_
  iterate 3 refine (reads_generation _).bind_refuses ?_
  have hcheck : Refuses (do
      checkOk
      guard (validateAuthority e = true)
      return e : Decoder BinaryReader AuthorityEnvelope) [] :=
    reads_checkOk.nil_bind_refuses (Refuses.check he).bind
  rw [← List.append_nil (BinaryWriter.generation e.recoveryGeneration)]
  exact (reads_generation _).bind_refuses hcheck

/-- So is an operation one of whose authorities is. -/
theorem refuses_operation (op : OperationId) {rt : OperationRuntime}
    (houtcome : rt.terminalOutcome.length ≤ 0xFFFF)
    (hbad : ¬ (SnapshotEntry.operation op rt).Checked) :
    Refuses decodeOperation (encodeOperation op rt) := by
  unfold encodeOperation decodeOperation
  simp only [List.append_assoc]
  refine reads_checkOk.nil_bind_refuses ((reads_id _).bind_refuses ?_)
  refine (reads_enumv _).bind_refuses ((reads_u32 _).bind_refuses ((reads_u8 _).bind_refuses ?_))
  refine (reads_str16 houtcome).bind_refuses ((reads_u8 _).bind_refuses ?_)
  refine (reads_uuid _).bind_refuses ?_
  by_cases hauthority : validateAuthority rt.authority = true
  · refine (reads_auth hauthority).bind_refuses (refuses_auth ?_).bind
    exact fun hterminal => hbad ⟨hauthority, hterminal⟩
  · exact (refuses_auth hauthority).append.bind

/-- So is a record that fails a check of the decoder. -/
theorem refuses_failureRecord {rec : FailureRecord} (hsummary : rec.summary.length ≤ 0xFFFF)
    (hreason : rec.reason.length ≤ 0xFFFF) (hdeps : rec.dependencies.length < 2 ^ 32)
    (hbad : ¬ (SnapshotEntry.failure rec).Checked) :
    Refuses decodeFailureRecord (encodeFailureRecord rec) := by
  have hclass : WireEnum.code rec.failureClass < 23 := by
    rw [UInt32.lt_iff_toNat_lt]
    exact WireEnum.code_lt rec.failureClass
  have horigin : WireEnum.code rec.origin < 11 := by
    rw [UInt32.lt_iff_toNat_lt]
    exact WireEnum.code_lt rec.origin
  have hndeps : (UInt32.ofNat rec.dependencies.length).toNat = rec.dependencies.length :=
    UInt32.toNat_ofNat_of_lt' hdeps
  unfold encodeFailureRecord decodeFailureRecord
  simp only [List.append_assoc]
  refine reads_checkOk.nil_bind_refuses ?_
  iterate 9 refine (reads_id _).bind_refuses ?_
  refine (reads_enumv _).bind_refuses ((reads_enumv _).bind_refuses ?_)
  refine reads_checkOk.nil_bind_refuses ((check ⟨hclass, horigin⟩).nil_bind_refuses ?_)
  refine (reads_u32 _).bind_refuses ?_
  refine (reads_str16 hsummary).bind_refuses ((reads_str16 hreason).bind_refuses ?_)
  refine (reads_enumBelow rfl _).bind_refuses ((reads_u64 _).bind_refuses ?_)
  refine (reads_enumBelow rfl _).bind_refuses ((reads_enumBelow rfl _).bind_refuses ?_)
  refine (reads_u32 _).bind_refuses ((reads_generation _).bind_refuses ?_)
  iterate 3 refine (reads_id _).bind_refuses ?_
  iterate 4 refine (reads_generation _).bind_refuses ?_
  iterate 6 refine (reads_enumBelow rfl _).bind_refuses ?_
  refine (reads_id _).bind_refuses ((reads_u32 _).bind_refuses ?_)
  refine reads_checkOk.nil_bind_refuses ?_
  by_cases hfew : UInt32.ofNat rec.dependencies.length ≤ 4096
  · refine (check hfew).nil_bind_refuses ?_
    rw [hndeps, ← List.append_nil (rec.dependencies.flatMap _)]
    refine (Reads.many (fun d _ => reads_id d)).bind_refuses (reads_checkOk.nil_bind_refuses ?_)
    refine (Refuses.check (fun hauthority => hbad ⟨?_, hauthority⟩)).bind
    rwa [UInt32.le_iff_toNat_le, hndeps] at hfew
  · exact (Refuses.check hfew).bind

end Refused

/-- The dependencies of a record can be counted in the 32 bits of their count. -/
def SnapshotEntry.Bounded : SnapshotEntry → Prop
  | failure rec => rec.dependencies.length < 2 ^ 32
  | operation .. | idempotency _ | ownership _ => True

/-- The frame of the entry is read: `decode_frame` and the decoder of its kind accept it. -/
def SnapshotEntry.FrameRead (e : SnapshotEntry) : Prop :=
  ∃ h next e', decodeFrame e.frame 0 = some (h, next) ∧ entryOf h = some e'

/-! ### Frames of a prefix -/

/-- The kind, the length field and the payload of a frame are determined by its bytes. -/
theorem frameBody_inj {kind kind' : UInt8} {payload payload' t t' : List UInt8}
    (h : frameBody kind payload ++ t = frameBody kind' payload' ++ t') :
    kind = kind' ∧ UInt32.ofNat payload.length = UInt32.ofNat payload'.length ∧
      payload ++ t = payload' ++ t' := by
  simp only [frameBody, List.append_assoc] at h
  have hmagic := List.append_cancel_left (List.append_cancel_left h)
  obtain ⟨hkind, hlen⟩ := List.append_inj hmagic (by simp)
  obtain ⟨hfield, hrest⟩ := List.append_inj hlen (by simp)
  exact ⟨(List.cons.inj hkind).1, BinaryWriter.u32_injective hfield, hrest⟩

section Prefix

variable {data t : List UInt8} {off next : Nat} {h : FrameHeader}

/-- The frame that is decoded from a prefix of a frame and what follows: its kind is the one that
    was written, and its payload a part of what was written, the whole one if it fits. -/
theorem payload_of_prefix {kind : UInt8} {payload : List UInt8}
    (hpre : data.drop off <+: encodeFrame kind payload ++ t)
    (hdec : decodeFrame data off = some (h, next)) :
    h.kind = kind ∧ h.payload <+: payload ∧ (payload.length < 2 ^ 32 → h.payload = payload) := by
  obtain ⟨hbytes, hlt, -, -⟩ := decodeFrame_bytes hdec
  obtain ⟨z, hz⟩ := hpre
  rw [hbytes, encodeFrame] at hz
  simp only [List.append_assoc] at hz
  obtain ⟨hkind, hfield, hrest⟩ := frameBody_inj hz
  have hmod : h.payload.length = payload.length % 2 ^ 32 := by
    have hnat := congrArg UInt32.toNat hfield
    rwa [UInt32.toNat_ofNat_of_lt' (by rw [UInt32.size]; omega), UInt32.toNat_ofNat'] at hnat
  have hpart : h.payload <+: payload := by
    have hwritten := List.prefix_append payload
      (BinaryWriter.u64 (fnv1a64 (frameBody kind payload)) ++ t)
    refine List.prefix_of_prefix_length_le ⟨_, hrest⟩ hwritten ?_
    rw [hmod]
    exact Nat.mod_le _ _
  refine ⟨hkind, hpart, fun hfits => hpart.eq_of_length ?_⟩
  rw [hmod, Nat.mod_eq_of_lt hfits]

/-- And it is decoded from the written frame alone. -/
theorem decodeFrame_of_prefix {kind : UInt8} {payload : List UInt8}
    (hpre : data.drop off <+: encodeFrame kind payload ++ t)
    (hdec : decodeFrame data off = some (h, next)) :
    ∃ next', decodeFrame (encodeFrame kind payload) 0 = some (h, next') := by
  obtain ⟨-, hpart, -⟩ := payload_of_prefix hpre hdec
  obtain ⟨hbytes, hlt, -, hck⟩ := decodeFrame_bytes hdec
  have hrange : (11 + UInt32.ofNat h.payload.length).toNat ≤
      (frameBody h.kind h.payload).length := by
    rw [UInt32.toNat_add, UInt32.toNat_ofNat_of_lt' hlt, length_frameBody]
    exact Nat.mod_le _ _
  rw [hbytes, List.take_append_of_le_length hrange] at hck
  -- what was decoded is no longer than the written frame
  have hwithin : frameBody h.kind h.payload ++ BinaryWriter.u64 h.checksum <+:
      encodeFrame kind payload := by
    rw [hbytes, ← List.append_assoc] at hpre
    refine List.prefix_of_prefix_length_le ((List.prefix_append _ _).trans hpre)
      (List.prefix_append _ t) ?_
    rw [List.length_append, length_frameBody, BinaryWriter.length_u64, length_encodeFrame]
    have hle := hpart.length_le
    omega
  obtain ⟨post, hpost⟩ := hwithin
  have hdec' := decodeFrame_frameBody h.kind hlt hck [] post
  rw [List.nil_append, ← List.append_assoc, hpost] at hdec'
  exact ⟨_, hdec'⟩

/-- A frame of the kind of records is read by their decoder. -/
theorem entryOf_failure (hkind : h.kind = K_FAIL) :
    entryOf h = (decodeFailureRecord { data := h.payload }).map (fun p => .failure p.1) := by
  unfold entryOf
  rw [if_pos hkind]

/-- A frame of the kind of operations by theirs. -/
theorem entryOf_operation (hkind : h.kind = K_OP) :
    entryOf h = (decodeOperation { data := h.payload }).map (fun p => .operation p.1.1 p.1.2) := by
  unfold entryOf
  rw [if_neg (by rw [hkind]; decide), if_pos hkind]

/-- A payload that begins with what a decoder refuses holds no value. -/
theorem refuses_payload {α : Type} {m : Decoder BinaryReader α} {bs : List UInt8}
    (hm : Refuses m bs) (t : List UInt8) : m { data := bs ++ t } = none :=
  hm _ t ⟨rfl, Nat.zero_le _⟩ rfl

/-- An operation fits a frame. -/
theorem length_encodeOperation_lt (op : OperationId) (rt : OperationRuntime) :
    (encodeOperation op rt).length < 2 ^ 32 := by
  have houtcome := BinaryWriter.length_str16_le rt.terminalOutcome
  simp only [encodeOperation, encAuth, List.length_append, BinaryWriter.length_uuid,
    BinaryWriter.length_enumv, BinaryWriter.length_u32, BinaryWriter.length_u8,
    BinaryWriter.length_generation]
  omega

/-- What is decoded from a part of an entry's payload passed the loader's checks. -/
theorem checked_of_entryOf {e e' : SnapshotEntry} (hbounded : e.Bounded) (hkind : h.kind = e.kind)
    (hpart : h.payload <+: e.payload) (hwhole : e.payload.length < 2 ^ 32 → h.payload = e.payload)
    (he : entryOf h = some e') : e.Checked := by
  by_contra hbad
  have hcut := e.payload_cut
  cases e with
  | idempotency | ownership => exact hbad trivial
  | operation op rt =>
    have hrefuses : Refuses decodeOperation (SnapshotEntry.operation op rt).cut.payload :=
      refuses_operation op (Text.length_cut _) hbad
    have hnone := refuses_payload hrefuses []
    rw [List.append_nil, hcut] at hnone
    rw [entryOf_operation hkind, hwhole (length_encodeOperation_lt op rt), hnone] at he
    exact absurd he (by simp)
  | failure rec =>
    have hrefuses : Refuses decodeFailureRecord (SnapshotEntry.failure rec).cut.payload :=
      refuses_failureRecord (Text.length_cut _) (Text.length_cut _) hbounded hbad
    have hnone := refuses_payload hrefuses []
    rw [List.append_nil, hcut] at hnone
    rw [entryOf_failure hkind] at he
    obtain ⟨⟨rec', r⟩, hdec, -⟩ := Option.map_eq_some_iff.mp he
    -- what is decoded from a part of the payload would be decoded from the whole payload
    obtain ⟨bs, hpayload, hbs⟩ := payload_of_takes takes_failureRecord ends_failureRecord hdec
    obtain ⟨t, ht⟩ := hpart
    rw [hpayload, hbs, List.append_assoc] at ht
    obtain ⟨r', hr', -⟩ := reads_failureRecord (ensures_failureRecord _ _ _ hdec)
      { data := (SnapshotEntry.failure rec).payload } _ ⟨rfl, Nat.zero_le _⟩ ht.symm
    rw [hnone] at hr'
    exact absurd hr' (by simp)

/-- **Frame of an entry.** When a frame is read from a prefix of an entry's frame and what
    follows, then the entry passed the loader's checks, its whole frame is there, and the entry
    that is read is the one that was written, with its texts cut. -/
theorem entry_of_prefix {e e' : SnapshotEntry} (hbounded : e.FrameRead → e.Bounded)
    (hpre : data.drop off <+: e.frame ++ t) (hdec : decodeFrame data off = some (h, next))
    (he : entryOf h = some e') :
    e.Checked ∧ e' = e.cut ∧ data.drop off = e.frame ++ data.drop next := by
  obtain ⟨hkind, hpart, hwhole⟩ := payload_of_prefix hpre hdec
  obtain ⟨next', halone⟩ := decodeFrame_of_prefix hpre hdec
  have hchecked := checked_of_entryOf (hbounded ⟨h, next', e', halone, he⟩) hkind hpart hwhole he
  have hfits := hchecked.encodable_cut.length_le
  rw [e.payload_cut] at hfits
  have hpayload := hwhole (by omega)
  have hframe := decodeFrame_canonical hdec (by rw [hpayload]; exact hfits)
  rw [hkind, hpayload] at hframe
  refine ⟨hchecked, ?_, hframe⟩
  have hcut := entryOf_frame hchecked.encodable_cut h.checksum
  have hh : h = ⟨e.cut.kind, e.cut.payload, h.checksum⟩ := by
    rw [e.payload_cut, ← hpayload, show e.cut.kind = h.kind by rw [hkind]; cases e <;> rfl]
  rw [← hh, he] at hcut
  exact Option.some.inj hcut

end Prefix

/-- **Prefix lemma.** Frames that cover a prefix of what was written for some entries are the
    whole frames of the first of these entries, all of which pass the loader's checks. -/
theorem kept_of_frames {data : List UInt8} {off : Nat} {hs : List FrameHeader}
    {es es' : List SnapshotEntry} (hbounded : ∀ e ∈ es, e.FrameRead → e.Bounded)
    (hpre : data.drop off <+: es.flatMap SnapshotEntry.frame)
    (hframes : Frames data off hs data.length) (hentries : hs.mapM entryOf = some es') :
    ∃ kept, kept <+: es ∧ data.drop off = kept.flatMap SnapshotEntry.frame ∧
      (∀ e ∈ kept, e.Checked) ∧ es' = kept.map SnapshotEntry.cut := by
  generalize hend : data.length = off' at hframes
  induction hframes generalizing es es' with
  | nil =>
    obtain rfl : [] = es' := Option.some.inj hentries
    exact ⟨[], List.nil_prefix, by rw [← hend, List.drop_length]; rfl, by simp, rfl⟩
  | @cons off next _ h hs hdec _ ih =>
    rw [List.mapM_cons] at hentries
    obtain ⟨e', he', hrest⟩ := Option.bind_eq_some_iff.mp hentries
    obtain ⟨es₁', hes₁', hcons⟩ := Option.bind_eq_some_iff.mp hrest
    obtain rfl : e' :: es₁' = es' := Option.some.inj hcons
    cases es with
    | nil =>
      have hbounds := decodeFrame_bounds hdec
      have hlen := hpre.length_le
      rw [List.length_drop, List.flatMap_nil, List.length_nil] at hlen
      omega
    | cons e es =>
      rw [List.flatMap_cons] at hpre
      obtain ⟨hchecked, rfl, hframe⟩ :=
        entry_of_prefix (hbounded e List.mem_cons_self) hpre hdec he'
      rw [hframe, List.prefix_append_right_inj] at hpre
      obtain ⟨kept, hkept, hdrop, hall, rfl⟩ :=
        ih (fun e' he' => hbounded e' (List.mem_cons_of_mem e he')) hpre hes₁' hend
      refine ⟨e :: kept, List.prefix_cons_inj e |>.mpr hkept, ?_, ?_, rfl⟩
      · rw [hframe, hdrop, List.flatMap_cons]
      · exact List.forall_mem_cons.mpr ⟨hchecked, hall⟩

/-- A prefix of a snapshot that parses is the snapshot, with the same counts, of the first of its
    entries. -/
theorem kept_of_parsesTo {p : List UInt8} {nfail nop nid : Nat} {es es' : List SnapshotEntry}
    {cfail cop cid : UInt32} (hbounded : ∀ e ∈ es, e.FrameRead → e.Bounded)
    (hpre : p <+: snapshot nfail nop nid es) (h : ParsesTo p cfail cop cid es' p.length) :
    ∃ kept, kept <+: es ∧ p = snapshot nfail nop nid kept ∧ (∀ e ∈ kept, e.Checked) ∧
      es' = kept.map SnapshotEntry.cut ∧ cfail = UInt32.ofNat nfail ∧ cop = UInt32.ofNat nop ∧
      cid = UInt32.ofNat nid := by
  obtain ⟨h, hs, hframes, hheader, hentries⟩ := h
  generalize hend : p.length = off' at hframes
  cases hframes with
  | cons hdec hrest =>
    subst hend
    have hpre' : p.drop 0 <+: encodeFrame 0 (encodeHeader nfail nop nid) ++
        es.flatMap SnapshotEntry.frame := hpre
    obtain ⟨hkind, -, hwhole⟩ := payload_of_prefix hpre' hdec
    have hpayload : h.payload = encodeHeader nfail nop nid := hwhole (by simp [encodeHeader])
    have hframe := decodeFrame_canonical hdec (by simp [hpayload, encodeHeader])
    rw [hkind, hpayload] at hframe
    rw [hframe, List.prefix_append_right_inj] at hpre'
    obtain ⟨kept, hkept, hdrop, hall, hcut⟩ := kept_of_frames hbounded hpre' hrest hentries
    rw [hpayload, payload_of_reads (reads_header nfail nop nid)] at hheader
    obtain ⟨rfl, hcounts⟩ := Prod.mk.inj (Option.some.inj hheader)
    obtain ⟨rfl, rfl⟩ := Prod.mk.inj hcounts
    refine ⟨kept, hkept, ?_, hall, hcut, rfl, rfl, rfl⟩
    rw [snapshot, ← hdrop]
    exact hframe

/-! ### Which prefixes are accepted -/

/-- The entries are as many of each kind as the header of the store's file says, they pass the
    loader's checks, and no record is repeated. -/
structure FailureStore.Accounts (s : FailureStore) (kept : List SnapshotEntry) : Prop where
  failures : (failuresOf kept).length = (UInt32.ofNat s.failures.size).toNat
  operations : (operationsOf kept).length = (UInt32.ofNat s.ops.ops.size).toNat
  idents : (identsOf kept).length = (UInt32.ofNat s.idem.entries.size).toNat
  checked : ∀ e ∈ kept, e.Checked
  failure_ids : ((failuresOf kept).map FailureRecord.failureId).Nodup

/-- The file that `save` starts to write, with the frames of some entries only. -/
def FailureStore.partialFile (s : FailureStore) (kept : List SnapshotEntry) : List UInt8 :=
  snapshot s.failures.size s.ops.ops.size s.idem.entries.size kept

section Accepted

variable {s : FailureStore} (o : s.Orders)

/-- The file of a store has the frames of all its entries. -/
theorem save_eq_partialFile : s.save o = s.partialFile (s.entries o) := by
  rw [FailureStore.save_eq_snapshot, FailureStore.length_failuresOf_entries,
    FailureStore.length_operationsOf_entries, FailureStore.length_identsOf_entries,
    FailureStore.partialFile]

/-- When the dependencies of its records can be counted, every entry of a store fits a frame. -/
theorem bounded_entries
    (hdeps : ∀ id rec, s.failures.lookup id = some rec →
      (SnapshotEntry.failure rec).FrameRead → rec.dependencies.length < 2 ^ 32) :
    ∀ e ∈ s.entries o, e.FrameRead → e.Bounded :=
  forall_entries o hdeps (fun _ _ _ _ => trivial) (fun _ _ _ _ _ => trivial) (fun _ => trivial)

/-- A prefix of the saved file is accepted exactly when it ends between two frames and the frames
    before account for the header. -/
theorem load_prefix_true_iff
    (hdeps : ∀ id rec, s.failures.lookup id = some rec →
      (SnapshotEntry.failure rec).FrameRead → rec.dependencies.length < 2 ^ 32)
    {p : List UInt8} (hpre : p <+: s.save o) (s₀ : FailureStore) :
    (s₀.load (some p)).2 = true ↔
      ∃ kept, kept <+: s.entries o ∧ p = s.partialFile kept ∧ s.Accounts kept := by
  rw [load_true_iff]
  constructor
  · rintro ⟨cfail, cop, cid, es', hparses, hfail, hop, hid, hfailNodup, -⟩
    rw [save_eq_partialFile] at hpre
    obtain ⟨kept, hkept, hp, hall, rfl, rfl, rfl, rfl⟩ :=
      kept_of_parsesTo (bounded_entries o hdeps) hpre hparses
    refine ⟨kept, hkept, hp, ?_, ?_, ?_, hall, ?_⟩
    · rw [← hfail]
      simpa using congrArg List.length (SnapshotEntry.failuresOf_cut kept).symm
    · rw [← hop]
      simpa using congrArg List.length (SnapshotEntry.operationsOf_cut kept).symm
    · rw [← hid, SnapshotEntry.length_identsOf_cut]
    · rwa [SnapshotEntry.failuresOf_cut] at hfailNodup
  · rintro ⟨kept, hkept, rfl, hacc⟩
    have hencodable : ∀ e ∈ kept.map SnapshotEntry.cut, e.Encodable := by
      intro e he
      obtain ⟨e', he', rfl⟩ := List.mem_map.mp he
      exact (hacc.checked e' he').encodable_cut
    have hfail := SnapshotEntry.failuresOf_cut kept
    have hop := SnapshotEntry.operationsOf_cut kept
    have hparses := parsesTo_snapshot s.failures.size s.ops.ops.size s.idem.entries.size hencodable
    rw [SnapshotEntry.snapshot_cut] at hparses
    refine ⟨_, _, _, _, hparses, ?_, ?_, ?_, ?_, ?_⟩
    · rw [← hacc.failures]
      simpa using congrArg List.length hfail
    · rw [← hacc.operations]
      simpa using congrArg List.length hop
    · rw [← hacc.idents, SnapshotEntry.length_identsOf_cut]
    · rw [hfail]
      exact hacc.failure_ids
    · have hkeys : ((operationsOf (s.entries o)).map Prod.fst).Nodup := by
        rw [FailureStore.operationsOf_entries, List.map_map]
        exact o.ops_iterates.nodup_map_fst
      rw [hop]
      exact hkeys.sublist ((hkept.filterMap _).map _).sublist

end Accepted

/-- The file ends between two frames, before the last one, and the frames before account for the
    header. -/
def FailureStore.UncountedCut (s : FailureStore) (o : s.Orders) (p : List UInt8) : Prop :=
  ∃ kept, kept <+: s.entries o ∧ kept ≠ s.entries o ∧ p = s.partialFile kept ∧ s.Accounts kept

/-- **Truncation.** A strict prefix of a saved file is refused, by every store, unless it ends
    between two frames and the frames before account for the header. -/
theorem truncation_detected_iff (s : FailureStore) (o : s.Orders)
    (hdeps : ∀ id rec, s.failures.lookup id = some rec →
      (SnapshotEntry.failure rec).FrameRead → rec.dependencies.length < 2 ^ 32)
    (p : List UInt8) (hpre : p <+: s.save o) (hstrict : p ≠ s.save o) (s₀ : FailureStore) :
    (s₀.load (some p)).2 = false ↔ ¬ s.UncountedCut o p := by
  rw [← Bool.not_eq_true, load_prefix_true_iff o hdeps hpre]
  refine not_congr ⟨?_, ?_⟩
  · rintro ⟨kept, hkept, rfl, hacc⟩
    refine ⟨kept, hkept, fun heq => hstrict ?_, rfl, hacc⟩
    rw [save_eq_partialFile, heq]
  · rintro ⟨kept, hkept, -, rfl, hacc⟩
    exact ⟨kept, hkept, rfl, hacc⟩

theorem truncation_detected_sample :
    (({} : FailureStore).load (some ((sampleStore.save sampleOrders).take 100))).2 = false ↔
      ¬ sampleStore.UncountedCut sampleOrders ((sampleStore.save sampleOrders).take 100) := by
  refine truncation_detected_iff sampleStore sampleOrders (fun id rec hrec _ => ?_) _
    ⟨_, List.take_append_drop _ _⟩ (by decide +kernel) {}
  have hle := (sampleStore_saveable.record id rec hrec).2.dependencies_le
  omega

/-- The file of the sample store without its last frame, the one of the ownership. -/
def withoutOwnership : List UInt8 :=
  (sampleStore.save sampleOrders).take ((sampleStore.save sampleOrders).length - 47)

/-- The cut file is accepted. -/
theorem truncated_file_accepted :
    withoutOwnership <+: sampleStore.save sampleOrders ∧
      withoutOwnership ≠ sampleStore.save sampleOrders ∧
      (({} : FailureStore).load (some withoutOwnership)).2 = true :=
  ⟨⟨_, List.take_append_drop _ _⟩, by decide +kernel, by decide +kernel⟩

/-! ### The one cut of a store that can be counted -/

/-- The ownerships among the entries. -/
def ownershipsOf (es : List SnapshotEntry) : List RecoveryOwnership :=
  es.filterMap fun
    | .ownership own => some own
    | _ => none

/-- Every entry is of one of the four kinds. -/
theorem length_eq_kinds (es : List SnapshotEntry) :
    es.length = (failuresOf es).length + (operationsOf es).length + (identsOf es).length +
      (ownershipsOf es).length := by
  induction es with
  | nil => rfl
  | cons e es ih =>
    rw [List.length_cons, ih]
    cases e <;> simp [failuresOf, operationsOf, identsOf, ownershipsOf] <;> omega

/-- In a store that is read back there is one cut that is not found: right before the frame of
    the ownership. -/
theorem uncountedCut_iff {s : FailureStore} (o : s.Orders) (hs : s.Checked) (hcount : s.Countable)
    (p : List UInt8) : s.UncountedCut o p ↔ p = s.partialFile (s.entries o).dropLast := by
  have hfail : (failuresOf (s.entries o)).length = (UInt32.ofNat s.failures.size).toNat := by
    rw [UInt32.toNat_ofNat_of_lt' hcount.failures_lt, FailureStore.length_failuresOf_entries]
  have hop : (operationsOf (s.entries o)).length = (UInt32.ofNat s.ops.ops.size).toNat := by
    rw [UInt32.toNat_ofNat_of_lt' hcount.ops_lt, FailureStore.length_operationsOf_entries]
  have hid : (identsOf (s.entries o)).length = (UInt32.ofNat s.idem.entries.size).toNat := by
    rw [UInt32.toNat_ofNat_of_lt' hcount.idem_lt, FailureStore.length_identsOf_entries]
  constructor
  · rintro ⟨kept, hkept, hne, rfl, hacc⟩
    -- the entries that are left out are none of those that are counted
    have hown : (ownershipsOf (s.entries o)).length = 1 := by
      simp [ownershipsOf, FailureStore.entries, List.filterMap_map]
    have hlen := length_eq_kinds kept
    rw [hacc.failures, hacc.operations, hacc.idents, ← hfail, ← hop, ← hid] at hlen
    have hall := length_eq_kinds (s.entries o)
    have hlt : kept.length < (s.entries o).length :=
      Nat.lt_of_le_of_ne hkept.length_le (fun heq => hne (hkept.eq_of_length heq))
    have htake := List.prefix_iff_eq_take.mp hkept
    rw [show kept.length = (s.entries o).length - 1 by omega, ← List.dropLast_eq_take] at htake
    rw [htake]
  · rintro rfl
    obtain ⟨init, hinit⟩ : ∃ init, s.entries o = init ++ [.ownership s.ownership] :=
      ⟨_, by simp only [FailureStore.entries, ← List.append_assoc]; rfl⟩
    have hdrop : (s.entries o).dropLast = init := by rw [hinit, List.dropLast_concat]
    rw [hdrop]
    refine ⟨init, ⟨_, hinit.symm⟩, fun heq => ?_, rfl, ?_⟩
    · rw [hinit] at heq
      simp at heq
    have hfailures : failuresOf (s.entries o) = failuresOf init := by
      rw [hinit]
      simp [failuresOf]
    refine ⟨?_, ?_, ?_, fun e he => checked_entries o hs e ?_, ?_⟩
    · rw [← hfail, hfailures]
    · rw [← hop, hinit]
      simp [operationsOf]
    · rw [← hid, hinit]
      simp [identsOf]
    · rw [hinit]
      exact List.mem_append_left _ he
    · rw [← hfailures, failureIds_entries o hs]
      exact o.failures_iterates.nodup_map_fst

end FailureFabric
