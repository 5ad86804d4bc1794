import FailureFabric.Store

namespace FailureFabric

open Library

/-!
# Snapshots

A snapshot file as it is meant: a header with three counts, then a list of entries, each in a
frame of its own.  This module relates the two loops of the store to that list.

* `SnapshotEntry`, `snapshot` — the entries and the file they make;
* `Frames` — the frames that stand one after the other in a string of bytes, from an offset on;
* `loadLoop_frames`, `loadLoop_maximal` — the frame loop follows `Frames`, as far as it goes;
* `save_eq_snapshot` — what `save` writes;
* `load_snapshot` — what `load` makes of it, for any entries that can be encoded.
-/

/-- What a frame after the header holds. -/
inductive SnapshotEntry
  | failure (rec : FailureRecord)
  | operation (op : OperationId) (rt : OperationRuntime)
  | idempotency (ev : EntryView)
  | ownership (own : RecoveryOwnership)

/-- What the decoder needs of a runtime to read it back. -/
structure OperationRuntime.Encodable (rt : OperationRuntime) : Prop where
  outcome_le : rt.terminalOutcome.length ≤ 0xFFFF
  authority_valid : validateAuthority rt.authority = true
  terminal_valid : validateAuthority rt.terminal = true

namespace SnapshotEntry

/-- The kind of the entry's frame. -/
def kind : SnapshotEntry → UInt8
  | failure _ => K_FAIL
  | operation .. => K_OP
  | idempotency _ => K_ID
  | ownership _ => K_OWN

/-- The payload of the entry's frame. -/
def payload : SnapshotEntry → List UInt8
  | failure rec => encodeFailureRecord rec
  | operation op rt => encodeOperation op rt
  | idempotency ev => encodeEntry ev
  | ownership own => encodeOwnership own

/-- The entry's frame. -/
def frame (e : SnapshotEntry) : List UInt8 := encodeFrame e.kind e.payload

/-- The entry can be read back. -/
def Encodable : SnapshotEntry → Prop
  | failure rec => rec.Encodable
  | operation _ rt => rt.Encodable
  | idempotency ev => ev.resultMetadata.length ≤ 0xFFFF
  | ownership _ => True

end SnapshotEntry

/-- The entry that a frame after the header holds. -/
def entryOf (h : FrameHeader) : Option SnapshotEntry :=
  let r : BinaryReader := { data := h.payload }
  if h.kind = K_FAIL then (decodeFailureRecord r).map (fun p => .failure p.1)
  else if h.kind = K_OP then (decodeOperation r).map (fun p => .operation p.1.1 p.1.2)
  else if h.kind = K_ID then (decodeEntry r).map (fun p => .idempotency p.1)
  else if h.kind = K_OWN then (decodeOwnership r).map (fun p => .ownership p.1)
  else none

/-- What `load` does with an entry. -/
def LoadState.add (st : LoadState) : SnapshotEntry → LoadState
  | .failure rec => { st with frs := st.frs ++ [rec] }
  | .operation op rt => { st with ops := st.ops ++ [(op, rt)] }
  | .idempotency ev => { st with idents := st.idents ++ [ev] }
  | .ownership own =>
    { st with ownership := (st.ownership.adopt own.owner own.generation own.boot {}).1 }

/-- After the header, `load` adds the entry of each frame. -/
theorem loadFrame_eq {st : LoadState} (hfirst : st.first = false) (h : FrameHeader) :
    loadFrame st h = (entryOf h).map st.add := by
  unfold loadFrame entryOf
  dsimp only
  rw [if_neg (by simp [hfirst])]
  split_ifs
  · cases decodeFailureRecord { data := h.payload } <;> rfl
  · cases decodeOperation { data := h.payload } <;> rfl
  · cases decodeEntry { data := h.payload } <;> rfl
  · cases decodeOwnership { data := h.payload } <;> rfl
  · rfl

/-! ### Payload round trips -/

section Payloads

open BinaryReader

/-- A valid authority is read back. -/
theorem reads_auth {e : AuthorityEnvelope} (he : validateAuthority e = true) :
    Reads decAuth (encAuth e) e := by
  unfold encAuth decAuth
  simp only [List.append_assoc]
  refine (reads_generation _).bind ((reads_id _).bind ((reads_id _).bind ((reads_id _).bind ?_)))
  iterate 3 refine (reads_generation _).bind ?_
  refine (reads_generation _).bind_nil (reads_checkOk.nil_bind ((Reads.check he).nil_bind ?_))
  exact Reads.pure e

/-- The header is read back, its counts modulo `2^32`. -/
theorem reads_header (nfail nop nid : Nat) :
    Reads decodeHeader (encodeHeader nfail nop nid)
      (UInt32.ofNat nfail, UInt32.ofNat nop, UInt32.ofNat nid) := by
  unfold encodeHeader decodeHeader
  simp only [List.append_assoc]
  refine (reads_u32 _).bind ((Reads.check rfl).nil_bind ?_)
  refine (reads_u16 _).bind ((Reads.check rfl).nil_bind ?_)
  refine (reads_u32 _).bind ((reads_u32 _).bind ((reads_u32 _).bind_nil ?_))
  exact reads_checkOk.nil_bind (Reads.pure _)

/-- A flag is written as a byte and read as "not zero". -/
private theorem flag_ne_zero (b : Bool) : ((if b then 1 else 0 : UInt8) != 0) = b := by
  cases b <;> rfl

/-- An encodable operation is read back. -/
theorem reads_operation (op : OperationId) {rt : OperationRuntime} (hrt : rt.Encodable) :
    Reads decodeOperation (encodeOperation op rt) (op, rt) := by
  unfold encodeOperation decodeOperation
  simp only [List.append_assoc]
  refine reads_checkOk.nil_bind ((reads_id _).bind ((reads_enumv _).bind ((reads_u32 _).bind ?_)))
  refine (reads_u8 _).bind ((reads_str16 hrt.outcome_le).bind ((reads_u8 _).bind ?_))
  refine (reads_uuid _).bind ((reads_auth hrt.authority_valid).bind ?_)
  refine (reads_auth hrt.terminal_valid).bind_nil (reads_checkOk.nil_bind ?_)
  simp only [flag_ne_zero, OperationState.ofCode_code]
  exact Reads.pure (op, rt)

/-- So is an entry whose text fits. -/
theorem reads_entry {ev : EntryView} (hev : ev.resultMetadata.length ≤ 0xFFFF) :
    Reads decodeEntry (encodeEntry ev) ev := by
  unfold encodeEntry decodeEntry
  simp only [List.append_assoc]
  refine (reads_id _).bind ((reads_uuid _).bind ((reads_u64 _).bind ((reads_enumv _).bind ?_)))
  refine (reads_str16 hev).bind_nil (reads_checkOk.nil_bind ?_)
  rw [IdempotencyState.ofCode_code]
  exact Reads.pure ev

/-- So is any ownership. -/
theorem reads_ownership (own : RecoveryOwnership) :
    Reads decodeOwnership (encodeOwnership own) own := by
  unfold encodeOwnership decodeOwnership
  simp only [List.append_assoc]
  refine (reads_enumBelow rfl _).bind ((reads_generation _).bind ((reads_id _).bind_nil ?_))
  exact reads_checkOk.nil_bind (Reads.pure own)

end Payloads

/-- What a decoder reads from a payload alone. -/
theorem payload_of_reads {α : Type} {m : Decoder BinaryReader α} {bs : List UInt8} {a : α}
    (h : Reads m bs a) : (m { data := bs }).map Prod.fst = some a := by
  obtain ⟨r, hr, -⟩ := h { data := bs } [] ⟨rfl, Nat.zero_le _⟩ (List.append_nil bs).symm
  rw [hr]
  rfl

/-- **Entry round trip.** The frame of an encodable entry holds the entry. -/
theorem entryOf_frame {e : SnapshotEntry} (he : e.Encodable) (ck : UInt64) :
    entryOf ⟨e.kind, e.payload, ck⟩ = some e := by
  unfold entryOf
  cases e with
  | failure rec =>
    obtain ⟨p, hp, rfl⟩ := Option.map_eq_some_iff.mp (payload_of_reads (reads_failureRecord he))
    simp only [SnapshotEntry.kind, SnapshotEntry.payload, if_true, hp, Option.map_some]
  | operation op rt =>
    obtain ⟨p, hp, hfst⟩ := Option.map_eq_some_iff.mp (payload_of_reads (reads_operation op he))
    simp only [SnapshotEntry.kind, SnapshotEntry.payload, show ¬ K_OP = K_FAIL by decide,
      if_true, if_false, hp, hfst, Option.map_some]
  | idempotency ev =>
    obtain ⟨p, hp, rfl⟩ := Option.map_eq_some_iff.mp (payload_of_reads (reads_entry he))
    simp only [SnapshotEntry.kind, SnapshotEntry.payload, show ¬ K_ID = K_FAIL by decide,
      show ¬ K_ID = K_OP by decide, if_true, if_false, hp, Option.map_some]
  | ownership own =>
    obtain ⟨p, hp, rfl⟩ := Option.map_eq_some_iff.mp (payload_of_reads (reads_ownership own))
    simp only [SnapshotEntry.kind, SnapshotEntry.payload, show ¬ K_OWN = K_FAIL by decide,
      show ¬ K_OWN = K_OP by decide, show ¬ K_OWN = K_ID by decide, if_true, if_false, hp,
      Option.map_some]

/-- An encodable entry fits a frame. -/
theorem SnapshotEntry.Encodable.length_le {e : SnapshotEntry} (he : e.Encodable) :
    e.payload.length + 11 < 2 ^ 32 := by
  cases e with
  | failure rec => exact FailureRecord.Encodable.length_le he
  | operation op rt =>
    have houtcome := BinaryWriter.length_str16_le rt.terminalOutcome
    simp only [payload, encodeOperation, encAuth, List.length_append, BinaryWriter.length_uuid,
      BinaryWriter.length_enumv, BinaryWriter.length_u32, BinaryWriter.length_u8,
      BinaryWriter.length_generation]
    omega
  | idempotency ev =>
    have hmeta := BinaryWriter.length_str16_le ev.resultMetadata
    simp only [payload, encodeEntry, List.length_append, BinaryWriter.length_uuid,
      BinaryWriter.length_enumv, BinaryWriter.length_u64]
    omega
  | ownership own =>
    simp only [payload, encodeOwnership, List.length_append, BinaryWriter.length_uuid,
      BinaryWriter.length_enumv, BinaryWriter.length_generation]
    omega

/-! ### Frames in a string of bytes -/

/-- The frames `hs` stand one after the other in the data, from the first offset to the second. -/
inductive Frames (data : List UInt8) : Nat → List FrameHeader → Nat → Prop
  | nil (off : Nat) : Frames data off [] off
  | cons {off next off' : Nat} {h : FrameHeader} {hs : List FrameHeader}
      (hdec : decodeFrame data off = some (h, next)) (hrest : Frames data next hs off') :
      Frames data off (h :: hs) off'

/-- Frames written one after the other stand one after the other, wherever they start. -/
theorem frames_encoded {es : List SnapshotEntry} (hes : ∀ e ∈ es, e.Encodable)
    (pre post : List UInt8) :
    ∃ hs, Frames (pre ++ es.flatMap SnapshotEntry.frame ++ post) pre.length hs
        (pre ++ es.flatMap SnapshotEntry.frame).length ∧ hs.mapM entryOf = some es := by
  induction es generalizing pre with
  | nil => exact ⟨[], by simpa using Frames.nil _, rfl⟩
  | cons e es ih =>
    have he : e.Encodable := hes e List.mem_cons_self
    obtain ⟨hs, hframes, hentries⟩ :=
      ih (fun e' he' => hes e' (List.mem_cons_of_mem e he')) (pre ++ e.frame)
    have hdec := decodeFrame_encodeFrame e.kind he.length_le pre
      (es.flatMap SnapshotEntry.frame ++ post)
    have hdata : pre ++ e.frame ++ es.flatMap SnapshotEntry.frame =
        pre ++ (e :: es).flatMap SnapshotEntry.frame := by simp
    rw [hdata] at hframes
    have hdec' : decodeFrame (pre ++ (e :: es).flatMap SnapshotEntry.frame ++ post) pre.length =
        some (⟨e.kind, e.payload, fnv1a64 (frameBody e.kind e.payload)⟩,
          (pre ++ e.frame).length) := by
      rw [List.length_append, ← hdata, List.append_assoc]
      exact hdec
    refine ⟨_ :: hs, .cons hdec' hframes, ?_⟩
    rw [List.mapM_cons, entryOf_frame he, hentries]
    rfl

section Loop

variable {data : List UInt8} {off off' : Nat} {hs : List FrameHeader} {st st' : LoadState}

/-- Each frame takes nineteen bytes or more, inside the data. -/
theorem Frames.bounds (h : Frames data off hs off') :
    off + 19 * hs.length ≤ off' ∧ (off ≤ data.length → off' ≤ data.length) := by
  induction h with
  | nil => exact ⟨Nat.le_refl _, id⟩
  | cons hdec _ ih =>
    have hbounds := decodeFrame_bounds hdec
    rw [List.length_cons]
    omega

/-- The loop reads the frames that stand at its offset. -/
theorem loadLoop_frames (h : Frames data off hs off') (hst : hs.foldlM loadFrame st = some st')
    (fuel : Nat) : loadLoop data (hs.length + fuel) off st = loadLoop data fuel off' st' := by
  induction h generalizing st with
  | nil =>
    obtain rfl : st = st' := Option.some.inj hst
    rw [List.length_nil, Nat.zero_add]
  | @cons off next off' h hs hdec _ ih =>
    obtain ⟨st₁, hst₁, hrest⟩ := Option.bind_eq_some_iff.mp hst
    have hoff : off < data.length := by
      have hbounds := decodeFrame_bounds hdec
      omega
    rw [List.length_cons, show hs.length + 1 + fuel = (hs.length + fuel) + 1 by omega, loadLoop,
      if_pos hoff, hdec]
    dsimp only
    rw [hst₁]
    exact ih hrest

/-- At the end of the data the loop is over. -/
theorem loadLoop_end (h : data.length ≤ off) (fuel : Nat) :
    loadLoop data fuel off st = (st, true) := by
  cases fuel with
  | zero => rw [loadLoop, decide_eq_true h]
  | succ fuel => rw [loadLoop, if_neg (by omega)]

/-- With enough fuel the loop reads frames as far as it can: it ends with the variables after
    some frames, and ran to the end exactly when these frames did. -/
theorem loadLoop_maximal (data : List UInt8) (fuel off : Nat) (st : LoadState)
    (hfuel : data.length ≤ off + fuel) :
    ∃ hs off', Frames data off hs off' ∧
      hs.foldlM loadFrame st = some (loadLoop data fuel off st).1 ∧
      ((loadLoop data fuel off st).2 = true ↔ data.length ≤ off') := by
  induction fuel generalizing off st with
  | zero => exact ⟨[], off, .nil off, rfl, by rw [loadLoop, decide_eq_true_eq]⟩
  | succ fuel ih =>
    by_cases hoff : off < data.length
    · rw [loadLoop, if_pos hoff]
      cases hdec : decodeFrame data off with
      | none => exact ⟨[], off, .nil off, rfl, by simp; omega⟩
      | some p =>
        obtain ⟨h, next⟩ := p
        dsimp only
        cases hst : loadFrame st h with
        | none => exact ⟨[], off, .nil off, rfl, by simp; omega⟩
        | some st₁ =>
          have hbounds := decodeFrame_bounds hdec
          obtain ⟨hs, off', hframes, hfold, hiff⟩ := ih next st₁ (by omega)
          refine ⟨h :: hs, off', .cons hdec hframes, ?_, hiff⟩
          rw [List.foldlM_cons, hst]
          exact hfold
    · rw [loadLoop_end (by omega)]
      exact ⟨[], off, .nil off, rfl, by simp; omega⟩

end Loop

/-! ### Loading entries -/

/-- The records among the entries. -/
def failuresOf (es : List SnapshotEntry) : List FailureRecord :=
  es.filterMap fun
    | .failure rec => some rec
    | _ => none

/-- The operations among the entries. -/
def operationsOf (es : List SnapshotEntry) : List (OperationId × OperationRuntime) :=
  es.filterMap fun
    | .operation op rt => some (op, rt)
    | _ => none

/-- The idempotency entries among the entries. -/
def identsOf (es : List SnapshotEntry) : List EntryView :=
  es.filterMap fun
    | .idempotency ev => some ev
    | _ => none

/-- The variables of `load` after the header and the entries. -/
def LoadState.of (nfail nop nid : UInt32) (es : List SnapshotEntry) (own : RecoveryOwnership) :
    LoadState :=
  es.foldl LoadState.add { first := false, nfail, nop, nid, ownership := own }

/-- All that adding entries does, but for the ownership. -/
theorem foldl_add (es : List SnapshotEntry) (st : LoadState) :
    es.foldl LoadState.add st =
      { st with frs := st.frs ++ failuresOf es, ops := st.ops ++ operationsOf es,
                idents := st.idents ++ identsOf es,
                ownership := (es.foldl LoadState.add st).ownership } := by
  induction es generalizing st with
  | nil => simp [failuresOf, operationsOf, identsOf]
  | cons e es ih =>
    rw [List.foldl_cons, ih]
    cases e <;> simp [LoadState.add, failuresOf, operationsOf, identsOf]

/-- After the header, the frames that `load` accepts are those that hold entries, and it adds
    these entries in order. -/
theorem foldlM_loadFrame_iff {st st' : LoadState} (hfirst : st.first = false)
    (hs : List FrameHeader) :
    hs.foldlM loadFrame st = some st' ↔
      ∃ es, hs.mapM entryOf = some es ∧ es.foldl LoadState.add st = st' := by
  induction hs generalizing st with
  | nil => simp
  | cons h hs ih =>
    rw [List.foldlM_cons, loadFrame_eq hfirst, List.mapM_cons]
    cases he : entryOf h with
    | none => simp
    | some e =>
      have hfirst' : (st.add e).first = false := by cases e <;> exact hfirst
      simp only [Option.map_some, Option.bind_eq_bind, Option.bind_some, ih hfirst']
      constructor
      · rintro ⟨es, hes, hfold⟩
        exact ⟨e :: es, by rw [hes]; rfl, hfold⟩
      · rintro ⟨es', hes', hfold⟩
        obtain ⟨es, hes, hcons⟩ := Option.bind_eq_some_iff.mp hes'
        obtain rfl : e :: es = es' := Option.some.inj hcons
        exact ⟨es, hes, hfold⟩

/-- The first frame is read as the header. -/
theorem loadFrame_first {st : LoadState} (hfirst : st.first = true) (h : FrameHeader) :
    loadFrame st h = (decodeHeader { data := h.payload }).map (fun p =>
      { st with nfail := p.1.1, nop := p.1.2.1, nid := p.1.2.2, first := false }) := by
  unfold loadFrame
  dsimp only
  rw [if_pos hfirst]
  cases decodeHeader { data := h.payload } <;> rfl

/-- The data is a header frame with the given counts and then frames that hold the entries, up
    to the offset. -/
def ParsesTo (data : List UInt8) (nfail nop nid : UInt32) (es : List SnapshotEntry)
    (off : Nat) : Prop :=
  ∃ h hs, Frames data 0 (h :: hs) off ∧
    (decodeHeader { data := h.payload }).map Prod.fst = some (nfail, nop, nid) ∧
    hs.mapM entryOf = some es

section Load

variable {data : List UInt8} {nfail nop nid : UInt32} {es : List SnapshotEntry} {off : Nat}

/-- The loop over what parses: it adds the entries, and goes on behind them. -/
theorem loadLoop_of_parsesTo (h : ParsesTo data nfail nop nid es off) (own : RecoveryOwnership) :
    ∃ fuel, data.length ≤ off + fuel ∧
      loadLoop data data.length 0 { ownership := own } =
        loadLoop data fuel off (.of nfail nop nid es own) := by
  obtain ⟨h, hs, hframes, hheader, hentries⟩ := h
  obtain ⟨⟨p, r⟩, hp, rfl : p = (nfail, nop, nid)⟩ := Option.map_eq_some_iff.mp hheader
  obtain ⟨hle, hbound⟩ := hframes.bounds
  have hend : off ≤ data.length := hbound (Nat.zero_le _)
  have hfold : (h :: hs).foldlM loadFrame { ownership := own } =
      some (.of nfail nop nid es own) := by
    rw [List.foldlM_cons, loadFrame_first rfl, hp]
    exact (foldlM_loadFrame_iff rfl hs).mpr ⟨es, hentries, rfl⟩
  refine ⟨data.length - (h :: hs).length, by omega, ?_⟩
  rw [← loadLoop_frames hframes hfold]
  congr 1
  omega

/-- **Load lemma.** Data that parses to its end is committed when the counts and the identities
    are valid; otherwise nothing but the ownership changes. -/
theorem load_of_parsesTo (h : ParsesTo data nfail nop nid es data.length) (s : FailureStore) :
    s.load (some data) =
      if (LoadState.of nfail nop nid es s.ownership).valid then
        ((LoadState.of nfail nop nid es s.ownership).commit, true)
      else ({ s with ownership := (LoadState.of nfail nop nid es s.ownership).ownership },
        false) := by
  obtain ⟨fuel, -, hloop⟩ := loadLoop_of_parsesTo h s.ownership
  rw [loadLoop_end (Nat.le_refl _)] at hloop
  have hne : data ≠ [] := by
    rintro rfl
    obtain ⟨h, hs, hframes, -⟩ := h
    have hbounds := hframes.bounds
    rw [List.length_cons, List.length_nil] at hbounds
    omega
  show (if data = [] then _ else _) = _
  rw [if_neg hne]
  simp only [hloop, Bool.true_and]

end Load

/-! ### The snapshot of a list of entries -/

/-- The file of three counts and a list of entries. -/
def snapshot (nfail nop nid : Nat) (es : List SnapshotEntry) : List UInt8 :=
  encodeFrame 0 (encodeHeader nfail nop nid) ++ es.flatMap SnapshotEntry.frame

/-- A snapshot without entries is its header. -/
theorem snapshot_nil (nfail nop nid : Nat) :
    snapshot nfail nop nid [] = encodeFrame 0 (encodeHeader nfail nop nid) := List.append_nil _

/-- An entry is appended as its frame. -/
theorem snapshot_concat (nfail nop nid : Nat) (es : List SnapshotEntry) (e : SnapshotEntry) :
    snapshot nfail nop nid (es ++ [e]) = snapshot nfail nop nid es ++ e.frame := by
  unfold snapshot
  rw [List.flatMap_append, List.flatMap_singleton, List.append_assoc]

/-- A snapshot of encodable entries parses to its end. -/
theorem parsesTo_snapshot (nfail nop nid : Nat) {es : List SnapshotEntry}
    (hes : ∀ e ∈ es, e.Encodable) :
    ParsesTo (snapshot nfail nop nid es) (UInt32.ofNat nfail) (UInt32.ofNat nop)
      (UInt32.ofNat nid) es (snapshot nfail nop nid es).length := by
  set header := encodeFrame 0 (encodeHeader nfail nop nid) with hheader
  obtain ⟨hs, hframes, hentries⟩ := frames_encoded hes header []
  have hlen : (encodeHeader nfail nop nid).length + 11 < 2 ^ 32 := by simp [encodeHeader]
  have hdec := decodeFrame_encodeFrame 0 hlen [] (es.flatMap SnapshotEntry.frame)
  rw [List.append_nil] at hframes
  rw [List.nil_append, List.length_nil, Nat.zero_add] at hdec
  exact ⟨_, hs, .cons hdec hframes, payload_of_reads (reads_header nfail nop nid), hentries⟩

/-- What a valid list of entries restores. -/
def restored (es : List SnapshotEntry) : FailureStore where
  failures := UnorderedMap.insertAll ∅ ((failuresOf es).map (fun rec => ⟨rec.failureId, rec⟩))
  ops := ⟨UnorderedMap.insertAll ∅ ((operationsOf es).map (fun p => ⟨p.1, p.2⟩))⟩
  idem := ⟨UnorderedMap.insertAll ∅ ((identsOf es).map (fun ev => ⟨⟨ev.op, ev.key⟩,
    { payloadHash := ev.payloadHash, state := ev.state, resultMetadata := ev.resultMetadata }⟩))⟩
  ownership := {}

/-- Restoring distinct operations that are not known yet inserts them all. -/
private theorem foldl_restore (l : List (OperationId × OperationRuntime))
    (hnodup : (l.map Prod.fst).Nodup) (reg : OperationRegistry)
    (hnew : ∀ p ∈ l, reg.find p.1 = none) :
    l.foldl (fun reg p => (reg.restore p.1 p.2).1) reg =
      ⟨UnorderedMap.insertAll reg.ops (l.map (fun p => ⟨p.1, p.2⟩))⟩ := by
  induction l generalizing reg with
  | nil => rfl
  | cons p l ih =>
    rw [List.map_cons, List.nodup_cons] at hnodup
    have hrestore : (reg.restore p.1 p.2).1 = ⟨reg.ops.insert p.1 p.2⟩ := by
      rw [OperationRegistry.restore, hnew p List.mem_cons_self]
    rw [List.foldl_cons, hrestore, ih hnodup.2]
    · rfl
    · intro q hq
      have hne : q.1 ≠ p.1 := fun h => hnodup.1 (h ▸ List.mem_map_of_mem hq)
      show (reg.ops.insert p.1 p.2).lookup q.1 = none
      rw [UnorderedMap.lookup_insert', if_neg hne]
      exact hnew q (List.mem_cons_of_mem p hq)

/-- Entries are restored into the table one after the other. -/
private theorem foldl_restore_idem (l : List EntryView) (i : IdempotencyStore) :
    l.foldl (fun i ev =>
      i.restore ev.op ev.key ev.payloadHash ev.state ev.resultMetadata) i =
      ⟨UnorderedMap.insertAll i.entries (l.map (fun ev => ⟨⟨ev.op, ev.key⟩,
        { payloadHash := ev.payloadHash, state := ev.state,
          resultMetadata := ev.resultMetadata }⟩))⟩ := by
  induction l generalizing i with
  | nil => rfl
  | cons ev l ih => rw [List.foldl_cons, ih]; rfl

section Restored

variable {es : List SnapshotEntry}

/-- What a load commits is the store of the entries that it read, and no ownership. -/
theorem commit_of (hops : ((operationsOf es).map Prod.fst).Nodup) (nfail nop nid : UInt32)
    (own : RecoveryOwnership) : (LoadState.of nfail nop nid es own).commit = restored es := by
  unfold LoadState.of
  rw [foldl_add]
  unfold LoadState.commit restored
  simp only [List.nil_append]
  rw [foldl_restore _ hops {} (fun p _ => Finmap.lookup_empty p.1), foldl_restore_idem]

/-- A load is valid when the counts are those of the header and no key is twice. -/
theorem valid_of_iff (nfail nop nid : UInt32) (own : RecoveryOwnership) :
    (LoadState.of nfail nop nid es own).valid = true ↔
      (failuresOf es).length = nfail.toNat ∧ (operationsOf es).length = nop.toNat ∧
      (identsOf es).length = nid.toNat ∧
      ((failuresOf es).map FailureRecord.failureId).Nodup ∧
      ((operationsOf es).map Prod.fst).Nodup := by
  unfold LoadState.of
  rw [foldl_add]
  simp [LoadState.valid, and_assoc]

/-- **Snapshot round trip.** The snapshot of encodable entries with distinct identities is
    accepted by every store, and restores the entries. -/
theorem load_snapshot (hes : ∀ e ∈ es, e.Encodable)
    (hfail : ((failuresOf es).map FailureRecord.failureId).Nodup)
    (hops : ((operationsOf es).map Prod.fst).Nodup)
    (hnfail : (failuresOf es).length < 2 ^ 32) (hnop : (operationsOf es).length < 2 ^ 32)
    (hnid : (identsOf es).length < 2 ^ 32) (s : FailureStore) :
    s.load (some (snapshot (failuresOf es).length (operationsOf es).length
      (identsOf es).length es)) = (restored es, true) := by
  rw [load_of_parsesTo (parsesTo_snapshot _ _ _ hes), if_pos, commit_of hops]
  rw [valid_of_iff, UInt32.toNat_ofNat_of_lt' hnfail, UInt32.toNat_ofNat_of_lt' hnop,
    UInt32.toNat_ofNat_of_lt' hnid]
  exact ⟨rfl, rfl, rfl, hfail, hops⟩

end Restored

/-! ### What `save` writes -/

namespace FailureStore

variable (s : FailureStore)

/-- The entries that `save` writes, in its order. -/
def entries (o : s.Orders) : List SnapshotEntry :=
  o.failures.map (fun e => .failure e.2) ++ (o.ops.map (fun e => .operation e.1 e.2) ++
    (o.idem.map (fun e => .idempotency (viewOf e)) ++ [.ownership s.ownership]))

/-- The entries of a store list its records in the order of the iteration. -/
theorem failuresOf_entries (o : s.Orders) :
    failuresOf (s.entries o) = o.failures.map Sigma.snd := by
  simp [failuresOf, entries, List.filterMap_map]

/-- And its operations. -/
theorem operationsOf_entries (o : s.Orders) :
    operationsOf (s.entries o) = o.ops.map (fun e => (e.1, e.2)) := by
  simp [operationsOf, entries, List.filterMap_map]

/-- And its entries of the idempotency store. -/
theorem identsOf_entries (o : s.Orders) : identsOf (s.entries o) = o.idem.map viewOf := by
  simp [identsOf, entries, List.filterMap_map]

/-- There are as many records as the table has. -/
theorem length_failuresOf_entries (o : s.Orders) :
    (failuresOf (s.entries o)).length = s.failures.size := by
  rw [failuresOf_entries, List.length_map, o.failures_iterates.length_eq]

/-- As many operations. -/
theorem length_operationsOf_entries (o : s.Orders) :
    (operationsOf (s.entries o)).length = s.ops.ops.size := by
  rw [operationsOf_entries, List.length_map, o.ops_iterates.length_eq]

/-- As many entries. -/
theorem length_identsOf_entries (o : s.Orders) :
    (identsOf (s.entries o)).length = s.idem.entries.size := by
  rw [identsOf_entries, List.length_map, o.idem_iterates.length_eq]

/-- A known operation is written as the frame of its entry. -/
theorem write_operation {op : OperationId} {rt : OperationRuntime} (h : s.ops.find op = some rt) :
    s.write (.operation op) = (SnapshotEntry.operation op rt).frame := by
  simp only [write, h]
  rfl

/-- `save` writes the snapshot of the entries, with the sizes of the maps as counts. -/
theorem save_eq_snapshot (o : s.Orders) :
    s.save o = snapshot (failuresOf (s.entries o)).length (operationsOf (s.entries o)).length
      (identsOf (s.entries o)).length (s.entries o) := by
  rw [length_failuresOf_entries, length_operationsOf_entries, length_identsOf_entries]
  have hops : (o.ops.map Sigma.fst).flatMap (fun op => s.write (.operation op)) =
      (o.ops.map (fun e => SnapshotEntry.operation e.1 e.2)).flatMap SnapshotEntry.frame := by
    rw [List.flatMap_map, List.flatMap_map]
    refine List.flatMap_congr (fun e he => ?_)
    exact s.write_operation ((o.ops_iterates.mem_iff e.1 e.2).mp he)
  unfold save savePlan snapshot entries
  simp only [List.flatMap_append, List.flatMap_cons, List.flatMap_nil, List.append_nil,
    List.append_assoc, List.flatMap_map] at hops ⊢
  rw [hops]
  rfl

end FailureStore

end FailureFabric
