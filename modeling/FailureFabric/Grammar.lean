import FailureFabric.Admission
import FailureFabric.Canonical

namespace FailureFabric

open Library

/-!
# The grammar of a snapshot

A snapshot is a header frame of kind 0 and then frames of the kinds 1 to 4, each payload made up
of the fields of its kind.  The loader reads the first frame as the header whatever its kind is,
and does not look at what a payload holds behind its fields.

* `bytesLeft` — what the decoder of a frame's kind leaves of its payload;
* `InGrammar` — the grammar;
* `accepted_inGrammar_iff` — which accepted files are in it.
-/

/-- What the decoder of the frame's kind leaves of the payload; `none` when it refuses. -/
def bytesLeft (h : FrameHeader) : Option Nat :=
  let r : BinaryReader := { data := h.payload }
  if h.kind = K_FAIL then (decodeFailureRecord r).map (fun p => p.2.remaining)
  else if h.kind = K_OP then (decodeOperation r).map (fun p => p.2.remaining)
  else if h.kind = K_ID then (decodeEntry r).map (fun p => p.2.remaining)
  else if h.kind = K_OWN then (decodeOwnership r).map (fun p => p.2.remaining)
  else none

/-- A header frame of kind 0 that holds magic, version and three counts, and then frames of the
    four kinds, whose payloads are used up. -/
def InGrammar (data : List UInt8) : Prop :=
  ∃ h hs, Frames data 0 (h :: hs) data.length ∧ h.kind = 0 ∧
    (∃ nfail nop nid : UInt32, h.payload = encodeHeader nfail.toNat nop.toNat nid.toNat) ∧
    ∀ f ∈ hs, bytesLeft f = some 0

/-! ### Lengths -/

/-- What is left of a payload makes up the difference to the payload that the encoder writes for
    its entry. -/
theorem bytesLeft_of_entryOf {h : FrameHeader} {e : SnapshotEntry} (he : entryOf h = some e) :
    ∃ n, bytesLeft h = some n ∧ h.payload.length = e.payload.length + n := by
  have hlength : ∀ {bs : List UInt8} {r : BinaryReader}, h.payload = bs ++ Source.unread r →
      h.payload.length = bs.length + r.remaining := by
    intro bs r hsplit
    rw [hsplit, List.length_append]
    congr 1
    exact List.length_drop
  unfold entryOf at he
  unfold bytesLeft
  dsimp only at he ⊢
  split_ifs at he ⊢ <;> obtain ⟨⟨a, r⟩, hdec, rfl⟩ := Option.map_eq_some_iff.mp he <;>
    refine ⟨r.remaining, by rw [hdec]; rfl, ?_⟩
  · obtain ⟨bs, hsplit, hbs⟩ := payload_of_takes takes_failureRecord ends_failureRecord hdec
    rw [hlength hsplit, hbs, SnapshotEntry.payload]
  · obtain ⟨bs, hsplit, hbs⟩ := payload_of_takes takes_operation ends_operation hdec
    rw [hlength hsplit, hbs, SnapshotEntry.payload]
  · obtain ⟨bs, hsplit, hbs⟩ := payload_of_takes takes_entry ends_entry hdec
    rw [hlength hsplit, hbs, SnapshotEntry.payload]
  · obtain ⟨bs, hsplit, hbs⟩ := payload_of_takes takes_ownership ends_ownership hdec
    rw [hlength hsplit, hbs, SnapshotEntry.payload]

/-- The kind stands at the seventh byte of a frame. -/
theorem frameBody_kind (kind : UInt8) (payload t : List UInt8) :
    (frameBody kind payload ++ t)[6]? = some kind := by
  have hhead : frameBody kind payload ++ t =
      (BinaryWriter.u32 kFFMagic ++ BinaryWriter.u16 kFFVersion) ++
        (kind :: (BinaryWriter.u32 (UInt32.ofNat payload.length) ++ (payload ++ t))) := by
    simp [frameBody, BinaryWriter.u8]
  rw [hhead, List.getElem?_append_right (by simp)]
  simp

/-- The bytes of a header payload. -/
theorem length_encodeHeader (nfail nop nid : Nat) : (encodeHeader nfail nop nid).length = 18 := by
  simp [encodeHeader]

/-- A header payload is used up exactly when it is no longer than its fields. -/
theorem header_exact_iff {h : FrameHeader} {nfail nop nid : UInt32}
    (hheader : (decodeHeader { data := h.payload }).map Prod.fst = some (nfail, nop, nid)) :
    18 ≤ h.payload.length ∧
      (h.payload.length = 18 ↔
        ∃ nfail nop nid : UInt32, h.payload = encodeHeader nfail.toNat nop.toNat nid.toNat) := by
  obtain ⟨⟨p, r⟩, hdec, rfl⟩ := Option.map_eq_some_iff.mp hheader
  obtain ⟨bs, hsplit, hbs⟩ := payload_of_takes takes_header ends_header hdec
  have hlen := congrArg List.length hsplit
  rw [List.length_append, hbs, length_encodeHeader] at hlen
  refine ⟨by omega, fun hexact => ⟨nfail, nop, nid, ?_⟩, ?_⟩
  · have hnil : Source.unread r = [] := List.eq_nil_of_length_eq_zero (by omega)
    rw [hsplit, hbs, hnil, List.append_nil]
  · rintro ⟨nfail', nop', nid', hpayload⟩
    rw [hpayload, length_encodeHeader]

/-- The bytes of frames, one after the other. -/
theorem Frames.off_eq {data : List UInt8} {off off' : Nat} {hs : List FrameHeader}
    (h : Frames data off hs off') :
    off' = off + (hs.map (fun f => 19 + f.payload.length)).sum := by
  induction h with
  | nil => rfl
  | cons hdec _ ih =>
    obtain ⟨-, -, hnext, -⟩ := decodeFrame_bytes hdec
    rw [ih, hnext, List.map_cons, List.sum_cons]
    omega

theorem length_snapshot (nfail nop nid : Nat) (es : List SnapshotEntry) :
    (snapshot nfail nop nid es).length =
      37 + (es.map (fun e => 19 + e.payload.length)).sum := by
  rw [snapshot, List.length_append, length_encodeFrame, length_encodeHeader,
    List.length_flatMap]
  simp [SnapshotEntry.frame]

/-- Frames are at least as long as what the encoders write for their entries, and of that length
    exactly when all payloads are used up. -/
theorem usedUp_iff {hs : List FrameHeader} {es : List SnapshotEntry}
    (hentries : hs.mapM entryOf = some es) :
    (es.map (fun e => 19 + e.payload.length)).sum ≤
        (hs.map (fun f => 19 + f.payload.length)).sum ∧
      ((hs.map (fun f => 19 + f.payload.length)).sum =
          (es.map (fun e => 19 + e.payload.length)).sum ↔
        ∀ f ∈ hs, bytesLeft f = some 0) := by
  induction hs generalizing es with
  | nil =>
    obtain rfl : [] = es := Option.some.inj hentries
    simp
  | cons f hs ih =>
    rw [List.mapM_cons] at hentries
    obtain ⟨e, he, hrest⟩ := Option.bind_eq_some_iff.mp hentries
    obtain ⟨es', hes', hcons⟩ := Option.bind_eq_some_iff.mp hrest
    obtain rfl : e :: es' = es := Option.some.inj hcons
    obtain ⟨hle, hiff⟩ := ih hes'
    obtain ⟨n, hleft, hlen⟩ := bytesLeft_of_entryOf he
    simp only [List.map_cons, List.sum_cons, List.forall_mem_cons, ← hiff, hleft,
      Option.some.injEq]
    omega

/-- **Grammar.** An accepted file is in the grammar exactly when its first frame has the kind 0
    and the file is no longer than what the encoders write for its counts and entries. -/
theorem accepted_inGrammar_iff (s : FailureStore) (data : List UInt8)
    (hload : (s.load (some data)).2 = true) :
    InGrammar data ↔ data[6]? = some 0 ∧ ∀ nfail nop nid es,
      ParsesTo data nfail nop nid es data.length →
        data.length ≤ (snapshot nfail.toNat nop.toNat nid.toNat es).length := by
  obtain ⟨nfail, nop, nid, es, hparses, -⟩ := (load_true_iff s data).mp hload
  have hparse := hparses
  obtain ⟨h, hs, hframes, hheader, hentries⟩ := hparse
  obtain ⟨hmin, hexact⟩ := header_exact_iff hheader
  obtain ⟨hle, husedUp⟩ := usedUp_iff hentries
  have hlen := hframes.off_eq
  rw [List.map_cons, List.sum_cons] at hlen
  have hkind : data[6]? = some h.kind := by
    cases hframes with
    | @cons _ next _ _ _ hdec _ =>
      obtain ⟨hbytes, -⟩ := decodeFrame_bytes hdec
      have hfirst := frameBody_kind h.kind h.payload
        (BinaryWriter.u64 h.checksum ++ data.drop next)
      rwa [← hbytes, List.drop_zero] at hfirst
  have hcond : (∀ nfail nop nid es, ParsesTo data nfail nop nid es data.length →
      data.length ≤ (snapshot nfail.toNat nop.toNat nid.toNat es).length) ↔
      h.payload.length = 18 ∧ ∀ f ∈ hs, bytesLeft f = some 0 := by
    rw [← husedUp]
    constructor
    · intro hshort
      have hfile := hshort nfail nop nid es hparses
      rw [length_snapshot] at hfile
      omega
    · rintro ⟨hheader', hsum⟩ nfail' nop' nid' es' hparses'
      obtain ⟨-, -, -, rfl⟩ := hparses.unique hparses'
      rw [length_snapshot]
      omega
  rw [hcond, hkind, Option.some.injEq, hexact]
  constructor
  · rintro ⟨h', hs', hframes', hzero, hpayload, hall⟩
    obtain ⟨rfl, rfl⟩ := List.cons.inj (hframes.unique hframes' rfl)
    exact ⟨hzero, hpayload, hall⟩
  · rintro ⟨hzero, hpayload, hall⟩
    exact ⟨h, hs, hframes, hzero, hpayload, hall⟩

theorem accepted_inGrammar_sample :
    InGrammar (sampleStore.save sampleOrders) ↔
      (sampleStore.save sampleOrders)[6]? = some 0 ∧ ∀ nfail nop nid es,
        ParsesTo (sampleStore.save sampleOrders) nfail nop nid es
            (sampleStore.save sampleOrders).length →
          (sampleStore.save sampleOrders).length ≤
            (snapshot nfail.toNat nop.toNat nid.toNat es).length :=
  accepted_inGrammar_iff {} _ (by rw [load_save sampleOrders sampleStore_saveable])

/-- An empty snapshot whose header payload has one byte too many. -/
def paddedFile : List UInt8 := encodeFrame 0 (encodeHeader 0 0 0 ++ [0xDE])

/-- It is accepted, and not in the grammar. -/
theorem padded_file_accepted :
    (({} : FailureStore).load (some paddedFile)).2 = true ∧ ¬ InGrammar paddedFile := by
  refine ⟨by decide +kernel, ?_⟩
  rintro ⟨h, hs, hframes, -, ⟨nfail, nop, nid, hpayload⟩, -⟩
  cases hframes with
  | cons hdec _ =>
    have hpadded : (decodeFrame paddedFile 0).map (fun p => p.1.payload.length) = some 19 := by
      decide +kernel
    rw [hdec, Option.map_some, hpayload, length_encodeHeader] at hpadded
    exact absurd hpadded (by decide)

end FailureFabric
