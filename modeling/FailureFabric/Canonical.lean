import FailureFabric.Accepted

namespace FailureFabric

open Library

/-!
# The way back through the codec

The round trips say that a decoder reads what the encoder wrote.  Here it is the other way
round: the bytes that a decoder takes are those that the encoder writes for its answer.

* `takes_u8`, …, `takes_str16` — the fields;
* `takes_failureRecord`, `takes_entry`, … — the payloads; an operation has two flags, which are
  read from any byte that is not zero, so that only its length is determined;
* `failureRecord_codec` — with the round trip, the codec of the records is a bijection;
* `decodeFrame_bytes` — a frame.
-/

/-! ### Fields -/

namespace BinaryReader

/-- The cursor is inside of the buffer. -/
def Inside (r : BinaryReader) : Prop := r.pos ≤ r.data.length

/-- What the shared read takes are the bytes that it makes its answer of. -/
theorem takes_fixed {α : Type} {n : Nat} (dflt : α) (get : (bs : List UInt8) → bs.length = n → α) :
    Takes Inside (fixed n dflt get) (fun a bs => ∃ h : bs.length = n, a = get bs h) := by
  intro r a r' h hinside
  unfold fixed at h
  split_ifs at h with hfits
  · obtain ⟨rfl, rfl⟩ := Prod.mk.inj (Option.some.inj h)
    refine ⟨hfits, fun hgood => ⟨⟨hgood.1, hinside⟩, (r.data.drop r.pos).take n, ?_, ?_, rfl⟩⟩
    · exact (List.drop_take_append_drop ..).symm
    · rw [List.length_take, List.length_drop]
      omega
  · obtain ⟨-, rfl⟩ := Prod.mk.inj (Option.some.inj h)
    exact ⟨hinside, fun hgood => absurd hgood.1 (by simp)⟩

/-- The answer is the byte that was taken. -/
theorem takes_u8 : Takes Inside u8 (fun v bs => bs = BinaryWriter.u8 v) := by
  refine (takes_fixed _ _).imp ?_
  rintro _ bs ⟨hlen, rfl⟩
  obtain ⟨b, rfl⟩ := List.length_eq_one_iff.mp hlen
  simp [BinaryWriter.u8, getBe]

/-- The two bytes taken are those that the answer is written as. -/
theorem takes_u16 : Takes Inside u16 (fun v bs => bs = BinaryWriter.u16 v) := by
  refine (takes_fixed _ _).imp ?_
  rintro _ bs ⟨hlen, rfl⟩
  have hlt := getBe_lt bs
  rw [hlen] at hlt
  rw [BinaryWriter.u16, UInt16.toNat_ofNat_of_lt' hlt, putBe_getBe_of_length hlen]

/-- So are the four bytes. -/
theorem takes_u32 : Takes Inside u32 (fun v bs => bs = BinaryWriter.u32 v) := by
  refine (takes_fixed _ _).imp ?_
  rintro _ bs ⟨hlen, rfl⟩
  have hlt := getBe_lt bs
  rw [hlen] at hlt
  rw [BinaryWriter.u32, UInt32.toNat_ofNat_of_lt' hlt, putBe_getBe_of_length hlen]

/-- So are the eight bytes. -/
theorem takes_u64 : Takes Inside u64 (fun v bs => bs = BinaryWriter.u64 v) := by
  refine (takes_fixed _ _).imp ?_
  rintro _ bs ⟨hlen, rfl⟩
  have hlt := getBe_lt bs
  rw [hlen] at hlt
  rw [BinaryWriter.u64, UInt64.toNat_ofNat_of_lt' hlt, putBe_getBe_of_length hlen]

/-- The sixteen bytes are the answer itself. -/
theorem takes_uuid : Takes Inside uuid (fun u bs => bs = BinaryWriter.uuid u) := by
  refine (takes_fixed _ _).imp ?_
  rintro _ bs ⟨hlen, rfl⟩
  rfl

/-- The kind of an identity is not written. -/
theorem takes_id (tag : IdTag) :
    Takes Inside (id tag) (fun i bs => bs = BinaryWriter.uuid i.raw) :=
  takes_uuid.map (fun _ _ h => h)

/-- A generation is written as its counter. -/
theorem takes_generation :
    Takes Inside generation (fun g bs => bs = BinaryWriter.generation g) :=
  takes_u64.map (fun _ _ h => h)

/-- Any code is taken as it stands. -/
theorem takes_enumv : Takes Inside enumv (fun v bs => bs = BinaryWriter.enumv v) := takes_u32

/-- The check takes nothing. -/
theorem takes_checkOk : Takes Inside checkOk (fun _ bs => bs = []) := by
  intro r u r' h hinside
  unfold checkOk at h
  split_ifs at h
  obtain ⟨-, rfl⟩ := Prod.mk.inj (Option.some.inj h)
  exact ⟨hinside, fun hgood => ⟨hgood, [], rfl, rfl⟩⟩

/-- Behind the check, reading is in order. -/
theorem ends_checkOk : Ends checkOk (fun r => r.ok = true) := by
  intro r u r' h
  unfold checkOk at h
  split_ifs at h with hok
  obtain ⟨-, rfl⟩ := Prod.mk.inj (Option.some.inj h)
  exact hok

/-- A text is taken with its length field.  Two bytes count no text that is too long to be written,
    so the writer gives the same bytes. -/
theorem takes_str16 : Takes Inside str16 (fun s bs => bs = BinaryWriter.str16 s) := by
  refine takes_u16.bind (fun len => ?_)
  intro r s r' h hinside
  dsimp only at h
  split_ifs at h with hbad
  · obtain ⟨-, rfl⟩ := Prod.mk.inj (Option.some.inj h)
    exact ⟨hinside, fun hgood => absurd hgood.1 (by simp)⟩
  · obtain ⟨rfl, rfl⟩ := Prod.mk.inj (Option.some.inj h)
    push Not at hbad
    have hlen : ((r.data.drop r.pos).take len.toNat).length = len.toNat := by
      rw [List.length_take, List.length_drop]
      omega
    refine ⟨hbad.2, fun hgood =>
      ⟨⟨hgood.1, hinside⟩, (r.data.drop r.pos).take len.toNat, ?_, ?_⟩⟩
    · exact (List.drop_take_append_drop ..).symm
    · rintro _ rfl
      have hlt := len.toNat_lt
      rw [BinaryWriter.str16, if_neg (by omega), hlen, UInt16.ofNat_toNat]

/-- Below the bound a code is that of an enumerator, which writes it back. -/
theorem takes_enumBelow {α : Type} [WireEnum α] {n : UInt32} (hn : n.toNat = WireEnum.count α) :
    Takes Inside (enumBelow α n) (fun a bs => bs = BinaryWriter.enumv (WireEnum.code a)) := by
  refine takes_enumv.bind (fun v => takes_checkOk.bind (fun _ => ?_))
  refine Takes.check.bind (fun _ => .pure ?_)
  rintro _ ⟨rfl, hlt⟩ _ rfl _ rfl
  rw [WireEnum.code_ofCode v (by rw [← hn]; exact UInt32.lt_iff_toNat_lt.mp hlt)]
  exact List.append_nil _

end BinaryReader

/-! ### Payloads -/

section Payloads

open BinaryReader

/-- An authority is taken field by field, in the order in which it is written. -/
theorem takes_auth : Takes Inside decAuth (fun e bs => bs = encAuth e) := by
  unfold decAuth
  refine takes_generation.bind (fun _ => (takes_id _).bind (fun _ => ?_))
  refine (takes_id _).bind (fun _ => (takes_id _).bind (fun _ => ?_))
  iterate 4 refine takes_generation.bind (fun _ => ?_)
  refine takes_checkOk.bind (fun _ => Takes.check.bind (fun _ => .pure ?_))
  rintro _ ⟨rfl, -⟩ _ rfl _ rfl _ rfl _ rfl _ rfl _ rfl _ rfl _ rfl _ rfl
  simp only [encAuth, List.append_assoc, List.append_nil]

/-- The header of a snapshot: the magic number and the version are checked, the three counts are
    the answer. -/
theorem takes_header : Takes Inside decodeHeader
    (fun p bs => bs = encodeHeader p.1.toNat p.2.1.toNat p.2.2.toNat) := by
  unfold decodeHeader
  refine takes_u32.bind (fun _ => Takes.check.bind (fun _ => ?_))
  refine takes_u16.bind (fun _ => Takes.check.bind (fun _ => ?_))
  iterate 3 refine takes_u32.bind (fun _ => ?_)
  refine takes_checkOk.bind (fun _ => .pure ?_)
  rintro _ rfl _ rfl _ rfl _ rfl _ ⟨rfl, rfl⟩ _ rfl _ ⟨rfl, rfl⟩ _ rfl
  simp only [encodeHeader, List.append_assoc, List.append_nil, List.nil_append,
    UInt32.ofNat_toNat]

/-- An entry of the idempotency store; a state that no enumerator names is written back too. -/
theorem takes_entry : Takes Inside decodeEntry (fun ev bs => bs = encodeEntry ev) := by
  unfold decodeEntry
  refine (takes_id _).bind (fun _ => takes_uuid.bind (fun _ => takes_u64.bind (fun _ => ?_)))
  refine takes_enumv.bind (fun _ => takes_str16.bind (fun _ => ?_))
  refine takes_checkOk.bind (fun _ => .pure ?_)
  rintro _ rfl _ rfl _ rfl _ rfl _ rfl _ rfl
  simp only [encodeEntry, List.append_assoc, List.append_nil, IdempotencyState.code_ofCode]

/-- The recovery ownership. -/
theorem takes_ownership :
    Takes Inside decodeOwnership (fun own bs => bs = encodeOwnership own) := by
  unfold decodeOwnership
  refine (takes_enumBelow rfl).bind (fun _ => takes_generation.bind (fun _ => ?_))
  refine (takes_id _).bind (fun _ => takes_checkOk.bind (fun _ => .pure ?_))
  rintro _ rfl _ rfl _ rfl _ rfl
  simp only [encodeOwnership, List.append_assoc, List.append_nil]

/-- The two flags are any bytes. -/
theorem takes_operation : Takes Inside decodeOperation
    (fun p bs => bs.length = (encodeOperation p.1 p.2).length) := by
  unfold decodeOperation
  refine takes_checkOk.bind (fun _ => (takes_id _).bind (fun _ => takes_enumv.bind (fun _ => ?_)))
  refine takes_u32.bind (fun _ => takes_u8.bind (fun _ => takes_str16.bind (fun _ => ?_)))
  refine takes_u8.bind (fun _ => takes_uuid.bind (fun _ => takes_auth.bind (fun _ => ?_)))
  refine takes_auth.bind (fun _ => takes_checkOk.bind (fun _ => .pure ?_))
  rintro _ rfl _ rfl _ rfl _ rfl _ rfl _ rfl _ rfl _ rfl _ rfl _ rfl _ rfl
  simp [encodeOperation, BinaryWriter.u8]

/-- A failure record, every field of it.  The class and the origin are checked together, so their
    codes are turned into enumerators at the end only. -/
theorem takes_failureRecord :
    Takes Inside decodeFailureRecord (fun rec bs => bs = encodeFailureRecord rec) := by
  unfold decodeFailureRecord
  -- the nine identities and the two codes that are checked together
  refine takes_checkOk.bind (fun _ => ?_)
  iterate 9 refine (takes_id _).bind (fun _ => ?_)
  refine takes_enumv.bind (fun fc => takes_enumv.bind (fun fo => ?_))
  refine takes_checkOk.bind (fun _ => Takes.check.bind (fun _ => ?_))
  -- the texts and what happened
  refine takes_u32.bind (fun _ => takes_str16.bind (fun _ => takes_str16.bind (fun _ => ?_)))
  refine (takes_enumBelow rfl).bind (fun _ => takes_u64.bind (fun _ => ?_))
  refine (takes_enumBelow rfl).bind (fun _ => (takes_enumBelow rfl).bind (fun _ => ?_))
  refine takes_u32.bind (fun _ => ?_)
  -- the authority
  refine takes_generation.bind (fun _ => ?_)
  iterate 3 refine (takes_id _).bind (fun _ => ?_)
  iterate 4 refine takes_generation.bind (fun _ => ?_)
  -- the six dimensions, the cause and the dependencies
  iterate 6 refine (takes_enumBelow rfl).bind (fun _ => ?_)
  refine (takes_id _).bind (fun _ => takes_u32.bind (fun ndeps => ?_))
  refine takes_checkOk.bind (fun _ => Takes.check.bind (fun _ => ?_))
  refine (Takes.many (takes_id _) _).bind (fun _ => takes_checkOk.bind (fun _ => ?_))
  refine Takes.check.bind (fun _ => .pure ?_)
  rintro _ ⟨rfl, -⟩ _ rfl _ ⟨hdeps, rfl⟩ _ ⟨rfl, -⟩ _ rfl _ rfl _ rfl
  iterate 6 rintro _ rfl
  iterate 8 rintro _ rfl
  iterate 8 rintro _ rfl
  rintro _ ⟨rfl, hclass, horigin⟩ _ rfl _ rfl _ rfl
  iterate 9 rintro _ rfl
  rintro _ rfl
  have hfc : WireEnum.code (WireEnum.ofCode fc : FailureClass) = fc :=
    WireEnum.code_ofCode fc (UInt32.lt_iff_toNat_lt.mp hclass)
  have hfo : WireEnum.code (WireEnum.ofCode fo : FailureOrigin) = fo :=
    WireEnum.code_ofCode fo (UInt32.lt_iff_toNat_lt.mp horigin)
  unfold encodeFailureRecord
  rw [hfc, hfo, hdeps, UInt32.ofNat_toNat]
  simp only [List.append_assoc, List.append_nil, List.nil_append]

/-- After the header, the record and so on, reading is in order. -/
theorem ends_header : Ends decodeHeader (fun r => r.ok = true) := by
  unfold decodeHeader
  iterate 7 refine .after (fun _ => ?_)
  exact ends_checkOk.then_pure

/-- The record ends with a check of its authority, which reads nothing. -/
theorem ends_failureRecord : Ends decodeFailureRecord (fun r => r.ok = true) := by
  unfold decodeFailureRecord
  iterate 41 refine .after (fun _ => ?_)
  exact ends_checkOk.then_check

/-- An operation ends with the check. -/
theorem ends_operation : Ends decodeOperation (fun r => r.ok = true) := by
  unfold decodeOperation
  iterate 10 refine .after (fun _ => ?_)
  exact ends_checkOk.then_pure

/-- So does an entry. -/
theorem ends_entry : Ends decodeEntry (fun r => r.ok = true) := by
  unfold decodeEntry
  iterate 5 refine .after (fun _ => ?_)
  exact ends_checkOk.then_pure

/-- So does the ownership. -/
theorem ends_ownership : Ends decodeOwnership (fun r => r.ok = true) := by
  unfold decodeOwnership
  iterate 3 refine .after (fun _ => ?_)
  exact ends_checkOk.then_pure

/-- What a decoder takes from a payload, and what it leaves. -/
theorem payload_of_takes {α : Type} {m : Decoder BinaryReader α} {R : α → List UInt8 → Prop}
    (hm : Takes Inside m R) (hends : Ends m (fun r => r.ok = true)) {payload : List UInt8} {a : α}
    {r : BinaryReader} (h : m { data := payload } = some (a, r)) :
    ∃ bs, payload = bs ++ Source.unread r ∧ R a bs := by
  obtain ⟨hinside, htakes⟩ := hm _ a r h (Nat.zero_le _)
  obtain ⟨-, bs, hbs, hR⟩ := htakes ⟨hends _ a r h, hinside⟩
  exact ⟨bs, hbs, hR⟩

/-- At the start everything is unread. -/
theorem unread_start (data : List UInt8) : Source.unread ({ data } : BinaryReader) = data := rfl

/-- A decoder that is inverse to an encoder refuses a part of what was encoded. -/
theorem none_of_prefix {α : Type} {m : Decoder BinaryReader α} {encode : α → List UInt8}
    {P : α → Prop} (hreads : ∀ a, P a → Reads m (encode a) a) (hensures : Ensures m P)
    (htakes : Takes Inside m (fun a bs => bs = encode a)) (hends : Ends m (fun r => r.ok = true))
    {a : α} (ha : P a) {part : List UInt8} (hpart : part <+: encode a) (hne : part ≠ encode a) :
    m { data := part } = none := by
  obtain ⟨rest, hrest⟩ := hpart
  rw [Option.eq_none_iff_forall_ne_some]
  rintro ⟨a', r⟩ hdec
  obtain ⟨_, hsplit, rfl⟩ := payload_of_takes htakes hends hdec
  -- both values would be read from the whole encoding
  have hwhole : encode a = encode a' ++ (Source.unread r ++ rest) := by
    rw [← hrest, hsplit, List.append_assoc]
  obtain ⟨r₁, h₁, -⟩ := hreads a ha { data := encode a } [] ⟨rfl, Nat.zero_le _⟩
    (List.append_nil _).symm
  obtain ⟨r₂, h₂, -⟩ := hreads a' (hensures _ _ _ hdec) { data := encode a } _
    ⟨rfl, Nat.zero_le _⟩ hwhole
  obtain rfl : a = a' := (Prod.mk.inj (Option.some.inj (h₁.symm.trans h₂))).1
  refine hne ((List.IsPrefix.eq_of_length_le ⟨rest, hrest⟩) ?_)
  rw [hsplit, List.length_append]
  exact Nat.le_add_right _ _

/-- **The record codec is a bijection** between the encodable records and what the decoder accepts.
    An encoding is decoded whatever follows it, which stays unread, and no strict prefix of it is;
    and what the decoder takes is the encoding of its answer. -/
theorem failureRecord_codec :
    (∀ rec : FailureRecord, rec.Encodable →
      (∀ t, ∃ r, decodeFailureRecord { data := encodeFailureRecord rec ++ t } = some (rec, r) ∧
        Source.unread r = t) ∧
      ∀ part, part <+: encodeFailureRecord rec → part ≠ encodeFailureRecord rec →
        decodeFailureRecord { data := part } = none) ∧
    ∀ data rec r, decodeFailureRecord { data } = some (rec, r) →
      data = encodeFailureRecord rec ++ Source.unread r := by
  have hreads : ∀ rec : FailureRecord, rec.Encodable →
      Reads decodeFailureRecord (encodeFailureRecord rec) rec := fun _ h => reads_failureRecord h
  refine ⟨fun rec hrec => ⟨fun t => ?_, fun part hpart hne => ?_⟩, fun data rec r hdec => ?_⟩
  · obtain ⟨r, hdec, -, hunread⟩ := hreads rec hrec
      { data := encodeFailureRecord rec ++ t } t ⟨rfl, Nat.zero_le _⟩ (unread_start _)
    exact ⟨r, hdec, hunread⟩
  · exact none_of_prefix hreads ensures_failureRecord takes_failureRecord ends_failureRecord hrec
      hpart hne
  · obtain ⟨bs, hdata, hbs⟩ := payload_of_takes takes_failureRecord ends_failureRecord hdec
    rw [← hbs]
    exact hdata

end Payloads

/-! ### Frames -/

/-- The eleven bytes before a payload are determined by the kind and the length. -/
theorem takes_frameHeader : Takes BinaryReader.Inside readFrameHeader (fun p bs =>
    bs = BinaryWriter.u32 kFFMagic ++ (BinaryWriter.u16 kFFVersion ++ (BinaryWriter.u8 p.1 ++
      BinaryWriter.u32 p.2))) := by
  open BinaryReader in
  unfold readFrameHeader
  refine takes_u32.bind (fun _ => takes_checkOk.bind (fun _ => Takes.check.bind (fun _ => ?_)))
  refine takes_u16.bind (fun _ => takes_checkOk.bind (fun _ => Takes.check.bind (fun _ => ?_)))
  refine takes_u8.bind (fun _ => takes_u32.bind (fun _ => takes_checkOk.bind (fun _ => .pure ?_)))
  rintro _ rfl _ rfl _ rfl _ ⟨rfl, rfl⟩ _ rfl _ rfl _ ⟨rfl, rfl⟩ _ rfl _ rfl
  simp only [List.append_nil, List.nil_append]

/-- They end with the check. -/
theorem ends_frameHeader : Ends readFrameHeader (fun r => r.ok = true) := by
  unfold readFrameHeader
  iterate 8 refine .after (fun _ => ?_)
  exact BinaryReader.ends_checkOk.then_pure

/-- **Frame law.** The bytes of a decoded frame are its body and its checksum, which is the one of
    as many bytes as the length field, computed in 32 bits, says. -/
theorem decodeFrame_bytes {data : List UInt8} {off next : Nat} {h : FrameHeader}
    (hdec : decodeFrame data off = some (h, next)) :
    data.drop off =
        frameBody h.kind h.payload ++ (BinaryWriter.u64 h.checksum ++ data.drop next) ∧
      h.payload.length < 2 ^ 32 ∧ next = off + (19 + h.payload.length) ∧
      h.checksum =
        fnv1a64 ((data.drop off).take (11 + UInt32.ofNat h.payload.length).toNat) := by
  unfold decodeFrame at hdec
  simp only [guard, Option.bind_eq_bind, Option.bind_eq_some_iff] at hdec
  obtain ⟨_, -, ⟨⟨kind, len⟩, r⟩, hread, _, -, _, hfits, _, hck, hout⟩ := hdec
  obtain ⟨bs, hdrop, hbs⟩ := payload_of_takes takes_frameHeader ends_frameHeader hread
  have hle : off + 11 + len.toNat + 8 ≤ data.length := by
    by_contra hlong
    rw [if_neg hlong] at hfits
    exact absurd hfits (by simp)
  have hcovered : fnv1a64 ((data.drop off).take (11 + len).toNat) =
      UInt64.ofNat (getBe ((data.drop (off + 11 + len.toNat)).take 8)) := by
    by_contra hne
    rw [if_neg hne] at hck
    exact absurd hck (by simp)
  obtain ⟨rfl, rfl⟩ := Prod.mk.inj (Option.some.inj hout)
  -- the payload, the checksum and the rest stand behind the eleven bytes of the header
  have hpayload : ((data.drop (off + 11)).take len.toNat).length = len.toNat := by
    rw [List.length_take, List.length_drop]
    omega
  have hstored : ((data.drop (off + 11 + len.toNat)).take 8).length = 8 := by
    rw [List.length_take, List.length_drop]
    omega
  have hlt := getBe_lt ((data.drop (off + 11 + len.toNat)).take 8)
  rw [hstored] at hlt
  have hck8 : BinaryWriter.u64 (UInt64.ofNat
      (getBe ((data.drop (off + 11 + len.toNat)).take 8))) =
      (data.drop (off + 11 + len.toNat)).take 8 := by
    rw [BinaryWriter.u64, UInt64.toNat_ofNat_of_lt' hlt, putBe_getBe_of_length hstored]
  have hunread : Source.unread r = data.drop (off + 11) := by
    rw [← List.drop_drop, hdrop, hbs]
    exact (List.drop_left' (by simp)).symm
  have hsplit₁ : data.drop (off + 11) =
      (data.drop (off + 11)).take len.toNat ++ data.drop (off + 11 + len.toNat) :=
    (List.drop_take_append_drop ..).symm
  have hsplit₂ : data.drop (off + 11 + len.toNat) =
      (data.drop (off + 11 + len.toNat)).take 8 ++ data.drop (off + 11 + len.toNat + 8) :=
    (List.drop_take_append_drop ..).symm
  have hlen := len.toNat_lt
  dsimp only
  rw [hck8, hpayload, UInt32.ofNat_toNat]
  refine ⟨?_, by omega, by omega, hcovered.symm⟩
  rw [hdrop, hbs, hunread, frameBody, hpayload, UInt32.ofNat_toNat, ← hsplit₂]
  conv_lhs => rw [hsplit₁]
  simp only [List.append_assoc]

/-- A frame whose checksum range does not wrap is the encoding of what was decoded. -/
theorem decodeFrame_canonical {data : List UInt8} {off next : Nat} {h : FrameHeader}
    (hdec : decodeFrame data off = some (h, next)) (hlen : h.payload.length + 11 < 2 ^ 32) :
    data.drop off = encodeFrame h.kind h.payload ++ data.drop next := by
  obtain ⟨hbytes, -, -, hck⟩ := decodeFrame_bytes hdec
  have hrange : (11 + UInt32.ofNat h.payload.length).toNat =
      (frameBody h.kind h.payload).length := by
    rw [UInt32.toNat_add, UInt32.toNat_ofNat_of_lt' (by rw [UInt32.size]; omega),
      show (11 : UInt32).toNat = 11 from rfl, length_frameBody]
    omega
  rw [hrange, hbytes, List.take_left] at hck
  rw [hbytes, encodeFrame, hck, List.append_assoc]

end FailureFabric
