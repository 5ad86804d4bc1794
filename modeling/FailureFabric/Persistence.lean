import FailureFabric.FailureRecord
import FailureFabric.Library.Bytes
import FailureFabric.Library.Decoder

namespace FailureFabric

open Library

/-!
# The binary codec

Fields are written one after the other by a writer and read back by a reader with a cursor and a
flag.  A read past the end turns the flag off, answers a default and leaves the cursor where it
is; the flag is never turned on again.

* `BinaryWriter`, `BinaryReader` — the fields; `reads_u8`, …, `reads_str16` say that a reader
  reads exactly what the writer wrote;
* `encodeFrame`, `decodeFrame` — a checksummed frame; `decodeFrame_encodeFrame`;
* `encodeFailureRecord`, `decodeFailureRecord` — the record; `reads_failureRecord`.
-/

/-- `kFFMagic`. -/
def kFFMagic : UInt32 := 0x46464600

/-- `kFFVersion`. -/
def kFFVersion : UInt16 := 1

/-- `fnv1a64`. -/
def fnv1a64 (data : List UInt8) : UInt64 :=
  data.foldl (fun h b => (h ^^^ b.toUInt64) * 1099511628211) 1469598103934665603

/-! ### The writer -/

/-- `BinaryWriter`: each method is given by the bytes it appends. -/
abbrev BinaryWriter := List UInt8

namespace BinaryWriter

/-- `u8`. -/
def u8 (v : UInt8) : BinaryWriter := [v]

/-- `u16`, the most significant byte first. -/
def u16 (v : UInt16) : BinaryWriter := putBe 2 v.toNat

/-- `u32`. -/
def u32 (v : UInt32) : BinaryWriter := putBe 4 v.toNat

/-- `u64`. -/
def u64 (v : UInt64) : BinaryWriter := putBe 8 v.toNat

/-- `str16`: a text that is too long is written as the empty one. -/
def str16 (s : Text) : BinaryWriter :=
  if s.length > 0xFFFF then u16 0 else u16 (UInt16.ofNat s.length) ++ s

/-- `uuid`: the sixteen bytes as they are. -/
def uuid (u : Uuid128) : BinaryWriter := u.bytes

/-- `generation`: the counter. -/
def generation (g : Generation) : BinaryWriter := u64 g.value

/-- `enumv`: the code of an enumerator. -/
def enumv (v : UInt32) : BinaryWriter := u32 v

/-- The width of a field: one byte. -/
@[simp] theorem length_u8 (v : UInt8) : (u8 v).length = 1 := rfl

/-- Two bytes. -/
@[simp] theorem length_u16 (v : UInt16) : (u16 v).length = 2 := length_putBe 2 v.toNat

/-- Four bytes. -/
@[simp] theorem length_u32 (v : UInt32) : (u32 v).length = 4 := length_putBe 4 v.toNat

/-- Eight bytes. -/
@[simp] theorem length_u64 (v : UInt64) : (u64 v).length = 8 := length_putBe 8 v.toNat

/-- An identity has sixteen bytes. -/
@[simp] theorem length_uuid (u : Uuid128) : (uuid u).length = 16 := u.length_eq

/-- A generation is as wide as its counter. -/
@[simp] theorem length_generation (g : Generation) : (generation g).length = 8 := length_u64 g.value

/-- A code is as wide as the underlying type. -/
@[simp] theorem length_enumv (v : UInt32) : (enumv v).length = 4 := length_u32 v

/-- A text takes at most its length field and as many bytes as that can count. -/
theorem length_str16_le (s : Text) : (str16 s).length ≤ 2 + 0xFFFF := by
  unfold str16
  split
  · simp
  · rw [List.length_append, length_u16]
    omega

end BinaryWriter

/-! ### The reader -/

/-- `BinaryReader`. -/
structure BinaryReader where
  /-- The buffer `p_`, of `n_` bytes. -/
  data : List UInt8
  /-- The cursor `pos_`. -/
  pos : Nat := 0
  /-- The flag `ok_`. -/
  ok : Bool := true

namespace BinaryReader

/-- `remaining`. -/
def remaining (r : BinaryReader) : Nat := r.data.length - r.pos

/-- The read that the fixed-width methods share: `need(n)`, then the bytes and the advance. -/
def fixed {α : Type} (n : Nat) (dflt : α) (get : (bs : List UInt8) → bs.length = n → α) :
    Decoder BinaryReader α := fun r =>
  if h : r.pos + n ≤ r.data.length then
    some (get ((r.data.drop r.pos).take n) (by simp; omega), { r with pos := r.pos + n })
  else some (dflt, { r with ok := false })

/-- `u8`. -/
def u8 : Decoder BinaryReader UInt8 := fixed 1 0 (fun bs _ => UInt8.ofNat (getBe bs))

/-- `u16`. -/
def u16 : Decoder BinaryReader UInt16 := fixed 2 0 (fun bs _ => UInt16.ofNat (getBe bs))

/-- `u32`. -/
def u32 : Decoder BinaryReader UInt32 := fixed 4 0 (fun bs _ => UInt32.ofNat (getBe bs))

/-- `u64`. -/
def u64 : Decoder BinaryReader UInt64 := fixed 8 0 (fun bs _ => UInt64.ofNat (getBe bs))

/-- `uuid`. -/
def uuid : Decoder BinaryReader Uuid128 := fixed 16 Uuid128.zero (fun bs h => ⟨bs, h⟩)

/-- `str16`: a reader that is not `ok` answers the empty text. -/
def str16 : Decoder BinaryReader Text := do
  let len ← u16
  fun r =>
    if r.ok = false ∨ r.pos + len.toNat > r.data.length then some ([], { r with ok := false })
    else some ((r.data.drop r.pos).take len.toNat, { r with pos := r.pos + len.toNat })

/-- `generation`. -/
def generation : Decoder BinaryReader Generation := Generation.mk <$> u64

/-- `enumv`: any code; the callers check it. -/
def enumv : Decoder BinaryReader UInt32 := u32

/-- `Id<Tag>(r.uuid())`. -/
def id (tag : IdTag) : Decoder BinaryReader (Id tag) := Id.mk <$> uuid

/-- `if (!r.ok()) return false;` -/
def checkOk : Decoder BinaryReader Unit := fun r => if r.ok then some ((), r) else none

/-- A reader in order has its cursor inside of the buffer, and what stands behind the cursor is
    unread. -/
instance : Source BinaryReader UInt8 where
  good r := r.ok = true ∧ r.pos ≤ r.data.length
  unread r := r.data.drop r.pos

/-- `r` is in order and `bs` is next. -/
theorem le_length_of_unread {r : BinaryReader} {bs t : List UInt8} (hgood : Source.good r)
    (hunread : Source.unread r = bs ++ t) : r.pos + bs.length ≤ r.data.length := by
  have hlen : (r.data.drop r.pos).length = (bs ++ t).length := congrArg List.length hunread
  have hpos : r.pos ≤ r.data.length := hgood.2
  rw [List.length_drop, List.length_append] at hlen
  omega

/-- After an advance over `bs`, what followed `bs` is next. -/
theorem unread_advance {r : BinaryReader} {bs t : List UInt8}
    (hunread : Source.unread r = bs ++ t) :
    Source.unread { r with pos := r.pos + bs.length } = t := by
  show r.data.drop (r.pos + bs.length) = t
  rw [← List.drop_drop, show r.data.drop r.pos = bs ++ t from hunread, List.drop_left]

/-- **Fixed-width law.** The shared read answers what it makes of the next `n` bytes. -/
theorem reads_fixed {α : Type} {n : Nat} (dflt : α)
    (get : (bs : List UInt8) → bs.length = n → α) {bs : List UInt8} (hn : bs.length = n) :
    Reads (fixed n dflt get) bs (get bs hn) := by
  subst hn
  intro r t hgood hunread
  have hle := le_length_of_unread hgood hunread
  refine ⟨{ r with pos := r.pos + bs.length }, ?_, ⟨hgood.1, hle⟩, unread_advance hunread⟩
  have hnext : (r.data.drop r.pos).take bs.length = bs := by
    rw [show r.data.drop r.pos = bs ++ t from hunread, List.take_left]
  unfold fixed
  rw [dif_pos hle]
  simp only [hnext]

/-- A byte is read back. -/
theorem reads_u8 (v : UInt8) : Reads u8 (BinaryWriter.u8 v) v := by
  have h := reads_fixed (0 : UInt8) (fun bs _ => UInt8.ofNat (getBe bs))
    (BinaryWriter.length_u8 v)
  have hv : UInt8.ofNat (getBe (BinaryWriter.u8 v)) = v := by simp [BinaryWriter.u8, getBe]
  rwa [hv] at h

/-- A number is read back from its bytes, here two of them. -/
theorem reads_u16 (v : UInt16) : Reads u16 (BinaryWriter.u16 v) v := by
  have h := reads_fixed (0 : UInt16) (fun bs _ => UInt16.ofNat (getBe bs))
    (BinaryWriter.length_u16 v)
  rwa [BinaryWriter.u16, getBe_putBe_of_lt v.toNat_lt, UInt16.ofNat_toNat] at h

/-- Four bytes. -/
theorem reads_u32 (v : UInt32) : Reads u32 (BinaryWriter.u32 v) v := by
  have h := reads_fixed (0 : UInt32) (fun bs _ => UInt32.ofNat (getBe bs))
    (BinaryWriter.length_u32 v)
  rwa [BinaryWriter.u32, getBe_putBe_of_lt v.toNat_lt, UInt32.ofNat_toNat] at h

/-- Eight bytes. -/
theorem reads_u64 (v : UInt64) : Reads u64 (BinaryWriter.u64 v) v := by
  have h := reads_fixed (0 : UInt64) (fun bs _ => UInt64.ofNat (getBe bs))
    (BinaryWriter.length_u64 v)
  rwa [BinaryWriter.u64, getBe_putBe_of_lt v.toNat_lt, UInt64.ofNat_toNat] at h

/-- The sixteen bytes of an identity. -/
theorem reads_uuid (u : Uuid128) : Reads uuid (BinaryWriter.uuid u) u :=
  reads_fixed _ _ u.length_eq

/-- A typed identity is read back as one of the kind that is asked for. -/
theorem reads_id {tag : IdTag} (i : Id tag) : Reads (id tag) (BinaryWriter.uuid i.raw) i :=
  (reads_uuid i.raw).map Id.mk

/-- A generation is read back. -/
theorem reads_generation (g : Generation) : Reads generation (BinaryWriter.generation g) g :=
  (reads_u64 g.value).map Generation.mk

/-- A code is read back. -/
theorem reads_enumv (v : UInt32) : Reads enumv (BinaryWriter.enumv v) v := reads_u32 v

/-- The check passes a reader that is in order, and reads nothing. -/
theorem reads_checkOk : Reads checkOk [] () :=
  fun r _ hgood hunread => ⟨r, if_pos hgood.1, hgood, hunread⟩

/-- A text within the length field is read back. -/
theorem reads_str16 {s : Text} (hs : s.length ≤ 0xFFFF) : Reads str16 (BinaryWriter.str16 s) s := by
  rw [BinaryWriter.str16, if_neg (by omega)]
  refine (reads_u16 _).bind ?_
  intro r t hgood hunread
  have hle := le_length_of_unread hgood hunread
  have hlen : (UInt16.ofNat s.length).toNat = s.length :=
    UInt16.toNat_ofNat_of_lt' (by rw [UInt16.size]; omega)
  have hok : ¬ (r.ok = false ∨ r.pos + s.length > r.data.length) := by
    rintro (hbad | hlong)
    · exact absurd (hgood.1.symm.trans hbad) (by simp)
    · omega
  refine ⟨{ r with pos := r.pos + s.length }, ?_, ⟨hgood.1, hle⟩, unread_advance hunread⟩
  dsimp only
  rw [hlen, if_neg hok, show r.data.drop r.pos = s ++ t from hunread, List.take_left]

/-- `uint32_t v = r.enumv(); if (!r.ok() || v >= n) return false;` and the cast. -/
def enumBelow (α : Type) [WireEnum α] (n : UInt32) : Decoder BinaryReader α := do
  let v ← enumv
  checkOk
  guard (v < n)
  return WireEnum.ofCode v

/-- An enumerator is read back when the bound is the number of enumerators. -/
theorem reads_enumBelow {α : Type} [WireEnum α] {n : UInt32} (hn : n.toNat = WireEnum.count α)
    (a : α) : Reads (enumBelow α n) (BinaryWriter.enumv (WireEnum.code a)) a := by
  have hlt : WireEnum.code a < n := by
    rw [UInt32.lt_iff_toNat_lt, hn]
    exact WireEnum.code_lt a
  refine (reads_enumv _).bind_nil (reads_checkOk.nil_bind ((Reads.check hlt).nil_bind ?_))
  rw [WireEnum.ofCode_code]
  exact Reads.pure a

end BinaryReader

/-! ### Frames -/

/-- `FrameHeader`. -/
structure FrameHeader where
  /-- What the payload is a record of. -/
  kind : UInt8
  /-- The bytes between the header and the checksum. -/
  payload : List UInt8
  /-- The checksum that was read. -/
  checksum : UInt64
deriving DecidableEq

/-- The bytes of a frame that its checksum covers. -/
def frameBody (kind : UInt8) (payload : List UInt8) : List UInt8 :=
  BinaryWriter.u32 kFFMagic ++ BinaryWriter.u16 kFFVersion ++ BinaryWriter.u8 kind ++
    BinaryWriter.u32 (UInt32.ofNat payload.length) ++ payload

/-- `encode_frame`. -/
def encodeFrame (kind : UInt8) (payload : List UInt8) : List UInt8 :=
  frameBody kind payload ++ BinaryWriter.u64 (fnv1a64 (frameBody kind payload))

/-- The header fields of a frame: its kind and the length of its payload. -/
def readFrameHeader : Decoder BinaryReader (UInt8 × UInt32) := do
  let magic ← BinaryReader.u32
  BinaryReader.checkOk
  guard (magic = kFFMagic)
  let ver ← BinaryReader.u16
  BinaryReader.checkOk
  guard (ver = kFFVersion)
  let kind ← BinaryReader.u8
  let len ← BinaryReader.u32
  BinaryReader.checkOk
  return (kind, len)

/-- `decode_frame`: the frame at `offset` and the offset after it. -/
def decodeFrame (data : List UInt8) (offset : Nat) : Option (FrameHeader × Nat) := do
  guard (offset + 11 ≤ data.length)
  let ((kind, len), r) ← readFrameHeader { data := data.drop offset }
  guard (len.toNat ≤ r.remaining)
  let payloadStart := offset + 11
  guard (payloadStart + len.toNat + 8 ≤ data.length)
  let payload := (data.drop payloadStart).take len.toNat
  let storedCk := UInt64.ofNat (getBe ((data.drop (payloadStart + len.toNat)).take 8))
  -- `11 + len` is computed in 32 bits
  let ck := fnv1a64 ((data.drop offset).take (11 + len).toNat)
  guard (ck = storedCk)
  return (⟨kind, payload, storedCk⟩, payloadStart + len.toNat + 8)

/-- The fields before a payload take eleven bytes. -/
@[simp] theorem length_frameBody (kind : UInt8) (payload : List UInt8) :
    (frameBody kind payload).length = 11 + payload.length := by
  simp [frameBody]
  omega

/-- A frame is nineteen bytes longer than its payload. -/
@[simp] theorem length_encodeFrame (kind : UInt8) (payload : List UInt8) :
    (encodeFrame kind payload).length = 19 + payload.length := by
  simp [encodeFrame]
  omega

/-- The eleven bytes before the payload. -/
private def frameHead (kind : UInt8) (len : UInt32) : List UInt8 :=
  BinaryWriter.u32 kFFMagic ++ (BinaryWriter.u16 kFFVersion ++ (BinaryWriter.u8 kind ++
    BinaryWriter.u32 len))

/-- The header fields of a frame are read back. -/
private theorem reads_frameHead (kind : UInt8) (len : UInt32) :
    Reads readFrameHeader (frameHead kind len) (kind, len) := by
  refine (BinaryReader.reads_u32 _).bind (BinaryReader.reads_checkOk.nil_bind
    ((Reads.check rfl).nil_bind ?_))
  refine (BinaryReader.reads_u16 _).bind (BinaryReader.reads_checkOk.nil_bind
    ((Reads.check rfl).nil_bind ?_))
  refine (BinaryReader.reads_u8 _).bind ((BinaryReader.reads_u32 _).bind_nil ?_)
  exact BinaryReader.reads_checkOk.nil_bind (Reads.pure _)

/-- A body with the checksum of the part of it that `decode_frame` covers is decoded wherever it
    stands, and the next offset is right behind it. -/
theorem decodeFrame_frameBody (kind : UInt8) {payload : List UInt8}
    (hlen : payload.length < 2 ^ 32) {ck : UInt64}
    (hck : ck = fnv1a64 ((frameBody kind payload).take (11 + UInt32.ofNat payload.length).toNat))
    (pre post : List UInt8) :
    decodeFrame (pre ++ (frameBody kind payload ++ (BinaryWriter.u64 ck ++ post))) pre.length =
      some (⟨kind, payload, ck⟩, pre.length + (19 + payload.length)) := by
  set data := pre ++ (frameBody kind payload ++ (BinaryWriter.u64 ck ++ post)) with hdata
  have hlen' : (UInt32.ofNat payload.length).toNat = payload.length :=
    UInt32.toNat_ofNat_of_lt' hlen
  have hrange : (11 + UInt32.ofNat payload.length).toNat ≤ (frameBody kind payload).length := by
    rw [UInt32.toNat_add, hlen', length_frameBody]
    exact Nat.mod_le _ _
  have htotal : data.length = pre.length + (19 + payload.length) + post.length := by
    rw [hdata]
    simp only [List.length_append, length_frameBody, BinaryWriter.length_u64]
    omega
  -- what is left of the data at the frame, at its payload and at its checksum
  have hframe : data.drop pre.length =
      frameBody kind payload ++ (BinaryWriter.u64 ck ++ post) := by
    rw [hdata, List.drop_left]
  have hbody : data.drop pre.length = frameHead kind (UInt32.ofNat payload.length) ++
      (payload ++ (BinaryWriter.u64 ck ++ post)) := by
    rw [hframe]
    simp [frameBody, frameHead]
  have hpayload : data.drop (pre.length + 11) = payload ++ (BinaryWriter.u64 ck ++ post) := by
    rw [← List.drop_drop, hbody]
    exact List.drop_left' (by simp [frameHead])
  have htail : data.drop (pre.length + 11 + payload.length) = BinaryWriter.u64 ck ++ post := by
    rw [← List.drop_drop, hpayload, List.drop_left]
  have hstored : UInt64.ofNat
      (getBe ((data.drop (pre.length + 11 + payload.length)).take 8)) = ck := by
    rw [htail, show (8 : Nat) = (BinaryWriter.u64 ck).length by simp, List.take_left,
      BinaryWriter.u64, getBe_putBe_of_lt ck.toNat_lt, UInt64.ofNat_toNat]
  have hcovered : fnv1a64 ((data.drop pre.length).take
      (11 + UInt32.ofNat payload.length).toNat) = ck := by
    rw [hframe, List.take_append_of_le_length hrange, ← hck]
  obtain ⟨r, hr, -, hunread⟩ := reads_frameHead kind (UInt32.ofNat payload.length)
    { data := data.drop pre.length } (payload ++ (BinaryWriter.u64 ck ++ post))
    ⟨rfl, Nat.zero_le _⟩ hbody
  have hremaining : payload.length ≤ r.remaining := by
    have h : r.remaining = (payload ++ (BinaryWriter.u64 ck ++ post)).length := by
      rw [← hunread]
      exact List.length_drop.symm
    rw [h, List.length_append]
    omega
  have hfits₁ : pre.length + 11 ≤ data.length := by omega
  have hfits₂ : pre.length + 11 + payload.length + 8 ≤ data.length := by omega
  simp only [decodeFrame, guard, if_pos hfits₁, hr, hlen', if_pos hremaining, if_pos hfits₂,
    hcovered, hstored, Option.bind_eq_bind, Option.pure_def, Option.bind_some, if_true, hpayload,
    List.take_left]
  rw [show pre.length + 11 + payload.length + 8 = pre.length + (19 + payload.length) by omega]

/-- So is a written frame whose length field and checksum range do not wrap. -/
theorem decodeFrame_encodeFrame (kind : UInt8) {payload : List UInt8}
    (hlen : payload.length + 11 < 2 ^ 32) (pre post : List UInt8) :
    decodeFrame (pre ++ encodeFrame kind payload ++ post) pre.length =
      some (⟨kind, payload, fnv1a64 (frameBody kind payload)⟩,
        pre.length + (encodeFrame kind payload).length) := by
  have hfield : payload.length < 2 ^ 32 := by omega
  have hrange : (11 + UInt32.ofNat payload.length).toNat = (frameBody kind payload).length := by
    rw [UInt32.toNat_add, UInt32.toNat_ofNat_of_lt' hfield, show (11 : UInt32).toNat = 11 from rfl,
      length_frameBody]
    omega
  have hdec := decodeFrame_frameBody kind hfield rfl pre post
  rw [hrange, List.take_length] at hdec
  rw [length_encodeFrame, List.append_assoc, encodeFrame, List.append_assoc]
  exact hdec

/-- A decoded frame takes at least nineteen bytes and lies inside the data. -/
theorem decodeFrame_bounds {data : List UInt8} {offset next : Nat} {h : FrameHeader}
    (hdec : decodeFrame data offset = some (h, next)) :
    offset + 19 ≤ next ∧ next ≤ data.length := by
  unfold decodeFrame at hdec
  simp only [guard, Option.bind_eq_bind, Option.bind_eq_some_iff] at hdec
  obtain ⟨_, -, ⟨⟨kind, len⟩, r⟩, -, _, -, _, hfits, _, -, hout⟩ := hdec
  have hle : offset + 11 + len.toNat + 8 ≤ data.length := by
    by_contra hlong
    rw [if_neg hlong] at hfits
    exact absurd hfits (by simp)
  obtain ⟨-, hnext⟩ := Prod.mk.inj (Option.some.inj hout)
  dsimp only at hnext
  omega

/-! ### Failure records -/

/-- `validate_authority`. -/
def validateAuthority (e : AuthorityEnvelope) : Bool :=
  if !e.attempt.isNull && e.attemptGeneration.isUnset then false
  else if !e.workerBoot.isNull && e.coordinatorEpoch.isUnset then false
  else true

/-- `encode_failure_record`: the bytes it appends. -/
def encodeFailureRecord (r : FailureRecord) : List UInt8 :=
  open BinaryWriter in
  uuid r.failureId.raw ++ uuid r.operation.raw ++ uuid r.request.raw ++ uuid r.workload.raw ++
  uuid r.attempt.raw ++ uuid r.dispatch.raw ++ uuid r.worker.raw ++ uuid r.node.raw ++
  uuid r.device.raw ++
  enumv (WireEnum.code r.failureClass) ++ enumv (WireEnum.code r.origin) ++
  u32 r.failureCode ++ str16 r.summary ++ str16 r.reason ++ enumv (WireEnum.code r.phase) ++
  u64 r.timestampMs ++ enumv (WireEnum.code r.completion) ++
  enumv (WireEnum.code r.sideEffectState) ++
  u32 r.unknownSideEffects ++
  generation r.authority.coordinatorEpoch ++ uuid r.authority.workerBoot.raw ++
  uuid r.authority.attempt.raw ++ uuid r.authority.dispatch.raw ++
  generation r.authority.attemptGeneration ++ generation r.authority.operationGeneration ++
  generation r.authority.failureGeneration ++ generation r.authority.recoveryGeneration ++
  enumv (WireEnum.code r.retryability) ++ enumv (WireEnum.code r.rollback) ++
  enumv (WireEnum.code r.compensation) ++ enumv (WireEnum.code r.terminality) ++
  enumv (WireEnum.code r.recoveryOwner) ++ enumv (WireEnum.code r.provenance) ++
  uuid r.causalParent.raw ++
  u32 (UInt32.ofNat r.dependencies.length) ++
  r.dependencies.flatMap (fun d => uuid d.raw)

/-- `decode_failure_record`. -/
def decodeFailureRecord : Decoder BinaryReader FailureRecord := open BinaryReader in do
  checkOk
  let failureId ← id .FailureId
  let operation ← id .OperationId
  let request ← id .RequestId
  let workload ← id .WorkloadId
  let attempt ← id .AttemptId
  let dispatch ← id .DispatchId
  let worker ← id .WorkerId
  let node ← id .NodeId
  let device ← id .DeviceId
  let fc ← enumv
  let fo ← enumv
  checkOk
  guard (fc < 23 ∧ fo < 11)
  let failureCode ← u32
  let summary ← str16
  let reason ← str16
  let phase ← enumBelow FailurePhase 10
  let timestampMs ← u64
  let completion ← enumBelow Ambiguity 4
  let sideEffectState ← enumBelow SideEffectState 5
  let unknownSideEffects ← u32
  let coordinatorEpoch ← generation
  let workerBoot ← id .WorkerBootId
  let authAttempt ← id .AttemptId
  let authDispatch ← id .DispatchId
  let attemptGeneration ← generation
  let operationGeneration ← generation
  let failureGeneration ← generation
  let recoveryGeneration ← generation
  let retryability ← enumBelow Retryability 4
  let rollback ← enumBelow RollbackRequirement 4
  let compensation ← enumBelow CompensationRequirement 3
  let terminality ← enumBelow Terminality 4
  let recoveryOwner ← enumBelow RecoveryOwner 9
  let provenance ← enumBelow Provenance 7
  let causalParent ← id .FailureId
  let ndeps ← u32
  checkOk
  guard (ndeps ≤ 4096)
  let dependencies ← readMany (id .FailureId) ndeps.toNat
  checkOk
  let authority : AuthorityEnvelope :=
    { coordinatorEpoch, workerBoot, attempt := authAttempt, attemptGeneration,
      dispatch := authDispatch, operationGeneration, failureGeneration, recoveryGeneration }
  guard (validateAuthority authority = true)
  return { failureId, operation, request, workload, attempt, dispatch, worker, node, device,
           failureClass := WireEnum.ofCode fc, origin := WireEnum.ofCode fo, failureCode,
           summary, reason, phase, timestampMs, completion, sideEffectState,
           unknownSideEffects, authority, retryability, rollback, compensation, terminality,
           recoveryOwner, provenance, causalParent, dependencies }

/-- What the decoder needs of a record to read it back. -/
structure FailureRecord.Encodable (r : FailureRecord) : Prop where
  /-- The summary fits its length field. -/
  summary_le : r.summary.length ≤ 0xFFFF
  /-- So does the reason. -/
  reason_le : r.reason.length ≤ 0xFFFF
  /-- There are no more dependencies than the decoder allows. -/
  dependencies_le : r.dependencies.length ≤ 4096
  /-- The authority passes the decoder's check. -/
  authority_valid : validateAuthority r.authority = true

/-- An encodable record fits a frame. -/
theorem FailureRecord.Encodable.length_le {r : FailureRecord} (hr : r.Encodable) :
    (encodeFailureRecord r).length + 11 < 2 ^ 32 := by
  have hsummary := BinaryWriter.length_str16_le r.summary
  have hreason := BinaryWriter.length_str16_le r.reason
  have hdeps := hr.dependencies_le
  have hflat : (r.dependencies.flatMap (fun d => BinaryWriter.uuid d.raw)).length =
      16 * r.dependencies.length := by
    induction r.dependencies with
    | nil => rfl
    | cons d ds ih =>
      rw [List.flatMap_cons, List.length_append, ih, BinaryWriter.length_uuid, List.length_cons]
      omega
  unfold encodeFailureRecord
  simp only [List.length_append, hflat, BinaryWriter.length_uuid, BinaryWriter.length_enumv,
    BinaryWriter.length_u32, BinaryWriter.length_u64, BinaryWriter.length_generation]
  omega

/-- **Record round trip.** The decoder reads an encodable record back, field by field. -/
theorem reads_failureRecord {r : FailureRecord} (hr : r.Encodable) :
    Reads decodeFailureRecord (encodeFailureRecord r) r := by
  have hclass : WireEnum.code r.failureClass < 23 := by
    rw [UInt32.lt_iff_toNat_lt]
    exact WireEnum.code_lt r.failureClass
  have horigin : WireEnum.code r.origin < 11 := by
    rw [UInt32.lt_iff_toNat_lt]
    exact WireEnum.code_lt r.origin
  have hndeps : (UInt32.ofNat r.dependencies.length).toNat = r.dependencies.length :=
    UInt32.toNat_ofNat_of_lt' (by have := hr.dependencies_le; rw [UInt32.size]; omega)
  have hdeps : UInt32.ofNat r.dependencies.length ≤ 4096 := by
    rw [UInt32.le_iff_toNat_le, hndeps]
    exact hr.dependencies_le
  unfold encodeFailureRecord decodeFailureRecord
  simp only [List.append_assoc]
  open BinaryReader Reads in
  -- the nine identities and the two codes that are checked together
  refine reads_checkOk.nil_bind ?_
  iterate 9 refine (reads_id _).bind ?_
  refine (reads_enumv _).bind ((reads_enumv _).bind ?_)
  refine reads_checkOk.nil_bind ((check ⟨hclass, horigin⟩).nil_bind ?_)
  -- the texts and what happened
  refine (reads_u32 _).bind ((reads_str16 hr.summary_le).bind ((reads_str16 hr.reason_le).bind ?_))
  refine (reads_enumBelow rfl _).bind ((reads_u64 _).bind ?_)
  refine (reads_enumBelow rfl _).bind ((reads_enumBelow rfl _).bind ((reads_u32 _).bind ?_))
  -- the authority
  refine (reads_generation _).bind ((reads_id _).bind ((reads_id _).bind ((reads_id _).bind ?_)))
  iterate 4 refine (reads_generation _).bind ?_
  -- the six dimensions, the cause and the dependencies
  iterate 6 refine (reads_enumBelow rfl _).bind ?_
  refine (reads_id _).bind ((reads_u32 _).bind (reads_checkOk.nil_bind ((check hdeps).nil_bind ?_)))
  rw [hndeps]
  refine (Reads.many (fun d _ => reads_id d)).bind_nil (reads_checkOk.nil_bind ?_)
  refine (check hr.authority_valid).nil_bind ?_
  rw [WireEnum.ofCode_code, WireEnum.ofCode_code]
  exact Reads.pure r

end FailureFabric
