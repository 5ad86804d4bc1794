import FailureFabric.Protocol
import FailureFabric.Persistence
import FailureFabric.Library.Channel

namespace FailureFabric

open Library

/-!
# Messages on a socket

A message is encoded field by field and sent in a checksummed frame.  A socket is a channel: each
`send` and each `recv` moves as many bytes as it likes, and at least one while there is one.

* `encodeWire`, `decodeWire` — the fields; `reads_wire`;
* `sendFrame`, `recvFrame` — one frame; `sendFrame_spec`, `reads_recvFrame`;
* `stops_recvFrame` — a frame that is cut anywhere is not received;
* `stream_roundTrip` — what any messages leave on the wire is received message by message, and a
  stream that is cut gives the messages whose frames are whole.
-/

/-! ### The fields -/

/-- `encode_wire`. -/
def encodeWire (m : WireMessage) : List UInt8 :=
  open BinaryWriter in
  enumv (WireEnum.code m.type) ++
  uuid m.op.raw ++ uuid m.attempt.raw ++ uuid m.worker.raw ++ uuid m.boot.raw ++
  generation m.authority.coordinatorEpoch ++ uuid m.authority.workerBoot.raw ++
  uuid m.authority.attempt.raw ++ uuid m.authority.dispatch.raw ++
  generation m.authority.attemptGeneration ++ generation m.authority.operationGeneration ++
  generation m.authority.failureGeneration ++ generation m.authority.recoveryGeneration ++
  u8 (if m.flag then 1 else 0) ++ str16 m.text ++ u64 m.seq

/-- `decode_wire`. -/
def decodeWire : Decoder BinaryReader WireMessage := open BinaryReader in do
  let type ← enumBelow ProtocolMessage 16
  let op ← id .OperationId
  let attempt ← id .AttemptId
  let worker ← id .WorkerId
  let boot ← id .WorkerBootId
  let coordinatorEpoch ← generation
  let workerBoot ← id .WorkerBootId
  let authAttempt ← id .AttemptId
  let authDispatch ← id .DispatchId
  let attemptGeneration ← generation
  let operationGeneration ← generation
  let failureGeneration ← generation
  let recoveryGeneration ← generation
  let flag ← u8
  let text ← str16
  let seq ← u64
  checkOk
  let authority : AuthorityEnvelope :=
    { coordinatorEpoch, workerBoot, attempt := authAttempt, attemptGeneration,
      dispatch := authDispatch, operationGeneration, failureGeneration, recoveryGeneration }
  return { type, op, attempt, worker, boot, authority, flag := flag ≠ 0, text, seq }

/-- **Message round trip.** The decoder reads a message with a text that fits back. -/
theorem reads_wire {m : WireMessage} (htext : m.text.length ≤ 0xFFFF) :
    Reads decodeWire (encodeWire m) m := by
  have hflag : decide ((if m.flag then 1 else 0 : UInt8) ≠ 0) = m.flag := by
    cases m.flag <;> decide
  unfold encodeWire decodeWire
  simp only [List.append_assoc]
  open BinaryReader in
  -- the kind and the four identities
  refine (reads_enumBelow rfl _).bind ?_
  iterate 4 refine (reads_id _).bind ?_
  -- the authority
  refine (reads_generation _).bind ((reads_id _).bind ((reads_id _).bind ((reads_id _).bind ?_)))
  iterate 4 refine (reads_generation _).bind ?_
  -- the flag, the text and the sequence number
  refine (reads_u8 _).bind ((reads_str16 htext).bind ((reads_u64 _).bind_nil ?_))
  refine reads_checkOk.nil_bind ?_
  rw [hflag]
  exact Reads.pure m

/-- A message fits a frame that the receiver takes. -/
theorem length_encodeWire_le (m : WireMessage) : (encodeWire m).length ≤ 32 * 1024 * 1024 := by
  have htext := BinaryWriter.length_str16_le m.text
  unfold encodeWire
  simp only [List.length_append, BinaryWriter.length_uuid, BinaryWriter.length_enumv,
    BinaryWriter.length_u8, BinaryWriter.length_u64, BinaryWriter.length_generation]
  omega

/-! ### Frames on a socket -/

/-- `INT_MAX`, the most that one call is asked for. -/
def INT_MAX : Nat := 2147483647

/-- `send_all`. -/
def sendAll (bs : List UInt8) (s : Outlet UInt8) : Option (Outlet UInt8) :=
  s.writeAll INT_MAX bs

/-- `recv_all`. -/
def recvAll (n : Nat) : Decoder (Inlet UInt8) (List UInt8) := Inlet.readAll INT_MAX n

/-- The frame that `send_frame` sends for a message. -/
def wireFrame (m : WireMessage) : List UInt8 :=
  encodeFrame (WireEnum.code m.type).toUInt8 (encodeWire m)

/-- `send_frame` on a valid socket. -/
def sendFrame (m : WireMessage) (s : Outlet UInt8) : Option (Outlet UInt8) :=
  sendAll (wireFrame m) s

/-- One `send_frame` after the other, as long as they succeed. -/
def sendFrames : List WireMessage → Outlet UInt8 → Option (Outlet UInt8)
  | [], s => some s
  | m :: ms, s => (sendFrame m s).bind (sendFrames ms)

/-- The fields that `recv_frame` checks before it reads on, and the length that it answers. -/
def recvHeader : Decoder BinaryReader UInt32 := open BinaryReader in do
  let magic ← u32
  guard (magic = kFFMagic)
  let ver ← u16
  guard (ver = kFFVersion)
  let _ ← u8
  let len ← u32
  checkOk
  return len

/-- `recv_frame` on a valid socket. -/
def recvFrame : Decoder (Inlet UInt8) WireMessage := do
  let hdr ← recvAll 11
  let hr ← StateT.lift (recvHeader { data := hdr })
  guard (hr.1 ≤ 32 * 1024 * 1024)
  let body ← recvAll (hr.1 + 8).toNat
  let fh ← StateT.lift (decodeFrame (hdr ++ body) 0)
  let m ← StateT.lift (decodeWire { data := fh.1.payload })
  return m.1

/-! ### Sending -/

theorem sendFrames_spec (msgs : List WireMessage) (s : Outlet UInt8) :
    ∃ s', sendFrames msgs s = some s' ∧ s'.sent = s.sent ++ msgs.flatMap wireFrame := by
  induction msgs generalizing s with
  | nil => exact ⟨s, rfl, (List.append_nil _).symm⟩
  | cons m ms ih =>
    obtain ⟨s₁, h₁, hsent₁⟩ := Outlet.writeAll_spec (by decide : 0 < INT_MAX) (wireFrame m) s
    obtain ⟨s₂, h₂, hsent₂⟩ := ih s₁
    refine ⟨s₂, ?_, ?_⟩
    · show (sendFrame m s).bind (sendFrames ms) = some s₂
      rw [show sendFrame m s = some s₁ from h₁]
      exact h₂
    · rw [hsent₂, hsent₁, List.append_assoc, List.flatMap_cons]

/-! ### Receiving -/

section Receiving

variable (m : WireMessage)

/-- The eleven bytes of a message's frame before its payload. -/
def wireHeader : List UInt8 :=
  BinaryWriter.u32 kFFMagic ++ (BinaryWriter.u16 kFFVersion ++
    (BinaryWriter.u8 (WireEnum.code m.type).toUInt8 ++
      BinaryWriter.u32 (UInt32.ofNat (encodeWire m).length)))

/-- The payload and the checksum. -/
def wireBody : List UInt8 :=
  encodeWire m ++ BinaryWriter.u64
    (fnv1a64 (frameBody (WireEnum.code m.type).toUInt8 (encodeWire m)))

@[simp] theorem length_wireHeader : (wireHeader m).length = 11 := by
  simp [wireHeader]

@[simp] theorem length_wireBody : (wireBody m).length = (encodeWire m).length + 8 := by
  simp [wireBody]

theorem wireFrame_eq : wireFrame m = wireHeader m ++ wireBody m := by
  simp [wireFrame, encodeFrame, frameBody, wireHeader, wireBody]

/-- The length field of a message's frame does not wrap. -/
theorem toNat_wireLength :
    (UInt32.ofNat (encodeWire m).length).toNat = (encodeWire m).length := by
  have hle := length_encodeWire_le m
  exact UInt32.toNat_ofNat_of_lt' (by rw [UInt32.size]; omega)

theorem wireLength_le : UInt32.ofNat (encodeWire m).length ≤ 32 * 1024 * 1024 := by
  rw [UInt32.le_iff_toNat_le, toNat_wireLength]
  exact length_encodeWire_le m

/-- Nor does the count of bytes that `recv_frame` waits for. -/
theorem toNat_wireLength_add :
    (UInt32.ofNat (encodeWire m).length + 8).toNat = (wireBody m).length := by
  have hle := length_encodeWire_le m
  rw [UInt32.toNat_add, toNat_wireLength, length_wireBody, show (8 : UInt32).toNat = 8 from rfl]
  omega

theorem reads_recvHeader :
    Reads recvHeader (wireHeader m) (UInt32.ofNat (encodeWire m).length) := by
  refine (BinaryReader.reads_u32 _).bind ((Reads.check rfl).nil_bind ?_)
  refine (BinaryReader.reads_u16 _).bind ((Reads.check rfl).nil_bind ?_)
  refine (BinaryReader.reads_u8 _).bind ((BinaryReader.reads_u32 _).bind_nil ?_)
  exact BinaryReader.reads_checkOk.nil_bind (Reads.pure _)

/-- What a decoder reads, it answers from a buffer that holds nothing else. -/
private theorem exists_of_reads {α : Type} {d : Decoder BinaryReader α} {bs : List UInt8} {a : α}
    (hd : Reads d bs a) : ∃ r, d { data := bs } = some (a, r) := by
  obtain ⟨r, hr, -, -⟩ := hd { data := bs } [] ⟨rfl, Nat.zero_le _⟩ (List.append_nil bs).symm
  exact ⟨r, hr⟩

theorem reads_recvAll {n : Nat} {bs : List UInt8} (hn : n = bs.length) :
    Reads (recvAll n) bs bs :=
  hn ▸ Inlet.reads_readAll (by decide) bs

/-- **Frame round trip.** What `send_frame` sends for a message, `recv_frame` receives, and it
    leaves what comes behind. -/
theorem reads_recvFrame {m : WireMessage} (htext : m.text.length ≤ 0xFFFF) :
    Reads recvFrame (wireFrame m) m := by
  obtain ⟨hr, hheader⟩ := exists_of_reads (reads_recvHeader m)
  obtain ⟨r, hwire⟩ := exists_of_reads (reads_wire htext)
  have hfits : (encodeWire m).length + 11 < 2 ^ 32 := by
    have hle := length_encodeWire_le m
    omega
  have hframe := decodeFrame_encodeFrame (WireEnum.code m.type).toUInt8 hfits [] []
  rw [List.nil_append, List.append_nil, ← wireFrame, wireFrame_eq] at hframe
  rw [wireFrame_eq, recvFrame]
  refine (reads_recvAll (length_wireHeader m).symm).bind ?_
  refine (Reads.lift hheader).nil_bind ((Reads.check (wireLength_le m)).nil_bind ?_)
  refine (reads_recvAll (toNat_wireLength_add m)).bind_nil ?_
  exact (Reads.lift hframe).nil_bind ((Reads.lift hwire).nil_bind (Reads.pure m))

/-- On fewer bytes than it waits for, `recv_all` fails. -/
theorem stops_recvAll {n : Nat} {bs : List UInt8} (hlt : bs.length < n) :
    Stops (recvAll n) bs := by
  intro s _ hunread
  refine Inlet.readAll_of_lt (by decide) ?_
  rw [show s.pending = bs from hunread]
  exact hlt

/-- **A cut frame is not received**, wherever the cut is. -/
theorem stops_recvFrame (m : WireMessage) {k : Nat} (hk : k < (wireFrame m).length) :
    Stops recvFrame ((wireFrame m).take k) := by
  rw [wireFrame_eq, List.length_append] at hk
  rw [wireFrame_eq, List.take_append, length_wireHeader]
  by_cases hhead : k < 11
  · -- the header is not there
    refine Stops.bind (stops_recvAll ?_)
    rw [List.length_append, List.length_take, List.length_take]
    omega
  · -- the header is whole, and the rest is shorter than its length field says
    obtain ⟨hr, hheader⟩ := exists_of_reads (reads_recvHeader m)
    have hrest : ((wireBody m).take (k - 11)).length < (wireBody m).length := by
      rw [List.length_take]
      rw [length_wireHeader] at hk
      omega
    rw [List.take_of_length_le (by rw [length_wireHeader]; omega)]
    refine (reads_recvAll (length_wireHeader m).symm).bind_stops ?_
    refine (Reads.lift hheader).nil_bind_stops ?_
    refine (Reads.check (wireLength_le m)).nil_bind_stops ?_
    exact Stops.bind (stops_recvAll (by rw [toNat_wireLength_add]; exact hrest))

end Receiving

/-! ### Streams -/

/-- `recv_frame`, `n` times. -/
def recvFrames (n : Nat) : Decoder (Inlet UInt8) (List WireMessage) := readMany recvFrame n

/-- **The stream is decoded exactly.** Whatever the chunks on both sides are, the messages that
    were sent are received one by one, in order, and nothing is left on the wire; and from a
    stream that is cut at any byte the messages whose frames lie wholly before the cut are
    received, and then `recv_frame` fails. -/
theorem stream_roundTrip {msgs : List WireMessage} (htext : ∀ m ∈ msgs, m.text.length ≤ 0xFFFF)
    (sendChunks recvChunks : Chunks) :
    ∃ out, sendFrames msgs { chunks := sendChunks } = some out ∧
      (∃ s, recvFrames msgs.length { pending := out.sent, chunks := recvChunks } =
          some (msgs, s) ∧ s.pending = []) ∧
      ∀ cut, ∃ s,
        recvFrames (wholeBefore wireFrame msgs cut).length
            { pending := out.sent.take cut, chunks := recvChunks } =
          some (wholeBefore wireFrame msgs cut, s) ∧
        recvFrame s = none := by
  obtain ⟨out, hout, hsent⟩ := sendFrames_spec msgs { chunks := sendChunks }
  rw [List.nil_append] at hsent
  have hreads : ∀ m ∈ msgs, Reads recvFrame (wireFrame m) m :=
    fun m hm => reads_recvFrame (htext m hm)
  refine ⟨out, hout, ?_, fun cut => ?_⟩
  · have hpending : out.sent = msgs.flatMap wireFrame ++ [] := by rw [hsent, List.append_nil]
    obtain ⟨s, hs, -, hleft⟩ :=
      Reads.many hreads { pending := out.sent, chunks := recvChunks } [] trivial hpending
    exact ⟨s, hs, hleft⟩
  · have hend : Stops recvFrame [] := Stops.bind (stops_recvAll (by decide))
    exact readMany_wholeBefore hreads (fun m _ k hk => stops_recvFrame m hk) hend cut trivial
      (congrArg (List.take cut) hsent)

/-- A heartbeat with a text and a completion with its flag. -/
def twoMessages : List WireMessage := [{ text := [104, 105] }, { type := .COMPLETE, flag := true }]

/-- The two messages, sent byte by byte and received in pieces of seven. -/
theorem stream_roundTrip_twoMessages :
    ∃ out, sendFrames twoMessages { chunks := ⟨fun _ => 1, fun _ => Nat.one_pos⟩ } = some out ∧
      ∃ s, recvFrames 2
          { pending := out.sent, chunks := ⟨fun _ => 7, fun _ => Nat.succ_pos 6⟩ } =
        some (twoMessages, s) ∧ s.pending = [] := by
  have htext : ∀ m ∈ twoMessages, m.text.length ≤ 0xFFFF := by decide
  obtain ⟨out, hsend, hreceive, -⟩ := stream_roundTrip htext
    ⟨fun _ => 1, fun _ => Nat.one_pos⟩ ⟨fun _ => 7, fun _ => Nat.succ_pos 6⟩
  exact ⟨out, hsend, hreceive⟩

end FailureFabric
