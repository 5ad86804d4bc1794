import FailureFabric.Registry
import FailureFabric.Persistence
import FailureFabric.Recovery

namespace FailureFabric

open Library

/-!
# The failure store

The failure log, the operation registry, the idempotency store and the recovery ownership, with
one snapshot file for all of them.

* `FailureStore.appendFailure` — the only way into the failure log;
* `FailureStore.save` — the snapshot, for given iteration orders of the three maps;
* `FailureStore.load` — a loop over the frames that fills a `LoadState`, a validation, and a
  commit.  The ownership frame is the exception: it is adopted by the store while the frames are
  still being read.
-/

/-- `FailureStore`. -/
structure FailureStore where
  failures : UnorderedMap FailureId FailureRecord := ∅
  ops : OperationRegistry := {}
  idem : IdempotencyStore := {}
  ownership : RecoveryOwnership := {}

/-- `FailureStore::append_failure`: the store after the call and the result. -/
def FailureStore.appendFailure (s : FailureStore) (rec : FailureRecord) : FailureStore × Bool :=
  if rec.failureId.isNull then (s, false)
  else if (s.failures.lookup rec.failureId).isSome then (s, false)
  else if rec.operation.isNull || rec.attempt.isNull then (s, false)
  else if !validateAuthority rec.authority then (s, false)
  else ({ s with failures := s.failures.insert rec.failureId rec }, true)

/-- The other components are not touched. -/
theorem FailureStore.appendFailure_eq (s : FailureStore) (rec : FailureRecord) :
    (s.appendFailure rec).1 = { s with failures := (s.appendFailure rec).1.failures } := by
  unfold appendFailure
  split_ifs <;> rfl

/-! ### Payloads -/

def K_FAIL : UInt8 := 1

def K_OP : UInt8 := 2

def K_ID : UInt8 := 3

def K_OWN : UInt8 := 4

/-- `enc_auth`. -/
def encAuth (e : AuthorityEnvelope) : List UInt8 :=
  open BinaryWriter in
  generation e.coordinatorEpoch ++ uuid e.workerBoot.raw ++ uuid e.attempt.raw ++
  uuid e.dispatch.raw ++ generation e.attemptGeneration ++ generation e.operationGeneration ++
  generation e.failureGeneration ++ generation e.recoveryGeneration

/-- `dec_auth`. -/
def decAuth : Decoder BinaryReader AuthorityEnvelope := open BinaryReader in do
  let coordinatorEpoch ← generation
  let workerBoot ← id .WorkerBootId
  let attempt ← id .AttemptId
  let dispatch ← id .DispatchId
  let attemptGeneration ← generation
  let operationGeneration ← generation
  let failureGeneration ← generation
  let recoveryGeneration ← generation
  checkOk
  let e : AuthorityEnvelope :=
    { coordinatorEpoch, workerBoot, attempt, attemptGeneration, dispatch, operationGeneration,
      failureGeneration, recoveryGeneration }
  guard (validateAuthority e = true)
  return e

/-- `IdempotencyStore::EntryView`. -/
structure EntryView where
  op : OperationId
  key : IdempotencyKey
  payloadHash : UInt64
  state : IdempotencyState
  resultMetadata : Text
deriving DecidableEq

/-- The header payload: magic, version and the three counts. -/
def encodeHeader (nfail nop nid : Nat) : List UInt8 :=
  open BinaryWriter in
  u32 kFFMagic ++ u16 kFFVersion ++ u32 (UInt32.ofNat nfail) ++ u32 (UInt32.ofNat nop) ++
  u32 (UInt32.ofNat nid)

/-- The three counts of a header payload. -/
def decodeHeader : Decoder BinaryReader (UInt32 × UInt32 × UInt32) := open BinaryReader in do
  let magic ← u32
  guard (magic = kFFMagic)
  let ver ← u16
  guard (ver = kFFVersion)
  let nfail ← u32
  let nop ← u32
  let nid ← u32
  checkOk
  return (nfail, nop, nid)

/-- The payload of an operation. -/
def encodeOperation (op : OperationId) (rt : OperationRuntime) : List UInt8 :=
  open BinaryWriter in
  uuid op.raw ++ enumv rt.machine.state.code ++ u32 rt.attemptCount ++
  u8 (if rt.terminalRecorded then 1 else 0) ++ str16 rt.terminalOutcome ++
  u8 (if rt.idempotent then 1 else 0) ++ uuid rt.idemKey.raw ++
  encAuth rt.authority ++ encAuth rt.terminal

/-- The operation of a payload. -/
def decodeOperation : Decoder BinaryReader (OperationId × OperationRuntime) :=
  open BinaryReader in do
  checkOk
  let op ← id .OperationId
  let state ← enumv
  let attemptCount ← u32
  let terminalRecorded ← u8
  let terminalOutcome ← str16
  let idempotent ← u8
  let idemKey ← uuid
  let authority ← decAuth
  let terminal ← decAuth
  checkOk
  return (op,
    { machine := ⟨OperationState.ofCode state⟩, authority, terminal,
      terminalRecorded := terminalRecorded != 0, attemptCount, terminalOutcome,
      idempotent := idempotent != 0, idemKey := ⟨idemKey⟩ })

/-- The payload of an idempotency entry. -/
def encodeEntry (ev : EntryView) : List UInt8 :=
  open BinaryWriter in
  uuid ev.op.raw ++ uuid ev.key.raw ++ u64 ev.payloadHash ++ enumv ev.state.code ++
  str16 ev.resultMetadata

/-- The idempotency entry of a payload. -/
def decodeEntry : Decoder BinaryReader EntryView := open BinaryReader in do
  let op ← id .OperationId
  let key ← uuid
  let payloadHash ← u64
  let state ← enumv
  let resultMetadata ← str16
  checkOk
  return { op, key := ⟨key⟩, payloadHash, state := IdempotencyState.ofCode state,
           resultMetadata }

/-- The payload of the ownership. -/
def encodeOwnership (own : RecoveryOwnership) : List UInt8 :=
  open BinaryWriter in
  enumv (WireEnum.code own.owner) ++ generation own.generation ++ uuid own.boot.raw

/-- The ownership of a payload. -/
def decodeOwnership : Decoder BinaryReader RecoveryOwnership := open BinaryReader in do
  let owner ← enumBelow RecoveryOwner 9
  let generation ← generation
  let boot ← id .WorkerBootId
  checkOk
  return { owner, generation, boot }

/-! ### Save -/

/-- One write of `save`: the header with the three counts, a record, an operation, which is looked
    up when its turn comes, an idempotency entry, or the ownership. -/
inductive SaveItem
  | header (nfail nop nid : Nat)
  | failure (rec : FailureRecord)
  | operation (op : OperationId)
  | idempotency (ev : EntryView)
  | ownership (own : RecoveryOwnership)

namespace FailureStore

/-- The orders in which `save` iterates the three maps. -/
structure Orders (s : FailureStore) where
  failures : List (Entry FailureId FailureRecord)
  ops : List (Entry OperationId OperationRuntime)
  idem : List (Entry PairKey IdempotencyEntry)
  failures_iterates : UnorderedMap.Iterates failures s.failures
  ops_iterates : UnorderedMap.Iterates ops s.ops.ops
  idem_iterates : UnorderedMap.Iterates idem s.idem.entries

/-- The view of an entry that `collect` gives. -/
def viewOf (e : Entry PairKey IdempotencyEntry) : EntryView :=
  ⟨e.1.op, e.1.key, e.2.payloadHash, e.2.state, e.2.resultMetadata⟩

variable (s : FailureStore)

/-- The writes of `save`, in order. -/
def savePlan (o : s.Orders) : List SaveItem :=
  [.header s.failures.size s.ops.ops.size s.idem.entries.size] ++
  o.failures.map (fun e => .failure e.2) ++
  (o.ops.map Sigma.fst).map .operation ++
  (o.idem.map viewOf).map .idempotency ++
  [.ownership s.ownership]

/-- The bytes of one write: a frame, or nothing for an operation that is not there.  The runtime of
    the operation is read as a whole: no registry call comes between its fields. -/
def write : SaveItem → List UInt8
  | .header nfail nop nid => encodeFrame 0 (encodeHeader nfail nop nid)
  | .failure rec => encodeFrame K_FAIL (encodeFailureRecord rec)
  | .operation op =>
    match s.ops.find op with
    | none => []
    | some rt => encodeFrame K_OP (encodeOperation op rt)
  | .idempotency ev => encodeFrame K_ID (encodeEntry ev)
  | .ownership own => encodeFrame K_OWN (encodeOwnership own)

/-- `FailureStore::save`: the bytes of the file. -/
def save (o : s.Orders) : List UInt8 := (s.savePlan o).flatMap s.write

end FailureStore

/-! ### Load -/

/-- The local variables of `load`, and the ownership of the store, which the loop writes. -/
structure LoadState where
  first : Bool := true
  nfail : UInt32 := 0
  nop : UInt32 := 0
  nid : UInt32 := 0
  frs : List FailureRecord := []
  /-- `opids` and `orts`, which grow together. -/
  ops : List (OperationId × OperationRuntime) := []
  idents : List EntryView := []
  ownership : RecoveryOwnership

/-- The body of the frame loop: a frame is rejected, or changes the variables. -/
def loadFrame (st : LoadState) (h : FrameHeader) : Option LoadState :=
  let r : BinaryReader := { data := h.payload }
  if st.first then do
    let ((nfail, nop, nid), _) ← decodeHeader r
    some { st with nfail, nop, nid, first := false }
  else if h.kind = K_FAIL then do
    let (rec, _) ← decodeFailureRecord r
    some { st with frs := st.frs ++ [rec] }
  else if h.kind = K_OP then do
    let (p, _) ← decodeOperation r
    some { st with ops := st.ops ++ [p] }
  else if h.kind = K_ID then do
    let (ev, _) ← decodeEntry r
    some { st with idents := st.idents ++ [ev] }
  else if h.kind = K_OWN then do
    let (own, _) ← decodeOwnership r
    -- the store adopts the ownership now, before the file is known to be acceptable
    some { st with ownership := (st.ownership.adopt own.owner own.generation own.boot {}).1 }
  else none

/-- The frame loop from an offset: the variables at its end, and whether it ran to the end of
    the data.  Each frame takes some bytes, so the length of the data is enough fuel. -/
def loadLoop (data : List UInt8) : Nat → Nat → LoadState → LoadState × Bool
  | 0, off, st => (st, data.length ≤ off)
  | fuel + 1, off, st =>
    if off < data.length then
      match decodeFrame data off with
      | none => (st, false)
      | some (h, next) =>
        match loadFrame st h with
        | none => (st, false)
        | some st' => loadLoop data fuel next st'
    else (st, true)

/-- The strict validation after the loop: the counts, and no repeated identity. -/
def LoadState.valid (st : LoadState) : Bool :=
  st.frs.length = st.nfail.toNat && st.ops.length = st.nop.toNat &&
    st.idents.length = st.nid.toNat &&
    decide (st.frs.map FailureRecord.failureId).Nodup && decide (st.ops.map Prod.fst).Nodup

/-- The commit: every component is rewritten, the ownership with an unassigned one. -/
def LoadState.commit (st : LoadState) : FailureStore where
  failures := UnorderedMap.insertAll ∅ (st.frs.map (fun rec => ⟨rec.failureId, rec⟩))
  ops := st.ops.foldl (fun reg p => (reg.restore p.1 p.2).1) {}
  idem := st.idents.foldl (fun i ev =>
    i.restore ev.op ev.key ev.payloadHash ev.state ev.resultMetadata) {}
  ownership := {}

/-- `FailureStore::load`: the store after the call and the result.  `none` is a file that cannot
    be opened. -/
def FailureStore.load (s : FailureStore) (file : Option (List UInt8)) : FailureStore × Bool :=
  match file with
  | none => (s, false)
  | some data =>
    if data = [] then (s, false)
    else
      let (st, parsed) := loadLoop data data.length 0 { ownership := s.ownership }
      if parsed && st.valid then (st.commit, true)
      else ({ s with ownership := st.ownership }, false)

end FailureFabric
