import FailureFabric.Authority
import FailureFabric.Library.Machine
import FailureFabric.Library.UnorderedMap

namespace FailureFabric

open Library

/-!
# The idempotency store

One entry per (operation, key) pair: the payload hash of the first submission, the state of the
execution, the result metadata and the authority of the first submission.

* `IdempotencyStore.begin`, `complete`, `fail`, `markConflict`, `priorResult` — the calls;
* `IdempotencyCall`, `idempotency` — the calls as the inputs of one machine;
* `find_step` — what one call does to the entry of its pair, as a function of that entry
  (`IdempotencyCall.onEntry`), and that it changes no other entry.
-/

/-- `IdempotencyKey`. -/
structure IdempotencyKey where
  raw : Uuid128 := Uuid128.zero
deriving DecidableEq, Inhabited

/-- `IdempotencyVerdict`. -/
inductive IdempotencyVerdict
  | NEW | IN_PROGRESS_REPLAY | COMPLETED_REPLAY | CONFLICT | STALE
deriving DecidableEq, Repr

/-- `PairKey`. -/
structure PairKey where
  op : OperationId
  key : IdempotencyKey
deriving DecidableEq

/-- `IdempotencyStore::Entry`. -/
structure IdempotencyEntry where
  payloadHash : UInt64 := 0
  state : IdempotencyState := .IN_PROGRESS
  resultMetadata : Text := []
  authority : AuthorityEnvelope := {}
deriving DecidableEq

/-- `IdempotencyStore`. -/
structure IdempotencyStore where
  entries : UnorderedMap PairKey IdempotencyEntry := ∅

namespace IdempotencyStore

/-- The entry of a pair. -/
def find (s : IdempotencyStore) (op : OperationId) (key : IdempotencyKey) :
    Option IdempotencyEntry :=
  s.entries.lookup ⟨op, key⟩

/-- `entries_[PairKey{op, key}] = e`. -/
def set (s : IdempotencyStore) (op : OperationId) (key : IdempotencyKey)
    (e : IdempotencyEntry) : IdempotencyStore :=
  ⟨s.entries.insert ⟨op, key⟩ e⟩

/-- `IdempotencyStore::begin`. -/
def begin (s : IdempotencyStore) (op : OperationId) (key : IdempotencyKey) (hash : UInt64)
    (auth : AuthorityEnvelope) : IdempotencyStore × IdempotencyVerdict :=
  match s.find op key with
  | none =>
    (s.set op key { payloadHash := hash, state := .IN_PROGRESS, authority := auth }, .NEW)
  | some e =>
    if e.payloadHash != hash then (s, .CONFLICT)
    else if e.state = .CONFLICT then (s, .CONFLICT)
    else if e.state = .COMPLETED then (s, .COMPLETED_REPLAY)
    -- a failed entry may be retried; it stays in the state FAILED
    else if e.state = .FAILED then (s, .NEW)
    else (s, .IN_PROGRESS_REPLAY)

/-- `IdempotencyStore::complete`; `operator[]` creates a missing entry. -/
def complete (s : IdempotencyStore) (op : OperationId) (key : IdempotencyKey)
    (metadata : Text) : IdempotencyStore :=
  let e := (s.find op key).getD {}
  s.set op key { e with state := .COMPLETED, resultMetadata := metadata }

/-- `IdempotencyStore::fail`. -/
def fail (s : IdempotencyStore) (op : OperationId) (key : IdempotencyKey) : IdempotencyStore :=
  match s.find op key with
  | none => s
  | some e => s.set op key { e with state := .FAILED }

/-- `IdempotencyStore::mark_conflict`; `operator[]` creates a missing entry. -/
def markConflict (s : IdempotencyStore) (op : OperationId) (key : IdempotencyKey) :
    IdempotencyStore :=
  let e := (s.find op key).getD {}
  s.set op key { e with state := .CONFLICT }

/-- `IdempotencyStore::prior_result`: the metadata when it returns true. -/
def priorResult (s : IdempotencyStore) (op : OperationId) (key : IdempotencyKey) :
    Option Text :=
  match s.find op key with
  | some e => if e.state = .COMPLETED then some e.resultMetadata else none
  | none => none

/-- `IdempotencyStore::restore`. -/
def restore (s : IdempotencyStore) (op : OperationId) (key : IdempotencyKey) (hash : UInt64)
    (st : IdempotencyState) (metadata : Text) : IdempotencyStore :=
  s.set op key { payloadHash := hash, state := st, resultMetadata := metadata }

@[simp] theorem find_set (s : IdempotencyStore) (op op' : OperationId)
    (key key' : IdempotencyKey) (e : IdempotencyEntry) :
    (s.set op key e).find op' key' =
      if op' = op ∧ key' = key then some e else s.find op' key' := by
  simp only [find, set, UnorderedMap.lookup_insert', PairKey.mk.injEq]

end IdempotencyStore

/-! ### The calls as one machine -/

/-- The mutating calls. -/
inductive IdempotencyCall
  | begin (op : OperationId) (key : IdempotencyKey) (hash : UInt64) (auth : AuthorityEnvelope)
  | complete (op : OperationId) (key : IdempotencyKey) (metadata : Text)
  | fail (op : OperationId) (key : IdempotencyKey)
  | markConflict (op : OperationId) (key : IdempotencyKey)
deriving DecidableEq

namespace IdempotencyCall

/-- The pair the call is about. -/
def pair : IdempotencyCall → PairKey
  | begin op key _ _ | complete op key _ | fail op key | markConflict op key => ⟨op, key⟩

/-- The call reports the outcome of an execution: it is `complete`, `fail` or `mark_conflict`. -/
def reports : IdempotencyCall → Bool
  | begin .. => false
  | complete .. | fail .. | markConflict .. => true

end IdempotencyCall

/-- The store as a machine: `begin` gives its verdict, the other calls give nothing. -/
def idempotency : Machine IdempotencyStore IdempotencyCall (Option IdempotencyVerdict) where
  step s
    | .begin op key hash auth => let (s', v) := s.begin op key hash auth; (s', some v)
    | .complete op key metadata => (s.complete op key metadata, none)
    | .fail op key => (s.fail op key, none)
    | .markConflict op key => (s.markConflict op key, none)

/-- What a call does to the entry of its own pair. -/
def IdempotencyCall.onEntry : IdempotencyCall → Option IdempotencyEntry → Option IdempotencyEntry
  | begin _ _ hash auth, none =>
    some { payloadHash := hash, state := .IN_PROGRESS, authority := auth }
  | begin .., some e => some e
  | complete _ _ metadata, e =>
    some { e.getD {} with state := .COMPLETED, resultMetadata := metadata }
  | fail .., e => e.map fun e => { e with state := .FAILED }
  | markConflict .., e => some { e.getD {} with state := .CONFLICT }

/-- **Step lemma.** A call changes the entry of its own pair by `onEntry`, and no other entry. -/
theorem find_step (s : IdempotencyStore) (c : IdempotencyCall) (op : OperationId)
    (key : IdempotencyKey) :
    (idempotency.step s c).1.find op key =
      if c.pair = ⟨op, key⟩ then c.onEntry (s.find op key) else s.find op key := by
  cases c with
  | begin op' key' hash auth =>
    simp only [idempotency, IdempotencyStore.begin, IdempotencyCall.pair, PairKey.mk.injEq]
    by_cases hp : op' = op ∧ key' = key
    · obtain ⟨rfl, rfl⟩ := hp
      cases he : s.find op' key' with
      | none => simp [IdempotencyCall.onEntry]
      | some e => simp only [IdempotencyCall.onEntry]; split_ifs <;> simp_all
    · rw [if_neg hp]
      cases he : s.find op' key' with
      | none => simp; tauto
      | some e => dsimp only; split_ifs <;> rfl
  | complete op' key' metadata =>
    simp only [idempotency, IdempotencyStore.complete, IdempotencyCall.pair, PairKey.mk.injEq,
      IdempotencyStore.find_set, IdempotencyCall.onEntry]
    by_cases hp : op' = op ∧ key' = key
    · obtain ⟨rfl, rfl⟩ := hp; simp
    · rw [if_neg hp, if_neg (fun h => hp ⟨h.1.symm, h.2.symm⟩)]
  | fail op' key' =>
    simp only [idempotency, IdempotencyStore.fail, IdempotencyCall.pair, PairKey.mk.injEq]
    by_cases hp : op' = op ∧ key' = key
    · obtain ⟨rfl, rfl⟩ := hp
      cases he : s.find op' key' <;> simp [IdempotencyCall.onEntry, he]
    · rw [if_neg hp]
      cases he : s.find op' key' with
      | none => rfl
      | some e => simp; tauto
  | markConflict op' key' =>
    simp only [idempotency, IdempotencyStore.markConflict, IdempotencyCall.pair,
      PairKey.mk.injEq, IdempotencyStore.find_set, IdempotencyCall.onEntry]
    by_cases hp : op' = op ∧ key' = key
    · obtain ⟨rfl, rfl⟩ := hp; simp
    · rw [if_neg hp, if_neg (fun h => hp ⟨h.1.symm, h.2.symm⟩)]

/-- What a call does to the entry of its own pair. -/
theorem find_step_self (s : IdempotencyStore) {c : IdempotencyCall} {op : OperationId}
    {key : IdempotencyKey} (h : c.pair = ⟨op, key⟩) :
    (idempotency.step s c).1.find op key = c.onEntry (s.find op key) := by
  rw [find_step, if_pos h]

/-- A call leaves the entries of the other pairs alone. -/
theorem find_step_of_ne (s : IdempotencyStore) {c : IdempotencyCall} {op : OperationId}
    {key : IdempotencyKey} (h : c.pair ≠ ⟨op, key⟩) :
    (idempotency.step s c).1.find op key = s.find op key := by
  rw [find_step, if_neg h]

end FailureFabric
