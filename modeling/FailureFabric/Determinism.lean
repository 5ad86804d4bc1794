import FailureFabric.Corruption
import FailureFabric.Truncation
import FailureFabric.Admission

namespace FailureFabric

open Library

/-!
# The order of a snapshot

`save` writes each map in the order in which it happens to be iterated, and the containers promise
no order.  Two stores that hold the same can differ in that.

* `SameContent` — what `save` can see of two stores is the same;
* `SameContent.perm_frames` — their files then hold the same frames, in some order;
* `save_ne_of_swap` — and another order gives other bytes, since a frame starts with its key;
* `save_deterministic_iff` — so the bytes are determined by the content exactly when no map has
  two entries.
-/

/-- The two stores hold the same records, operations, idempotency entries and ownership.  Of an
    idempotency entry a snapshot keeps hash, state and metadata. -/
structure SameContent (s s' : FailureStore) : Prop where
  failures : s.failures = s'.failures
  ops : s.ops = s'.ops
  idem : ∀ op key, (s.idem.find op key).map IdempotencyEntry.saved =
    (s'.idem.find op key).map IdempotencyEntry.saved
  ownership : s.ownership = s'.ownership

/-- No map has two entries, so each has one order only. -/
structure FailureStore.Orderless (s : FailureStore) : Prop where
  failures : s.failures.size ≤ 1
  ops : s.ops.ops.size ≤ 1
  idem : s.idem.entries.size ≤ 1

/-! ### The key of a frame -/

namespace SnapshotEntry

/-- The bytes at the start of the payload that name the entry. -/
def key : SnapshotEntry → List UInt8
  | failure rec => BinaryWriter.uuid rec.failureId.raw
  | operation op _ => BinaryWriter.uuid op.raw
  | idempotency ev => BinaryWriter.uuid ev.op.raw ++ BinaryWriter.uuid ev.key.raw
  | ownership _ => []

/-- Every payload begins with the key of its entry. -/
theorem key_isPrefix_payload (e : SnapshotEntry) : e.key <+: e.payload := by
  cases e with
  | failure rec =>
    show BinaryWriter.uuid rec.failureId.raw <+: encodeFailureRecord rec
    unfold encodeFailureRecord
    simp only [List.append_assoc]
    exact List.prefix_append _ _
  | operation op rt =>
    show BinaryWriter.uuid op.raw <+: encodeOperation op rt
    unfold encodeOperation
    simp only [List.append_assoc]
    exact List.prefix_append _ _
  | idempotency ev =>
    show BinaryWriter.uuid ev.op.raw ++ BinaryWriter.uuid ev.key.raw <+: encodeEntry ev
    unfold encodeEntry
    rw [List.append_assoc, List.append_assoc]
    exact List.prefix_append _ _
  | ownership own => exact List.nil_prefix

/-- Frames of entries of one kind that start the same bytes have one key. -/
theorem key_of_frame {e e' : SnapshotEntry} {t t' : List UInt8}
    (hlen : e.key.length = e'.key.length) (h : e.frame ++ t = e'.frame ++ t') :
    e.key = e'.key := by
  obtain ⟨u, hu⟩ := e.key_isPrefix_payload
  obtain ⟨u', hu'⟩ := e'.key_isPrefix_payload
  simp only [frame, encodeFrame, List.append_assoc] at h
  obtain ⟨-, -, hpayload⟩ := frameBody_inj h
  rw [← hu, ← hu', List.append_assoc, List.append_assoc] at hpayload
  exact (List.append_inj hpayload hlen).1

end SnapshotEntry

/-- Two identities have different bytes. -/
theorem BinaryWriter.uuid_injective : Function.Injective uuid := by
  rintro ⟨bytes, hlen⟩ ⟨bytes', hlen'⟩ h
  obtain rfl : bytes = bytes' := h
  rfl

/-! ### Stores of the same content -/

section Same

variable {s s' : FailureStore}

/-- The view of an entry, from its key and what is saved of it. -/
private def viewOfSaved (e : Entry PairKey (UInt64 × IdempotencyState × Text)) : EntryView :=
  ⟨e.1.op, e.1.key, e.2.1, e.2.2.1, e.2.2.2⟩

/-- The views of a store are those of what it saves. -/
private theorem map_viewOf (l : List (Entry PairKey IdempotencyEntry)) :
    l.map FailureStore.viewOf =
      (l.map (fun e => (⟨e.1, e.2.saved⟩ : Entry PairKey _))).map viewOfSaved := by
  rw [List.map_map]
  rfl

/-- The entries of a snapshot are the views. -/
private theorem map_idempotency (l : List (Entry PairKey IdempotencyEntry)) :
    l.map (fun e => SnapshotEntry.idempotency (FailureStore.viewOf e)) =
      (l.map FailureStore.viewOf).map SnapshotEntry.idempotency := by
  rw [List.map_map]
  rfl

/-- Stores of the same content list the same records, in some order. -/
theorem SameContent.perm_failures (h : SameContent s s') (o : s.Orders) (o' : s'.Orders) :
    o.failures.Perm o'.failures := by
  refine Multiset.coe_eq_coe.mp (o.failures_iterates.trans ?_)
  rw [h.failures]
  exact o'.failures_iterates.symm

/-- And the same operations. -/
theorem SameContent.perm_ops (h : SameContent s s') (o : s.Orders) (o' : s'.Orders) :
    o.ops.Perm o'.ops := by
  refine Multiset.coe_eq_coe.mp (o.ops_iterates.trans ?_)
  rw [h.ops]
  exact o'.ops_iterates.symm

/-- And the same views of their entries. -/
theorem SameContent.perm_views (h : SameContent s s') (o : s.Orders) (o' : s'.Orders) :
    (o.idem.map FailureStore.viewOf).Perm (o'.idem.map FailureStore.viewOf) := by
  rw [map_viewOf, map_viewOf]
  exact (o.idem_iterates.perm_map o'.idem_iterates
    (fun pair => h.idem pair.op pair.key)).map viewOfSaved

/-- The files of two stores of the same content hold the same entries, in some order. -/
theorem SameContent.perm_entries (h : SameContent s s') (o : s.Orders) (o' : s'.Orders) :
    (s.entries o).Perm (s'.entries o') := by
  unfold FailureStore.entries
  rw [map_idempotency, map_idempotency, h.ownership]
  exact ((h.perm_failures o o').map _).append (((h.perm_ops o o').map _).append
    (((h.perm_views o o').map _).append (List.Perm.refl _)))

/-- And their headers are the same. -/
theorem SameContent.size_eq (h : SameContent s s') : s.failures.size = s'.failures.size ∧
    s.ops.ops.size = s'.ops.ops.size ∧ s.idem.entries.size = s'.idem.entries.size := by
  refine ⟨by rw [h.failures], by rw [h.ops], ?_⟩
  obtain ⟨l, hl⟩ := UnorderedMap.exists_iterates s.idem.entries
  obtain ⟨l', hl'⟩ := UnorderedMap.exists_iterates s'.idem.entries
  have hperm := hl.perm_map hl' (fun pair => h.idem pair.op pair.key)
  have hlen := hperm.length_eq
  rwa [List.length_map, List.length_map, hl.length_eq, hl'.length_eq] at hlen

/-- **Same frames.** The files of two stores of the same content hold the same frames, in some
    order. -/
theorem SameContent.perm_frames (h : SameContent s s') (o : s.Orders) (o' : s'.Orders) :
    (s.frames o).Perm (s'.frames o') := by
  obtain ⟨hfailures, hops, hidem⟩ := h.size_eq
  unfold FailureStore.frames
  rw [hfailures, hops, hidem]
  exact ((h.perm_entries o o').map _).cons _

/-- At most one element has one order only. -/
private theorem perm_eq_of_length_le {α : Type} {l l' : List α} (h : l.Perm l')
    (hlen : l.length ≤ 1) : l = l' := by
  match l with
  | [] => exact h.nil_eq
  | [_] => exact h.singleton_eq
  | _ :: _ :: _ =>
    simp only [List.length_cons] at hlen
    omega

/-- When no map has two entries there is one order only. -/
theorem SameContent.save_eq (h : SameContent s s') (hs : s.Orderless) (o : s.Orders)
    (o' : s'.Orders) : s.save o = s'.save o' := by
  have hfailures : o.failures = o'.failures :=
    perm_eq_of_length_le (h.perm_failures o o') (by
      rw [o.failures_iterates.length_eq]; exact hs.failures)
  have hops : o.ops = o'.ops :=
    perm_eq_of_length_le (h.perm_ops o o') (by rw [o.ops_iterates.length_eq]; exact hs.ops)
  have hviews : o.idem.map FailureStore.viewOf = o'.idem.map FailureStore.viewOf :=
    perm_eq_of_length_le (h.perm_views o o') (by
      rw [List.length_map, o.idem_iterates.length_eq]; exact hs.idem)
  have hentries : s.entries o = s'.entries o' := by
    unfold FailureStore.entries
    rw [map_idempotency, map_idempotency, hfailures, hops, hviews, h.ownership]
  obtain ⟨hnfail, hnop, hnid⟩ := h.size_eq
  rw [save_eq_partialFile, save_eq_partialFile, FailureStore.partialFile,
    FailureStore.partialFile, hentries, hnfail, hnop, hnid]

end Same

/-! ### Another order -/

section Swap

variable {s : FailureStore}

/-- A file with two entries the other way round is a different file. -/
theorem save_ne_of_swap {o o' : s.Orders} (pre : List SnapshotEntry)
    {post post' : List SnapshotEntry} {e e' : SnapshotEntry} (ho : s.entries o = pre ++ e :: post)
    (ho' : s.entries o' = pre ++ e' :: post') (hlen : e.key.length = e'.key.length)
    (hne : e.key ≠ e'.key) : s.save o ≠ s.save o' := by
  intro h
  rw [save_eq_partialFile, save_eq_partialFile, FailureStore.partialFile,
    FailureStore.partialFile, snapshot, snapshot, ho, ho'] at h
  simp only [List.flatMap_append, List.flatMap_cons] at h
  exact hne (SnapshotEntry.key_of_frame hlen
    (List.append_cancel_left (List.append_cancel_left h)))

/-- Every record stands under its own id. -/
def FailureStore.Keyed (s : FailureStore) : Prop :=
  ∀ fid rec, s.failures.lookup fid = some rec → rec.failureId = fid

/-- In every store that was built by calls, a record stands under its own identity. -/
theorem keyed_run (calls : List PublicCall) : (publicStore.run {} calls).Keyed := by
  refine Machine.run_induction (P := FailureStore.Keyed) (fun s c hs fid rec hrec => ?_)
    (fun fid rec h => absurd h (by simp)) calls
  rcases lookup_failures_of_step hrec with hold | ⟨hid, -⟩
  · exact hs fid rec hold
  · exact hid

/-- A map with two entries can be iterated in two orders, and the files are different. -/
theorem exists_save_ne (hkeyed : s.Keyed) (hs : ¬ s.Orderless) :
    ∃ o o' : s.Orders, s.save o ≠ s.save o' := by
  obtain ⟨lf, hlf⟩ := UnorderedMap.exists_iterates s.failures
  obtain ⟨lo, hlo⟩ := UnorderedMap.exists_iterates s.ops.ops
  obtain ⟨li, hli⟩ := UnorderedMap.exists_iterates s.idem.entries
  by_cases hfailures : 1 < s.failures.size
  · obtain ⟨e, e', l, hl, hne⟩ := UnorderedMap.exists_two_of_size hfailures
    have hown : ∀ e'' ∈ e :: e' :: l, e''.2.failureId = e''.1 :=
      fun e'' hmem => hkeyed e''.1 e''.2 ((hl.mem_iff e''.1 e''.2).mp hmem)
    refine ⟨⟨_, lo, li, hl, hlo, hli⟩, ⟨_, lo, li, hl.swap, hlo, hli⟩,
      save_ne_of_swap [] rfl rfl (by simp [SnapshotEntry.key]) (fun hkey => hne ?_)⟩
    rw [← hown e (by simp), ← hown e' (by simp)]
    exact congrArg Id.mk (BinaryWriter.uuid_injective hkey)
  by_cases hops : 1 < s.ops.ops.size
  · obtain ⟨e, e', l, hl, hne⟩ := UnorderedMap.exists_two_of_size hops
    exact ⟨⟨lf, _, li, hlf, hl, hli⟩, ⟨lf, _, li, hlf, hl.swap, hli⟩,
      save_ne_of_swap _ rfl rfl (by simp [SnapshotEntry.key])
        (fun hkey => hne (congrArg Id.mk (BinaryWriter.uuid_injective hkey)))⟩
  · have hidem : 1 < s.idem.entries.size := by
      by_contra hidem
      exact hs ⟨by omega, by omega, by omega⟩
    obtain ⟨e, e', l, hl, hne⟩ := UnorderedMap.exists_two_of_size hidem
    have hsplit : ∀ (o : s.Orders) e'' l'', o.idem = e'' :: l'' → s.entries o =
        (o.failures.map (fun e => .failure e.2) ++ o.ops.map (fun e => .operation e.1 e.2)) ++
          .idempotency (FailureStore.viewOf e'') :: (l''.map (fun e =>
            .idempotency (FailureStore.viewOf e)) ++ [.ownership s.ownership]) := by
      intro o e'' l'' ho
      rw [FailureStore.entries, ho, List.append_assoc]
      rfl
    refine ⟨⟨lf, lo, _, hlf, hlo, hl⟩, ⟨lf, lo, _, hlf, hlo, hl.swap⟩,
      save_ne_of_swap _ (hsplit _ e _ rfl) (hsplit _ e' _ rfl) (by simp [SnapshotEntry.key])
        (fun hkey => hne ?_)⟩
    obtain ⟨hop, hkey'⟩ := List.append_inj hkey (by simp)
    exact congrArg₂ PairKey.mk (congrArg Id.mk (BinaryWriter.uuid_injective hop))
      (congrArg IdempotencyKey.mk (BinaryWriter.uuid_injective hkey'))

end Swap

/-! ### Histories -/

/-- An order of iteration of the three maps for every history of the store. -/
abbrev IterationOrder := ∀ calls : List PublicCall, (publicStore.run {} calls).Orders

/-- An order of a store is one of an equal store. -/
private theorem save_cast {s s' : FailureStore} (h : s = s') (o : s.Orders) :
    s'.save (h ▸ o) = s.save o := by
  subst h
  rfl

/-- There is an iteration order. -/
private theorem exists_iterationOrder : Nonempty IterationOrder := by
  refine ⟨fun calls => Classical.choice ?_⟩
  obtain ⟨lf, hlf⟩ := UnorderedMap.exists_iterates (publicStore.run {} calls).failures
  obtain ⟨lo, hlo⟩ := UnorderedMap.exists_iterates (publicStore.run {} calls).ops.ops
  obtain ⟨li, hli⟩ := UnorderedMap.exists_iterates (publicStore.run {} calls).idem.entries
  exact ⟨⟨lf, lo, li, hlf, hlo, hli⟩⟩

/-- Two histories with the same store may leave any two orders. -/
private theorem exists_order_of_orders {calls calls' : List PublicCall} (hne : calls' ≠ calls)
    (hrun : publicStore.run {} calls = publicStore.run {} calls')
    (o o' : (publicStore.run {} calls).Orders) : ∃ order : IterationOrder,
      (publicStore.run {} calls).save (order calls) = (publicStore.run {} calls).save o ∧
      (publicStore.run {} calls').save (order calls') = (publicStore.run {} calls).save o' := by
  classical
  obtain ⟨base⟩ := exists_iterationOrder
  refine ⟨fun history => if h : publicStore.run {} calls = publicStore.run {} history then
    if history = calls then h ▸ o else h ▸ o' else base history, ?_, ?_⟩
  · dsimp only
    rw [dif_pos rfl, if_pos rfl]
  · dsimp only
    rw [dif_pos hrun, if_neg hne, save_cast]

/-- **Determinism.** Whatever order a history leaves the maps in, all stores of the same content
    are saved to the same bytes, exactly when no map of theirs has two entries. -/
theorem save_deterministic_iff (calls : List PublicCall) :
    (∀ (order : IterationOrder) (calls' : List PublicCall),
      SameContent (publicStore.run {} calls) (publicStore.run {} calls') →
        (publicStore.run {} calls).save (order calls) =
          (publicStore.run {} calls').save (order calls')) ↔
      (publicStore.run {} calls).Orderless := by
  refine ⟨fun hsame => ?_, fun horderless order calls' h => h.save_eq horderless _ _⟩
  by_contra hs
  obtain ⟨o, o', hne⟩ := exists_save_ne (keyed_run calls) hs
  -- a load of a file that cannot be opened makes another history with the same store
  have hrun : publicStore.run {} calls = publicStore.run {} (calls ++ [.load none]) := by
    rw [Machine.run_concat]
    rfl
  have hlonger : calls ++ [.load none] ≠ calls := by simp
  obtain ⟨order, horder, horder'⟩ := exists_order_of_orders hlonger hrun o o'
  have hcontent : SameContent (publicStore.run {} calls)
      (publicStore.run {} (calls ++ [.load none])) := by
    rw [← hrun]
    exact ⟨rfl, rfl, fun _ _ => rfl, rfl⟩
  have hsave := hsame order _ hcontent
  rw [horder, horder'] at hsave
  exact hne hsave

/-- Two records are appended, in an order of our choice. -/
def appends (first second : FailureRecord) : List PublicCall :=
  [.component (.appendFailure first), .component (.appendFailure second)]

/-- Another record, with an id of its own. -/
def otherRecord : FailureRecord := { lostRecord with failureId := ⟨.ofByte 2⟩ }

/-- The log is iterated in the order in which the records were appended. -/
def appendedOrders : (publicStore.run {} (appends lostRecord otherRecord)).Orders where
  failures := [⟨lostRecord.failureId, lostRecord⟩, ⟨otherRecord.failureId, otherRecord⟩]
  ops := []
  idem := []
  failures_iterates := by unfold UnorderedMap.Iterates; decide +kernel
  ops_iterates := UnorderedMap.iterates_nil
  idem_iterates := UnorderedMap.iterates_nil

/-- And so when they were appended the other way round. -/
def appendedOrders' : (publicStore.run {} (appends otherRecord lostRecord)).Orders where
  failures := [⟨otherRecord.failureId, otherRecord⟩, ⟨lostRecord.failureId, lostRecord⟩]
  ops := []
  idem := []
  failures_iterates := by unfold UnorderedMap.Iterates; decide +kernel
  ops_iterates := UnorderedMap.iterates_nil
  idem_iterates := UnorderedMap.iterates_nil

/-- The two stores have the same content, and their files differ. -/
theorem append_order_saved :
    SameContent (publicStore.run {} (appends lostRecord otherRecord))
        (publicStore.run {} (appends otherRecord lostRecord)) ∧
      (publicStore.run {} (appends lostRecord otherRecord)).save appendedOrders ≠
        (publicStore.run {} (appends otherRecord lostRecord)).save appendedOrders' := by
  refine ⟨⟨?_, rfl, fun _ _ => rfl, rfl⟩, ?_⟩
  · decide +kernel
  · decide +kernel

end FailureFabric
