import FailureFabric.Accepted

namespace FailureFabric

open Library

/-!
# A save under way

`save` writes frame after frame, and looks an operation up when its turn comes, so the registry
may change between two writes.  What does not change is the list of writes: it is fixed when the
save starts.

* `SaveItem.Wrote`, `Manifest` — what a write leaves in the file, and what the header announces;
* `Underway` — the bytes so far are a snapshot of what is written, and what is written and what
  is still to do are what the header announces;
* `Underway.start`, `Underway.write`, `Underway.finish` — a save starts under way, stays so with
  every write, and ends with a file that is accepted and holds what it was to keep.
-/

/-- The runtime is recorded as confirmed. -/
def OperationRuntime.Confirmed (r : OperationRuntime) : Prop :=
  r.terminalRecorded = true ∧ r.machine.state = .COMPLETION_CONFIRMED

/-- The operation is recorded as confirmed. -/
def OperationRegistry.Confirmed (reg : OperationRegistry) (op : OperationId) : Prop :=
  ∃ r, reg.find op = some r ∧ r.Confirmed

namespace SaveItem

/-- The entry is what the write leaves in the file. -/
def Wrote : SaveItem → SnapshotEntry → Prop
  | failure rec, .failure rec' => rec' = rec
  | operation op, .operation op' _ => op' = op
  | idempotency ev, .idempotency ev' => ev' = ev
  | ownership own, .ownership own' => own' = own
  | _, _ => False

/-- The write leaves an entry, and one that can be read back. -/
def Writable (s : FailureStore) : SaveItem → Prop
  | header .. => False
  | failure rec => rec.Encodable
  | operation op => s.ops.has op = true
  | idempotency ev => ev.resultMetadata.length ≤ 0xFFFF
  | ownership _ => True

end SaveItem

/-- The records among the writes. -/
def failureItems (items : List SaveItem) : List FailureRecord :=
  items.filterMap fun
    | .failure rec => some rec
    | _ => none

/-- The operations among the writes. -/
def operationItems (items : List SaveItem) : List OperationId :=
  items.filterMap fun
    | .operation op => some op
    | _ => none

/-- The idempotency entries among the writes. -/
def idempotencyItems (items : List SaveItem) : List EntryView :=
  items.filterMap fun
    | .idempotency ev => some ev
    | _ => none

/-- The counts of the header are those of the writes, and no identity is written twice. -/
structure Manifest (nfail nop nid : Nat) (items : List SaveItem) : Prop where
  failures_length : (failureItems items).length = nfail
  operations_length : (operationItems items).length = nop
  idempotency_length : (idempotencyItems items).length = nid
  nfail_lt : nfail < 2 ^ 32
  nop_lt : nop < 2 ^ 32
  nid_lt : nid < 2 ^ 32
  failures_nodup : ((failureItems items).map FailureRecord.failureId).Nodup
  operations_nodup : (operationItems items).Nodup

/-- What is written is what the writes name. -/
theorem wrote_items {items : List SaveItem} {es : List SnapshotEntry}
    (h : List.Forall₂ SaveItem.Wrote items es) :
    failuresOf es = failureItems items ∧ (operationsOf es).map Prod.fst = operationItems items ∧
      identsOf es = idempotencyItems items := by
  induction h with
  | nil => exact ⟨rfl, rfl, rfl⟩
  | @cons item e items es hwrote _ ih =>
    obtain ⟨hfail, hop, hid⟩ := ih
    -- a write and its entry are of one kind, and add the same to the same list
    cases item with
    | header => exact absurd hwrote id
    | failure rec =>
      cases e with
      | failure rec' =>
        obtain rfl : rec' = rec := hwrote
        exact ⟨congrArg (rec' :: ·) hfail, hop, hid⟩
      | operation | idempotency | ownership => exact absurd hwrote id
    | operation op =>
      cases e with
      | operation op' rt =>
        obtain rfl : op' = op := hwrote
        exact ⟨hfail, congrArg (op' :: ·) hop, hid⟩
      | failure | idempotency | ownership => exact absurd hwrote id
    | idempotency ev =>
      cases e with
      | idempotency ev' =>
        obtain rfl : ev' = ev := hwrote
        exact ⟨hfail, hop, congrArg (ev' :: ·) hid⟩
      | failure | operation | ownership => exact absurd hwrote id
    | ownership own =>
      cases e with
      | ownership own' => exact ⟨hfail, hop, hid⟩
      | failure | operation | idempotency => exact absurd hwrote id

/-- A complete file is accepted by every store, and restores what was written. -/
theorem Manifest.load {nfail nop nid : Nat} {items : List SaveItem} {es : List SnapshotEntry}
    (h : Manifest nfail nop nid items) (hwrote : List.Forall₂ SaveItem.Wrote items es)
    (hes : ∀ e ∈ es, e.Encodable) (s : FailureStore) :
    s.load (some (snapshot nfail nop nid es)) = (restored es, true) ∧
      ((operationsOf es).map Prod.fst).Nodup := by
  obtain ⟨hfail, hop, hid⟩ := wrote_items hwrote
  have hnfail : (failuresOf es).length = nfail := by rw [hfail, h.failures_length]
  have hnop : (operationsOf es).length = nop := by
    rw [← h.operations_length, ← hop, List.length_map]
  have hnid : (identsOf es).length = nid := by rw [hid, h.idempotency_length]
  have hops : ((operationsOf es).map Prod.fst).Nodup := by
    rw [hop]
    exact h.operations_nodup
  refine ⟨?_, hops⟩
  have hload := load_snapshot hes (by rw [hfail]; exact h.failures_nodup) hops
    (by rw [hnfail]; exact h.nfail_lt) (by rw [hnop]; exact h.nop_lt)
    (by rw [hnid]; exact h.nid_lt) s
  rwa [hnfail, hnop, hnid] at hload

/-! ### The writes of a save -/

section Plan

variable {s : FailureStore}

/-- **Write lemma.** A write that can be made appends the frame of its entry. -/
theorem write_of_writable (hs : s.WellFormed) {item : SaveItem} (h : item.Writable s) :
    ∃ e, s.write item = e.frame ∧ item.Wrote e ∧ e.Encodable ∧
      ∀ op, item = .operation op → ∃ rt, s.ops.find op = some rt ∧ e = .operation op rt := by
  cases item with
  | header => exact absurd h id
  | failure rec => exact ⟨.failure rec, rfl, rfl, h, fun _ hop => by cases hop⟩
  | operation op =>
    obtain ⟨rt, hrt⟩ := Option.isSome_iff_exists.mp h
    refine ⟨.operation op rt, s.write_operation hrt, rfl, hs.runtime op rt hrt, ?_⟩
    rintro op' hop
    obtain rfl := SaveItem.operation.inj hop
    exact ⟨rt, hrt, rfl⟩
  | idempotency ev => exact ⟨.idempotency ev, rfl, rfl, h, fun _ hop => by cases hop⟩
  | ownership own => exact ⟨.ownership own, rfl, rfl, trivial, fun _ hop => by cases hop⟩

/-- The writes of a save after the header. -/
def FailureStore.savedItems (s : FailureStore) (o : s.Orders) : List SaveItem :=
  o.failures.map (fun e => .failure e.2) ++ ((o.ops.map Sigma.fst).map .operation ++
    ((o.idem.map FailureStore.viewOf).map .idempotency ++ [.ownership s.ownership]))

theorem savePlan_eq_cons (o : s.Orders) :
    s.savePlan o =
      .header s.failures.size s.ops.ops.size s.idem.entries.size :: s.savedItems o := by
  simp [FailureStore.savePlan, FailureStore.savedItems]

/-- The header announces the writes, and no identity is written twice. -/
theorem manifest_savedItems (hs : s.WellFormed) (hc : s.Countable) (o : s.Orders) :
    Manifest s.failures.size s.ops.ops.size s.idem.entries.size (s.savedItems o) := by
  have hfail : failureItems (s.savedItems o) = o.failures.map Sigma.snd := by
    simp [failureItems, FailureStore.savedItems, List.filterMap_map]
  have hop : operationItems (s.savedItems o) = o.ops.map Sigma.fst := by
    simp [operationItems, FailureStore.savedItems, List.filterMap_map]
  have hid : idempotencyItems (s.savedItems o) = o.idem.map FailureStore.viewOf := by
    simp [idempotencyItems, FailureStore.savedItems, List.filterMap_map]
  constructor
  · rw [hfail, List.length_map, o.failures_iterates.length_eq]
  · rw [hop, List.length_map, o.ops_iterates.length_eq]
  · rw [hid, List.length_map, o.idem_iterates.length_eq]
  · exact hc.failures_lt
  · exact hc.ops_lt
  · exact hc.idem_lt
  · rw [hfail]
    exact nodup_failureIds o hs
  · rw [hop]
    exact o.ops_iterates.nodup_map_fst

/-- All writes can be made. -/
theorem writable_savedItems (hs : s.WellFormed) (o : s.Orders) :
    ∀ item ∈ s.savedItems o, item.Writable s := by
  intro item hitem
  simp only [FailureStore.savedItems, List.mem_append, List.mem_map, List.mem_singleton] at hitem
  rcases hitem with ⟨⟨id, rec⟩, hmem, rfl⟩ | ⟨op, ⟨⟨op', rt⟩, hmem, rfl⟩, rfl⟩ |
    ⟨ev, ⟨⟨pair, e⟩, hmem, rfl⟩, rfl⟩ | rfl
  · exact (hs.record id rec ((o.failures_iterates.mem_iff id rec).mp hmem)).2
  · show s.ops.has op' = true
    have hfind : s.ops.find op' = some rt := (o.ops_iterates.mem_iff op' rt).mp hmem
    rw [OperationRegistry.has, hfind]
    rfl
  · exact hs.metadata pair.op pair.key e ((o.idem_iterates.mem_iff pair e).mp hmem)
  · trivial

/-- Every known operation is written. -/
theorem operation_mem_savedItems (o : s.Orders) {op : OperationId} (h : s.ops.has op = true) :
    .operation op ∈ s.savedItems o := by
  obtain ⟨rt, hrt⟩ := Option.isSome_iff_exists.mp h
  have hmem : ⟨op, rt⟩ ∈ o.ops := (o.ops_iterates.mem_iff op rt).mpr hrt
  simp only [FailureStore.savedItems, List.mem_append, List.mem_map]
  exact Or.inr (Or.inl ⟨op, ⟨⟨op, rt⟩, hmem, rfl⟩, rfl⟩)

end Plan

/-! ### The progress of a save -/

/-- The writes that are done and what they left, and the writes that are still to do: an
    operation that is to be kept is written as confirmed, or is still to be written. -/
structure Progress (s : FailureStore) (kept : OperationId → Prop) (nfail nop nid : Nat)
    (done : List SaveItem) (es : List SnapshotEntry) (todo : List SaveItem) : Prop where
  manifest : Manifest nfail nop nid (done ++ todo)
  wrote : List.Forall₂ SaveItem.Wrote done es
  encodable : ∀ e ∈ es, e.Encodable
  writable : ∀ item ∈ todo, item.Writable s
  keeps : ∀ op, kept op →
    (∃ rt, .operation op rt ∈ es ∧ rt.Confirmed) ∨ .operation op ∈ todo

/-- A save is under way: the header is still to be written, or the file is the snapshot of what
    is written. -/
inductive Underway (s : FailureStore) (kept : OperationId → Prop) :
    Option (List UInt8) → List SaveItem → Prop
  | started {nfail nop nid : Nat} {todo : List SaveItem}
      (h : Progress s kept nfail nop nid [] [] todo) :
      Underway s kept (some []) (.header nfail nop nid :: todo)
  | writing {nfail nop nid : Nat} {done todo : List SaveItem} {es : List SnapshotEntry}
      (h : Progress s kept nfail nop nid done es todo) :
      Underway s kept (some (snapshot nfail nop nid es)) todo

section Underway

variable {s s' : FailureStore} {kept kept' : OperationId → Prop} {disk : Option (List UInt8)}
  {todo : List SaveItem}

/-- A save of a well formed store is under way, and keeps whatever the registry knows. -/
theorem Underway.start (hs : s.WellFormed) (hc : s.Countable) (o : s.Orders)
    (hkept : ∀ op, kept op → s.ops.has op = true) :
    Underway s kept (some []) (s.savePlan o) := by
  rw [savePlan_eq_cons]
  exact .started ⟨manifest_savedItems hs hc o, .nil, by simp, writable_savedItems hs o,
    fun op hop => Or.inr (operation_mem_savedItems o (hkept op hop))⟩

/-- Progress depends on the store only through the operations that it knows. -/
theorem Progress.mono {nfail nop nid : Nat} {done : List SaveItem} {es : List SnapshotEntry}
    (h : Progress s kept nfail nop nid done es todo)
    (hops : ∀ op, s.ops.has op = true → s'.ops.has op = true) (hkept : ∀ op, kept' op → kept op) :
    Progress s' kept' nfail nop nid done es todo where
  manifest := h.manifest
  wrote := h.wrote
  encodable := h.encodable
  writable := by
    intro item hitem
    have hwritable := h.writable item hitem
    cases item with
    | operation op => exact hops op hwritable
    | header | failure | idempotency | ownership => exact hwritable
  keeps := fun op hop => h.keeps op (hkept op hop)

/-- A save stays under way while the registry goes on. -/
theorem Underway.mono (h : Underway s kept disk todo)
    (hops : ∀ op, s.ops.has op = true → s'.ops.has op = true) (hkept : ∀ op, kept' op → kept op) :
    Underway s' kept' disk todo := by
  cases h with
  | started h => exact .started (h.mono hops hkept)
  | writing h => exact .writing (h.mono hops hkept)

/-- One more write is done. -/
theorem Progress.write {nfail nop nid : Nat} {done : List SaveItem} {es : List SnapshotEntry}
    {item : SaveItem} (h : Progress s kept nfail nop nid done es (item :: todo))
    (hconf : ∀ op, kept op → s.ops.Confirmed op) {e : SnapshotEntry} (hwrote : item.Wrote e)
    (he : e.Encodable)
    (hop : ∀ op, item = .operation op → ∃ rt, s.ops.find op = some rt ∧ e = .operation op rt) :
    Progress s kept nfail nop nid (done ++ [item]) (es ++ [e]) todo where
  manifest := by
    rw [List.append_assoc]
    exact h.manifest
  wrote := List.rel_append h.wrote (.cons hwrote .nil)
  encodable := by
    intro e' he'
    rcases List.mem_append.mp he' with hmem | hmem
    · exact h.encodable e' hmem
    · rw [List.mem_singleton.mp hmem]
      exact he
  writable := fun item' hitem' => h.writable item' (List.mem_cons_of_mem item hitem')
  keeps := by
    intro op hkept
    rcases h.keeps op hkept with ⟨rt, hmem, hrt⟩ | hmem
    · exact Or.inl ⟨rt, List.mem_append_left _ hmem, hrt⟩
    · rcases List.mem_cons.mp hmem with hitem | htodo
      · -- it is written now, and it is confirmed
        obtain ⟨rt, hrt, rfl⟩ := hop op hitem.symm
        obtain ⟨rt', hrt', hconfirmed⟩ := hconf op hkept
        obtain rfl : rt = rt' := Option.some.inj (hrt.symm.trans hrt')
        exact Or.inl ⟨rt, List.mem_append_right _ List.mem_cons_self, hconfirmed⟩
      · exact Or.inr htodo

/-- **Write step.** A save stays under way with each of its writes, when all that it is to keep
    is confirmed. -/
theorem Underway.write {item : SaveItem} (hs : s.WellFormed)
    (hconf : ∀ op, kept op → s.ops.Confirmed op) (h : Underway s kept disk (item :: todo)) :
    Underway s kept (disk.map (· ++ s.write item)) todo := by
  generalize htodo : item :: todo = items at h
  cases h with
  | @started nfail nop nid todo' h =>
    obtain ⟨rfl, rfl⟩ := List.cons.inj htodo
    have hdisk : [] ++ s.write (.header nfail nop nid) = snapshot nfail nop nid [] := by
      rw [List.nil_append, snapshot_nil, FailureStore.write]
    rw [Option.map_some, hdisk]
    exact .writing h
  | @writing nfail nop nid done items es h =>
    subst htodo
    obtain ⟨e, hwrite, hwrote, he, hop⟩ := write_of_writable hs (h.writable item List.mem_cons_self)
    rw [Option.map_some, hwrite, ← snapshot_concat]
    exact .writing (h.write hconf hwrote he hop)

/-- **Finish lemma.** When nothing is left to write, the file is accepted by every store and
    restores what was to be kept as confirmed. -/
theorem Underway.finish (h : Underway s kept disk []) (s₀ : FailureStore) :
    (s₀.load disk).2 = true ∧ ∀ op, kept op → (s₀.load disk).1.ops.Confirmed op := by
  cases h with
  | @writing nfail nop nid done items es h =>
    have hmanifest := h.manifest
    rw [List.append_nil] at hmanifest
    obtain ⟨hload, hops⟩ := hmanifest.load h.wrote h.encodable s₀
    rw [hload]
    refine ⟨rfl, fun op hop => ?_⟩
    obtain ⟨rt, hmem, hrt⟩ := (h.keeps op hop).resolve_right List.not_mem_nil
    exact ⟨rt, find_restored hops hmem, hrt⟩

end Underway

end FailureFabric
