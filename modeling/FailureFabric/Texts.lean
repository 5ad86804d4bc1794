import FailureFabric.Truncation
import FailureFabric.Admission

namespace FailureFabric

open Library

/-!
# Texts

A text is written behind a length field of two bytes, and one that is longer is written as the
empty text: `save` and the next `load` both return true, and the text is gone.

* `TextsSurvive` — every text of the store is read back byte for byte;
* `FailureStore.Lossless` — every text and every list of dependencies fits its length field;
* `texts_survive_run` — the runs in which every text that is stored fits.
-/

/-- Every text of `s` is, byte for byte, in `s'`. -/
structure TextsSurvive (s s' : FailureStore) : Prop where
  record : ∀ id rec, s.failures.lookup id = some rec → ∃ rec', s'.failures.lookup id = some rec' ∧
    rec'.summary = rec.summary ∧ rec'.reason = rec.reason
  outcome : ∀ op rt, s.ops.find op = some rt → ∃ rt', s'.ops.find op = some rt' ∧
    rt'.terminalOutcome = rt.terminalOutcome
  metadata : ∀ op key e, s.idem.find op key = some e → ∃ e', s'.idem.find op key = some e' ∧
    e'.resultMetadata = e.resultMetadata

/-- Whatever order `save` takes and whichever store loads the file: when the load returns true,
    every text is read back. -/
def FailureStore.KeepsTexts (s : FailureStore) : Prop :=
  ∀ (o : s.Orders) (s₀ : FailureStore), (s₀.load (some (s.save o))).2 = true →
    TextsSurvive s (s₀.load (some (s.save o))).1

/-- The texts fit their length fields, and the dependencies of a record their count. -/
structure FailureStore.Lossless (s : FailureStore) : Prop where
  record : ∀ id rec, s.failures.lookup id = some rec → rec.failureId = id ∧
    rec.summary.length ≤ 0xFFFF ∧ rec.reason.length ≤ 0xFFFF ∧ rec.dependencies.length < 2 ^ 32
  runtime : ∀ op rt, s.ops.find op = some rt → rt.terminalOutcome.length ≤ 0xFFFF
  metadata : ∀ op key e, s.idem.find op key = some e → e.resultMetadata.length ≤ 0xFFFF

/-! ### One save and one load -/

section Load

variable {s : FailureStore} (o : s.Orders)

/-- When a saved file is accepted, every entry of the store passed the loader's checks. -/
theorem checked_of_load (hs : s.Lossless) {s₀ : FailureStore}
    (hload : (s₀.load (some (s.save o))).2 = true) : ∀ e ∈ s.entries o, e.Checked := by
  obtain ⟨kept, ⟨rest, hrest⟩, hfile, hacc⟩ := (load_prefix_true_iff o
    (fun id rec hrec _ => (hs.record id rec hrec).2.2.2) (List.prefix_refl _) s₀).mp hload
  rw [save_eq_partialFile, ← hrest] at hfile
  -- a file without some of the frames would be shorter
  cases rest with
  | nil =>
    rw [← hrest, List.append_nil]
    exact hacc.checked
  | cons e rest =>
    have hlen := congrArg List.length hfile
    simp only [FailureStore.partialFile, snapshot, List.flatMap_append, List.flatMap_cons,
      List.length_append, SnapshotEntry.frame, length_encodeFrame] at hlen
    omega

/-- Checked entries with texts that fit can be read back. -/
theorem wellFormed_of_checked (hs : s.Lossless) (hchecked : ∀ e ∈ s.entries o, e.Checked) :
    s.WellFormed where
  record := by
    intro id rec hrec
    obtain ⟨hid, hsummary, hreason, -⟩ := hs.record id rec hrec
    have hmem : SnapshotEntry.failure rec ∈ s.entries o := by
      rw [← mem_failuresOf, FailureStore.failuresOf_entries]
      exact List.mem_map_of_mem ((o.failures_iterates.mem_iff id rec).mpr hrec)
    exact ⟨hid, hsummary, hreason, (hchecked _ hmem).1, (hchecked _ hmem).2⟩
  runtime := by
    intro op rt hrt
    have hmem : SnapshotEntry.operation op rt ∈ s.entries o := by
      rw [← mem_operationsOf, FailureStore.operationsOf_entries]
      exact List.mem_map_of_mem ((o.ops_iterates.mem_iff op rt).mpr hrt)
    exact ⟨hs.runtime op rt hrt, (hchecked _ hmem).1, (hchecked _ hmem).2⟩
  metadata := hs.metadata

/-- **Save and load.** A store whose texts fit keeps them. -/
theorem FailureStore.Lossless.keepsTexts (hs : s.Lossless) : s.KeepsTexts := by
  intro o s₀ hload
  have hwell := wellFormed_of_checked o hs (checked_of_load o hs hload)
  have hparses := parsesTo_snapshot s.failures.size s.ops.ops.size s.idem.entries.size
    (encodable_entries o hwell)
  have hsave : s.save o = snapshot s.failures.size s.ops.ops.size s.idem.entries.size
      (s.entries o) := save_eq_partialFile o
  rw [← hsave] at hparses
  rw [(load_of_accepted ((load_true_iff s₀ _).mp hload) hparses s₀).2]
  refine ⟨fun id rec hrec => ⟨rec, ?_, rfl, rfl⟩, fun op rt hrt => ⟨rt, ?_, rfl⟩,
    fun op key e he => ?_⟩
  · rw [restored_failures o hwell, hrec]
  · rw [restored_ops o, hrt]
  · rw [restored_idem, he]
    exact ⟨_, rfl, rfl⟩

end Load

/-! ### Runs -/

/-- What the call stores fits its length fields: the texts and the dependencies of a record that
    `append_failure` admits, the outcome that an event records or `restore` brings, and the
    metadata of an idempotency entry. -/
def storesShortTexts (s : FailureStore) : PublicCall → Bool
  | .component (.appendFailure rec) =>
    !admitsFailure s rec || (rec.summary.length ≤ 0xFFFF && rec.reason.length ≤ 0xFFFF &&
      rec.dependencies.length < 2 ^ 32)
  | .component (.operation c) =>
    !storesEnvelope s.ops c || c.outcome.all (fun t => t.length ≤ 0xFFFF)
  | .component (.restoreOperation op rt) => s.ops.has op || rt.terminalOutcome.length ≤ 0xFFFF
  | .component (.idempotency (.complete _ _ metadata)) => metadata.length ≤ 0xFFFF
  | .component (.restoreEntry ev) => ev.resultMetadata.length ≤ 0xFFFF
  | _ => true

section Step

variable {s : FailureStore}

/-- A well formed store keeps its texts. -/
theorem FailureStore.WellFormed.lossless (hs : s.WellFormed) : s.Lossless where
  record := by
    intro id rec hrec
    obtain ⟨hid, henc⟩ := hs.record id rec hrec
    have hdeps := henc.dependencies_le
    exact ⟨hid, henc.summary_le, henc.reason_le, by omega⟩
  runtime := fun op rt hrt => (hs.runtime op rt hrt).outcome_le
  metadata := hs.metadata

/-- The outcome of a runtime is the old one, or one that the call stores. -/
theorem outcome_step {c : RegistryCall}
    (hs : ∀ op rt, s.ops.find op = some rt → rt.terminalOutcome.length ≤ 0xFFFF)
    (hC : storesShortTexts s (.component (.operation c)) = true) (op : OperationId)
    (rt : OperationRuntime) (hrt : (registry.step s.ops c).1.find op = some rt) :
    rt.terminalOutcome.length ≤ 0xFFFF := by
  rcases find_of_step hrt with hold | ⟨-, e, -, rfl⟩ | ⟨r, hr, rfl, -, heff⟩
  · exact hs op rt hold
  · exact Nat.zero_le _
  · have hold := hs _ r hr
    generalize (registry.step s.ops c).2 = res at heff
    cases heff with
    | refused | repeated | rebound | dispatched | advanced => exact hold
    | recorded dst outcome hevent hopen hfence hallowed _ htarget hsome =>
      have hstores := storesEnvelope_of_recorded hr hevent hopen hfence hallowed htarget
        (by rw [hsome]; rfl)
      simpa [storesShortTexts, hstores, hsome] using hC

theorem metadata_step {c : IdempotencyCall}
    (hs : ∀ op key e, s.idem.find op key = some e → e.resultMetadata.length ≤ 0xFFFF)
    (hC : storesShortTexts s (.component (.idempotency c)) = true) (op : OperationId)
    (key : IdempotencyKey) (e : IdempotencyEntry)
    (he : (idempotency.step s.idem c).1.find op key = some e) :
    e.resultMetadata.length ≤ 0xFFFF := by
  rw [find_step] at he
  split_ifs at he with hpair
  · have hold := hs op key
    generalize s.idem.find op key = old at he hold
    cases c with
    | begin =>
      cases old with
      | none =>
        obtain rfl := Option.some.inj he
        exact Nat.zero_le _
      | some e₀ =>
        obtain rfl := Option.some.inj he
        exact hold _ rfl
    | complete _ _ metadata =>
      obtain rfl := Option.some.inj he
      simpa [storesShortTexts] using hC
    | fail =>
      obtain ⟨e₀, rfl, rfl⟩ := Option.map_eq_some_iff.mp he
      exact hold e₀ rfl
    | markConflict =>
      obtain rfl := Option.some.inj he
      cases old with
      | none => exact Nat.zero_le _
      | some e₀ => exact hold e₀ rfl
  · exact hs op key e he

/-- A record of the log was there before, or is the one that was appended. -/
theorem FailureStore.Lossless.append (hs : s.Lossless) {rec : FailureRecord}
    (hC : storesShortTexts s (.component (.appendFailure rec)) = true) :
    (s.appendFailure rec).1.Lossless := by
  rw [FailureStore.appendFailure_eq, appendFailure_failures]
  refine ⟨fun id rec' hlookup => ?_, hs.runtime, hs.metadata⟩
  dsimp only at hlookup
  split_ifs at hlookup with hadmits
  · rw [UnorderedMap.lookup_insert'] at hlookup
    split_ifs at hlookup with hid
    · obtain rfl := Option.some.inj hlookup
      refine ⟨hid.symm, ?_⟩
      simpa [storesShortTexts, hadmits, and_assoc] using hC
    · exact hs.record id rec' hlookup
  · exact hs.record id rec' hlookup

theorem metadata_restore {ev : EntryView}
    (hs : ∀ op key e, s.idem.find op key = some e → e.resultMetadata.length ≤ 0xFFFF)
    (hC : storesShortTexts s (.component (.restoreEntry ev)) = true) (op : OperationId)
    (key : IdempotencyKey) (e : IdempotencyEntry)
    (he : (s.idem.restore ev.op ev.key ev.payloadHash ev.state ev.resultMetadata).find op key =
      some e) : e.resultMetadata.length ≤ 0xFFFF := by
  rw [IdempotencyStore.restore, IdempotencyStore.find_set] at he
  split_ifs at he
  · obtain rfl := Option.some.inj he
    simpa [storesShortTexts] using hC
  · exact hs op key e he

/-- What an accepted file restores has texts that fit, and a refused one changes no text. -/
theorem FailureStore.Lossless.load (hs : s.Lossless) (file : Option (List UInt8)) :
    (s.load file).1.Lossless := by
  rcases load_cases s file with ⟨own, hkept⟩ | ⟨_, _, _, _, es, -, -, hparses, hrestored⟩
  · rw [hkept]
    exact ⟨hs.record, hs.runtime, hs.metadata⟩
  · rw [hrestored]
    exact (wellFormed_restored hparses.encodable).lossless

/-- **Step lemma.** A call that stores what fits keeps the store lossless; a load does in any
    case. -/
theorem FailureStore.Lossless.step (hs : s.Lossless) {c : PublicCall}
    (hC : storesShortTexts s c = true) : (publicStore.step s c).1.Lossless := by
  cases c with
  | clear => exact wellFormed_empty.lossless
  | load file => exact hs.load file
  | component c =>
    cases c with
    | appendFailure rec => exact hs.append hC
    | operation c => exact ⟨hs.record, outcome_step hs.runtime hC, hs.metadata⟩
    | restoreOperation op rt =>
      refine ⟨hs.record, fun op' rt' hfind => ?_, hs.metadata⟩
      rcases find_of_restore hfind with hold | ⟨hknown, -, rfl⟩
      · exact hs.runtime op' rt' hold
      · simpa [storesShortTexts, hknown] using hC
    | clearOperations => exact ⟨hs.record, wellFormed_empty.lossless.runtime, hs.metadata⟩
    | idempotency c => exact ⟨hs.record, hs.runtime, metadata_step hs.metadata hC⟩
    | restoreEntry ev => exact ⟨hs.record, hs.runtime, metadata_restore hs.metadata hC⟩
    | clearEntries => exact ⟨hs.record, hs.runtime, wellFormed_empty.lossless.metadata⟩
    | adopt | transfer => exact ⟨hs.record, hs.runtime, hs.metadata⟩

end Step

/-- **Texts.** In a run that starts empty and in which everything that a call stores fits its
    length field, every store that is reached keeps its texts through a save and a load. -/
theorem texts_survive_run (calls : List PublicCall)
    (hC : publicStore.Always (fun s c => storesShortTexts s c = true) {} calls) :
    (publicStore.run {} calls).KeepsTexts :=
  (Machine.always_induction (fun _ _ hC hs => hs.step hC) wellFormed_empty.lossless hC).keepsTexts

theorem texts_survive_run_sample :
    (publicStore.run {} [.component (.appendFailure lostRecord),
      .component (.operation (.create ⟨.ofByte 2⟩ {})),
      .component (.idempotency (.complete ⟨.ofByte 2⟩ {} completedText)),
      .load none]).KeepsTexts :=
  texts_survive_run _ (by decide)

/-- A text of one byte more than its length field can say. -/
def longText : Text := List.replicate 65536 0

/-- The metadata of an idempotency entry, completed with that text. -/
def longMetadata : List PublicCall :=
  [.component (.idempotency (.complete ⟨.ofByte 2⟩ {} longText))]

/-- The only iteration orders of the store that holds it. -/
def longOrders : (publicStore.run {} longMetadata).Orders where
  failures := []
  ops := []
  idem := [⟨⟨⟨.ofByte 2⟩, {}⟩, { state := .COMPLETED, resultMetadata := longText }⟩]
  failures_iterates := UnorderedMap.iterates_nil
  ops_iterates := UnorderedMap.iterates_nil
  idem_iterates := rfl

/-- The store is saved and loaded, and the metadata comes back empty. -/
theorem long_text_lost :
    ∃ s₁, ({} : FailureStore).load
        (some ((publicStore.run {} longMetadata).save longOrders)) = (s₁, true) ∧
      (publicStore.run {} longMetadata).idem.priorResult ⟨.ofByte 2⟩ {} = some longText ∧
      s₁.idem.priorResult ⟨.ofByte 2⟩ {} = some [] ∧
      ¬ (publicStore.run {} longMetadata).KeepsTexts := by
  have hchecked : (publicStore.run {} longMetadata).Checked :=
    ⟨checked_empty.record, checked_empty.runtime⟩
  have hcount : (publicStore.run {} longMetadata).Countable := ⟨by decide, by decide, by decide⟩
  have hcut : longText.cut = [] := if_pos (by rw [longText, List.length_replicate]; decide)
  have hload := load_save_cut longOrders hchecked hcount {}
  have hentries : ((publicStore.run {} longMetadata).entries longOrders).map SnapshotEntry.cut =
      [.idempotency ⟨⟨.ofByte 2⟩, {}, 0, .COMPLETED, []⟩, .ownership {}] := by
    rw [← hcut]
    rfl
  rw [hentries] at hload
  refine ⟨_, hload, rfl, rfl, fun hkeeps => ?_⟩
  have htexts := hkeeps longOrders {} (by rw [hload])
  rw [hload] at htexts
  obtain ⟨e', he', hmeta⟩ := htexts.metadata ⟨.ofByte 2⟩ {} _ rfl
  obtain rfl := Option.some.inj he'
  have hlen : longText.length = 65536 := List.length_replicate
  have hzero : 0 = longText.length := congrArg List.length hmeta
  omega

end FailureFabric
