import FailureFabric.Completed
import FailureFabric.LossLog
import FailureFabric.Settling
import FailureFabric.Truncation

namespace FailureFabric

open Library

/-!
# What a restart brings back

The coordinator may crash at any step, between two writes of a save too, and the crash may leave
any first part of its state file.  The first life of the process begins without a state file, and
every later one with what the one before has left.  What a start loads was never made up: every
operation, every failure record and every idempotency entry that comes back was in the store at some
time before, just as it comes back.  So an outcome that is recorded after any number of crashes was
confirmed, in this life of the process or in an earlier one.

* `SnapshotEntry.In`, `Sound` — the entry is in a store; it was in the store somewhere in the run,
  and can be written whole;
* `Writing` — the file holds the first of a save's entries, and the others are still to be written;
* `RestartInv` — the invariant, with its step and its crash lemma;
* `restart_restores`, `recorded_confirmed` — the results.
-/

/-- The process after a run that begins without a state file. -/
def Coord.after (is : List Incident) : Coord := restarting.run (.boot none) is

/-- What the entry says is in the store.  A load drops the ownership. -/
def SnapshotEntry.In (s : FailureStore) : SnapshotEntry → Prop
  | operation op rt => s.ops.find op = some rt
  | failure rec => s.failures.lookup rec.failureId = some rec
  | idempotency ev =>
    ∃ e, s.idem.find ev.op ev.key = some e ∧ e.saved = (ev.payloadHash, ev.state, ev.resultMetadata)
  | ownership _ => True

/-- The entry was in the store somewhere in the run, and nothing of it is too long to be written. -/
structure Sound (is : List Incident) (e : SnapshotEntry) : Prop where
  stored : ∃ pre, pre <+: is ∧ e.In (Coord.after pre).store
  whole : e.cut = e
  bounded : e.Bounded

/-- What the write will leave in the file is sound; an operation is looked up at its turn. -/
def SaveItem.SoundIn (is : List Incident) : SaveItem → Prop
  | header .. => False
  | failure rec => Sound is (.failure rec)
  | idempotency ev => Sound is (.idempotency ev)
  | operation _ | ownership _ => True

/-- A save is under way, and writes only what is sound. -/
inductive Writing (is : List Incident) : Option (List UInt8) → List SaveItem → Prop
  | started {nfail nop nid : Nat} {todo : List SaveItem} (h : ∀ item ∈ todo, item.SoundIn is) :
      Writing is (some []) (.header nfail nop nid :: todo)
  | writing {nfail nop nid : Nat} {es : List SnapshotEntry} {todo : List SaveItem}
      (hes : ∀ e ∈ es, Sound is e) (h : ∀ item ∈ todo, item.SoundIn is) :
      Writing is (some (snapshot nfail nop nid es)) todo

/-- Nothing in the store is too long to be written. -/
structure FailureStore.Whole (s : FailureStore) : Prop where
  outcome_le : ∀ op rt, s.ops.find op = some rt → rt.terminalOutcome.length ≤ 0xFFFF
  keyed : ∀ id rec, s.failures.lookup id = some rec → rec.failureId = id
  record : ∀ id rec, s.failures.lookup id = some rec →
    (SnapshotEntry.failure rec).cut = .failure rec ∧ (SnapshotEntry.failure rec).Bounded
  metadata_le : ∀ op key e, s.idem.find op key = some e → e.resultMetadata.length ≤ 0xFFFF

/-- The file holds the first part of a snapshot of sound entries. -/
def FileSound (is : List Incident) (disk : Option (List UInt8)) : Prop :=
  ∀ data, disk = some data → ∃ nfail nop nid es, data <+: snapshot nfail nop nid es ∧
    ∀ e ∈ es, Sound is e

/-- What is in the file after a run, or on its way there, was in the store before. -/
structure RestartInv (is : List Incident) : Prop where
  whole : (Coord.after is).store.Whole
  begun : (Coord.after is).Begun
  lock : (Coord.after is).LockInv
  file : FileSound is (Coord.after is).disk
  saving : ∀ c todo, (Coord.after is).pc c = .saving todo → Writing is (Coord.after is).disk todo

section Mono

variable {is : List Incident} {i : Incident} {disk : Option (List UInt8)} {todo : List SaveItem}

theorem Sound.mono {e : SnapshotEntry} (h : Sound is e) : Sound (is ++ [i]) e := by
  obtain ⟨pre, hpre, hin⟩ := h.stored
  exact ⟨⟨pre, hpre.trans (List.prefix_append _ _), hin⟩, h.whole, h.bounded⟩

theorem SaveItem.SoundIn.mono {item : SaveItem} (h : item.SoundIn is) :
    item.SoundIn (is ++ [i]) := by
  cases item with
  | failure rec => exact Sound.mono h
  | idempotency ev => exact Sound.mono h
  | header => exact h
  | operation | ownership => trivial

theorem Writing.mono (h : Writing is disk todo) : Writing (is ++ [i]) disk todo := by
  cases h with
  | started h => exact .started fun item hitem => (h item hitem).mono
  | writing hes h =>
    exact .writing (fun e he => (hes e he).mono) (fun item hitem => (h item hitem).mono)

theorem FileSound.mono (h : FileSound is disk) : FileSound (is ++ [i]) disk := by
  intro data hdata
  obtain ⟨nfail, nop, nid, es, hpre, hes⟩ := h data hdata
  exact ⟨nfail, nop, nid, es, hpre, fun e he => (hes e he).mono⟩

end Mono

/-! ### Saves -/

section Saves

variable {is : List Incident} {disk : Option (List UInt8)} {todo : List SaveItem}

/-- A text that fits its length field is written as it is. -/
theorem Text.cut_of_le {t : Text} (h : t.length ≤ 0xFFFF) : t.cut = t :=
  if_neg (Nat.not_lt.mpr h)

/-- The operations that are known now are sound. -/
theorem sound_operation (hwhole : (Coord.after is).store.Whole) {op : OperationId}
    {rt : OperationRuntime} (hfind : (Coord.after is).store.ops.find op = some rt) :
    Sound is (.operation op rt) := by
  refine ⟨⟨is, List.prefix_refl is, hfind⟩, ?_, trivial⟩
  rw [SnapshotEntry.cut, Text.cut_of_le (hwhole.outcome_le op rt hfind)]

/-- A save starts with a list of writes that are sound. -/
theorem Writing.start (hwhole : (Coord.after is).store.Whole)
    (o : (Coord.after is).store.Orders) :
    Writing is (some []) ((Coord.after is).store.savePlan o) := by
  rw [savePlan_eq_cons]
  refine .started (fun item hitem => ?_)
  simp only [FailureStore.savedItems, List.mem_append, List.mem_map, List.mem_singleton] at hitem
  rcases hitem with ⟨⟨id, rec⟩, hmem, rfl⟩ | ⟨op, -, rfl⟩ | ⟨ev, ⟨⟨pair, e⟩, hmem, rfl⟩, rfl⟩ | rfl
  · have hlookup := (o.failures_iterates.mem_iff id rec).mp hmem
    obtain ⟨hcut, hbounded⟩ := hwhole.record id rec hlookup
    refine ⟨⟨is, List.prefix_refl is, ?_⟩, hcut, hbounded⟩
    show (Coord.after is).store.failures.lookup rec.failureId = some rec
    rw [hwhole.keyed id rec hlookup, hlookup]
  · trivial
  · have hfind := (o.idem_iterates.mem_iff pair e).mp hmem
    refine ⟨⟨is, List.prefix_refl is, e, hfind, rfl⟩, ?_, trivial⟩
    have hle := hwhole.metadata_le pair.op pair.key e hfind
    simp only [FailureStore.viewOf, SnapshotEntry.cut, Text.cut_of_le hle]
  · trivial

/-- A write leaves a sound entry, or nothing. -/
theorem Writing.write {item : SaveItem} (hwhole : (Coord.after is).store.Whole)
    (h : Writing is disk (item :: todo)) :
    Writing is (disk.map (· ++ (Coord.after is).store.write item)) todo := by
  generalize htodo : item :: todo = items at h
  cases h with
  | @started nfail nop nid todo' h =>
    obtain ⟨rfl, rfl⟩ := List.cons.inj htodo
    have hdisk : [] ++ (Coord.after is).store.write (.header nfail nop nid) =
        snapshot nfail nop nid [] := by
      rw [List.nil_append, snapshot_nil, FailureStore.write]
    rw [Option.map_some, hdisk]
    exact .writing (fun e he => by cases he) h
  | @writing nfail nop nid es items hes h =>
    subst htodo
    have htodo : ∀ item' ∈ todo, item'.SoundIn is :=
      fun item' hmem => h item' (List.mem_cons_of_mem item hmem)
    have hadd : ∀ e, Sound is e → (Coord.after is).store.write item = e.frame →
        Writing is (some (snapshot nfail nop nid es ++ (Coord.after is).store.write item))
          todo := by
      intro e he hwrite
      rw [hwrite, ← snapshot_concat]
      exact .writing (List.forall_mem_append.mpr ⟨hes, List.forall_mem_singleton.mpr he⟩) htodo
    have hitem := h item List.mem_cons_self
    rw [Option.map_some]
    cases item with
    | header => exact absurd hitem id
    | failure rec => exact hadd (.failure rec) hitem rfl
    | operation op =>
      cases hfind : (Coord.after is).store.ops.find op with
      | none =>
        rw [FailureStore.write, hfind, List.append_nil]
        exact .writing hes htodo
      | some rt =>
        exact hadd _ (sound_operation hwhole hfind) (FailureStore.write_operation _ hfind)
    | idempotency ev => exact hadd (.idempotency ev) hitem rfl
    | ownership own =>
      exact hadd (.ownership own) ⟨⟨is, List.prefix_refl is, trivial⟩, rfl, trivial⟩ rfl

/-- The file of a save that is under way is sound. -/
theorem Writing.fileSound (h : Writing is disk todo) : FileSound is disk := by
  intro data hdata
  cases h with
  | started =>
    obtain rfl := Option.some.inj hdata
    exact ⟨0, 0, 0, [], List.nil_prefix, fun e he => by cases he⟩
  | @writing nfail nop nid es todo hes h =>
    obtain rfl := Option.some.inj hdata
    exact ⟨nfail, nop, nid, es, List.prefix_refl _, hes⟩

end Saves

/-! ### The store -/

/-- What a snapshot can hold, and read back, it can hold whole. -/
theorem FailureStore.WellFormed.whole {s : FailureStore} (hs : s.WellFormed) : s.Whole where
  outcome_le := fun op rt hfind => (hs.runtime op rt hfind).outcome_le
  keyed := fun id rec hlookup => (hs.record id rec hlookup).1
  record := by
    intro id rec hlookup
    obtain ⟨-, hrec⟩ := hs.record id rec hlookup
    have hdeps := hrec.dependencies_le
    refine ⟨?_, Nat.lt_of_le_of_lt hdeps (by decide)⟩
    rw [SnapshotEntry.cut, Text.cut_of_le hrec.summary_le, Text.cut_of_le hrec.reason_le]
  metadata_le := hs.metadata

/-- Calls that record short texts keep all recorded texts short. -/
theorem outcome_le_run (calls : List RegistryCall) {reg : OperationRegistry}
    (hcalls : ∀ rc ∈ calls, ∀ o, rc.outcome = some o → o.length ≤ 0xFFFF)
    (hreg : ∀ op rt, reg.find op = some rt → rt.terminalOutcome.length ≤ 0xFFFF) :
    ∀ op rt, (registry.run reg calls).find op = some rt → rt.terminalOutcome.length ≤ 0xFFFF := by
  induction calls generalizing reg with
  | nil => exact hreg
  | cons rc calls ih =>
    refine ih (fun rc' h => hcalls rc' (List.mem_cons_of_mem _ h)) (fun op rt' hfind => ?_)
    rcases find_of_step hfind with hold | ⟨-, e, -, rfl⟩ | ⟨rt, hrt, -, -, heff⟩
    · exact hreg op rt' hold
    · exact Nat.zero_le _
    · have hold := hreg op rt hrt
      generalize (registry.step reg rc).2 = res at heff
      cases heff with
      | refused | repeated | rebound | dispatched | advanced => exact hold
      | recorded dst outcome _ _ _ _ _ _ hsome => exact hcalls rc List.mem_cons_self outcome hsome

section Store

variable {s s' : Coord} {c : ConnId} {a : Action} {evs : List Event}

/-- The log changes by the report of a loss only, and the idempotency entries never. -/
theorem Coord.Moves.log_cases (h : s.Moves c a s' evs) :
    s'.store.idem = s.store.idem ∧ (s'.store.failures = s.store.failures ∨
      ∃ cur b drawn, s.pc c = .lostReport cur b ∧
        s'.store.failures = (s.store.appendFailure (b.build drawn)).1.failures) := by
  cases h with
  | recorded a ch cur b hold =>
    refine ⟨?_, Or.inr ⟨cur, b, ch.drawn, hold, rfl⟩⟩
    show (s.store.appendFailure (b.build ch.drawn)).1.idem = s.store.idem
    rw [FailureStore.appendFailure_eq]
  | idle | localStep | callStep | register | dispatchLock | marked | markedAgain | lost
  | transferred | saveStart | saveItem | saveEnd => exact ⟨rfl, Or.inl rfl⟩

/-- What a step calls records the text of a completion, or none. -/
theorem Coord.Moves.outcome_le (h : s.Moves c a s' evs)
    (hs : ∀ op rt, s.store.ops.find op = some rt → rt.terminalOutcome.length ≤ 0xFFFF) :
    ∀ op rt, s'.store.ops.find op = some rt → rt.terminalOutcome.length ≤ 0xFFFF := by
  rcases h.outcome_eq_none with hnone | ⟨ch, op', e, -, -, hops⟩
  · rw [h.ops_eq.1]
    refine outcome_le_run _ (fun rc hrc o ho => ?_) hs
    rw [hnone rc hrc] at ho
    cases ho
  · rw [hops]
    refine outcome_le_run [.confirmCompletion op' e] (fun rc hrc o ho => ?_) hs
    obtain rfl := List.mem_singleton.mp hrc
    obtain rfl : completedText = o := Option.some.inj ho
    decide

/-- **Step lemma.** The coordinator stores nothing that is too long to be written. -/
theorem Coord.Moves.whole (h : s.Moves c a s' evs) (hbegun : s.Begun) (hs : s.store.Whole) :
    s'.store.Whole := by
  obtain ⟨hidem, hlog⟩ := h.log_cases
  have hrecords : ∀ id rec, s'.store.failures.lookup id = some rec →
      s.store.failures.lookup id = some rec ∨ rec.failureId = id ∧
        (SnapshotEntry.failure rec).cut = .failure rec ∧ (SnapshotEntry.failure rec).Bounded := by
    intro id rec hlookup
    rcases hlog with hsame | ⟨cur, b, drawn, hpc, happended⟩
    · rw [hsame] at hlookup
      exact Or.inl hlookup
    · obtain ⟨s₀, now, rfl⟩ := hbegun c cur b hpc
      rw [happended, appendFailure_failures] at hlookup
      split_ifs at hlookup with hadmits
      · rw [UnorderedMap.lookup_insert'] at hlookup
        split_ifs at hlookup with hid
        · obtain rfl := Option.some.inj hlookup
          have hbounded : (0 : Nat) < 2 ^ 32 := by decide
          exact Or.inr ⟨hid.symm, rfl, hbounded⟩
        · exact Or.inl hlookup
      · exact Or.inl hlookup
  constructor
  · exact h.outcome_le hs.outcome_le
  · intro id rec hlookup
    rcases hrecords id rec hlookup with hold | ⟨hid, -⟩
    · exact hs.keyed id rec hold
    · exact hid
  · intro id rec hlookup
    rcases hrecords id rec hlookup with hold | ⟨-, hrec⟩
    · exact hs.record id rec hold
    · exact hrec
  · rw [hidem]
    exact hs.metadata_le

end Store

/-! ### Loading a file that a crash has cut -/

section Crash

variable {is : List Incident} {disk : Option (List UInt8)}

/-- What a list of entries restores is among them. -/
theorem mem_of_in_restored {es : List SnapshotEntry} {e : SnapshotEntry} (h : e.In (restored es)) :
    e ∈ es ∨ ∃ own, e = .ownership own := by
  cases e with
  | operation op rt =>
    obtain ⟨⟨op', rt'⟩, hmem, rfl, rfl⟩ := UnorderedMap.exists_of_lookup_made h
    exact Or.inl (mem_operationsOf.mp hmem)
  | failure rec =>
    obtain ⟨rec', hmem, -, rfl⟩ := UnorderedMap.exists_of_lookup_made h
    exact Or.inl (mem_failuresOf.mp hmem)
  | idempotency ev =>
    obtain ⟨e, hfind, hsaved⟩ := h
    obtain ⟨ev', hmem, hpair, rfl⟩ := UnorderedMap.exists_of_lookup_made hfind
    refine Or.inl ?_
    have heq : ev' = ev := by
      obtain ⟨op, key, hash, state, metadata⟩ := ev
      obtain ⟨op', key', hash', state', metadata'⟩ := ev'
      simp_all [IdempotencyEntry.saved]
    rw [← heq]
    exact mem_identsOf.mp hmem
  | ownership own => exact Or.inr ⟨own, rfl⟩

/-- **Crash lemma.** Whatever first part of a sound file is left, what is loaded of it was in the
    store before. -/
theorem FileSound.load (h : FileSound is disk) (cut : Nat) {e : SnapshotEntry}
    (hin : e.In (({} : FailureStore).load (disk.map (·.take cut))).1) :
    ∃ pre, pre <+: is ∧ e.In (Coord.after pre).store := by
  rcases load_cases {} (disk.map (·.take cut)) with ⟨own, hkept⟩ |
    ⟨data, nfail, nop, nid, es, hdata, -, hparses, hrestored⟩
  · -- nothing is loaded
    rw [hkept] at hin
    cases e with
    | operation op rt => exact absurd hin (by simp [SnapshotEntry.In, OperationRegistry.find])
    | failure rec => exact absurd hin (by simp [SnapshotEntry.In])
    | idempotency ev =>
      obtain ⟨e, hfind, -⟩ := hin
      exact absurd hfind (by simp [IdempotencyStore.find])
    | ownership own => exact ⟨[], List.nil_prefix, trivial⟩
  · rw [hrestored] at hin
    rcases mem_of_in_restored hin with hmem | ⟨own, rfl⟩
    · obtain ⟨whole, hdisk, rfl⟩ := Option.map_eq_some_iff.mp hdata
      obtain ⟨cfail, cop, cid, entries, hpre, hentries⟩ := h whole hdisk
      obtain ⟨kept, hkept, -, -, rfl, -⟩ := kept_of_parsesTo
        (fun e he _ => (hentries e he).bounded) ((List.take_prefix cut whole).trans hpre) hparses
      obtain ⟨e', he', rfl⟩ := List.mem_map.mp hmem
      have hsound := hentries e' (hkept.subset he')
      rw [hsound.whole]
      exact hsound.stored
    · exact ⟨[], List.nil_prefix, trivial⟩

theorem FileSound.take (h : FileSound is disk) (cut : Nat) :
    FileSound is (disk.map (·.take cut)) := by
  intro data hdata
  obtain ⟨whole, hdisk, rfl⟩ := Option.map_eq_some_iff.mp hdata
  obtain ⟨nfail, nop, nid, es, hpre, hes⟩ := h whole hdisk
  exact ⟨nfail, nop, nid, es, (List.take_prefix cut whole).trans hpre, hes⟩

end Crash

/-! ### Runs -/

section Runs

variable {is : List Incident}

theorem Coord.after_concat (is : List Incident) (i : Incident) :
    Coord.after (is ++ [i]) = (restarting.step (Coord.after is) i).1 :=
  Machine.run_concat (M := restarting) _ is i

/-- A thread that saves is the only one. -/
theorem Coord.LockInv.eq_of_saving {s : Coord} (inv : s.LockInv) {c c' : ConnId}
    {todo todo' : List SaveItem} (hpc : s.pc c = .saving todo) (hpc' : s.pc c' = .saving todo') :
    c = c' :=
  Option.some.inj ((inv.locked c todo hpc).symm.trans (inv.locked c' todo' hpc'))

/-- What a step writes, and what it leaves to be written, is sound. -/
theorem RestartInv.writes (inv : RestartInv is) {s' : Coord} {c : ConnId} {a : Action}
    {evs : List Event} (h : (Coord.after is).Moves c a s' evs) :
    FileSound is s'.disk ∧ ∀ c' todo, s'.pc c' = .saving todo → Writing is s'.disk todo := by
  rcases h.saves with ⟨rfl, -⟩ | ⟨-, hpc', -, hdisk⟩ | ⟨ch, op, o, -, -, hfree, -, hs'⟩ |
    ⟨item, todo, hpc, -, hs'⟩ | ⟨hpc, -, hs'⟩
  · exact ⟨inv.file, inv.saving⟩
  · rw [hdisk]
    refine ⟨inv.file, fun c' todo hsaving => ?_⟩
    have hc : c' ≠ c := fun hc => hpc' todo (hc ▸ hsaving)
    exact inv.saving c' todo (by rwa [h.pc_of_ne hc] at hsaving)
  · -- the start of a save: nobody else saves
    have hdisk : s'.disk = some [] := by rw [hs']; rfl
    have hstart := Writing.start inv.whole o
    rw [hdisk]
    refine ⟨hstart.fileSound, fun c' todo hsaving => ?_⟩
    by_cases hc : c' = c
    · rw [hc, hs', Coord.goto_pc_self] at hsaving
      obtain rfl := Pc.saving.inj hsaving
      exact hstart
    · rw [h.pc_of_ne hc] at hsaving
      exact absurd ((inv.lock.locked c' todo hsaving).symm.trans hfree) (by simp)
  · -- one write
    have hdisk : s'.disk = (Coord.after is).disk.map (· ++ (Coord.after is).store.write item) := by
      rw [hs']
      rfl
    have hwrite := (inv.saving c _ hpc).write inv.whole
    rw [hdisk]
    refine ⟨hwrite.fileSound, fun c' todo' hsaving => ?_⟩
    by_cases hc : c' = c
    · rw [hc, hs', Coord.goto_pc_self] at hsaving
      obtain rfl := Pc.saving.inj hsaving
      exact hwrite
    · rw [h.pc_of_ne hc] at hsaving
      exact absurd (inv.lock.eq_of_saving hsaving hpc) hc
  · -- the end of a save: nobody saves any more
    have hdisk : s'.disk = (Coord.after is).disk := by rw [hs']; rfl
    rw [hdisk]
    refine ⟨inv.file, fun c' todo hsaving => ?_⟩
    by_cases hc : c' = c
    · rw [hc, hs', Coord.goto_pc_self] at hsaving
      cases hsaving
    · rw [h.pc_of_ne hc] at hsaving
      exact absurd (inv.lock.eq_of_saving hsaving hpc) hc

/-- **Step lemma.** Every step of the coordinator keeps the invariant. -/
theorem RestartInv.act (inv : RestartInv is) (a : Action) : RestartInv (is ++ [.act a]) := by
  have h := (Coord.after is).step_moves a
  have hafter : Coord.after (is ++ [.act a]) = ((Coord.after is).step a).1 := Coord.after_concat ..
  rw [← hafter] at h
  obtain ⟨hfile, hsaving⟩ := inv.writes h
  exact ⟨h.whole inv.begun inv.whole, inv.begun.step h, inv.lock.step h, hfile.mono,
    fun c todo hpc => (hsaving c todo hpc).mono⟩

/-- A crash and the next start keep the invariant. -/
theorem RestartInv.crash (inv : RestartInv is) (cut : Nat) : RestartInv (is ++ [.crash cut]) := by
  have hafter : Coord.after (is ++ [.crash cut]) =
      .boot ((Coord.after is).disk.map (·.take cut)) := Coord.after_concat ..
  constructor
  · rw [hafter]
    exact (load_wellFormed wellFormed_empty _).whole
  · rw [hafter]
    exact fun _ _ _ hpc => by cases hpc
  · rw [hafter]
    exact lockInv_boot _
  · rw [hafter]
    exact (inv.file.take cut).mono
  · rw [hafter]
    exact fun _ _ hpc => by cases hpc

/-- **Run lemma.** The invariant holds after every run with crashes. -/
theorem restartInv_run (is : List Incident) : RestartInv is := by
  induction is using List.reverseRecOn with
  | nil =>
    exact ⟨wellFormed_empty.whole, fun _ _ _ hpc => (by cases hpc), lockInv_boot none,
      fun _ hdata => (by cases hdata), fun _ _ hpc => (by cases hpc)⟩
  | append_singleton is i inv =>
    cases i with
    | act a => exact inv.act a
    | crash cut => exact inv.crash cut

end Runs

/-- Everything in the store was in the store of the process somewhere in the run. -/
def FailureStore.HeldIn (st : FailureStore) (is : List Incident) : Prop :=
  ∀ e : SnapshotEntry, e.In st → ∃ pre, pre <+: is ∧ e.In (Coord.after pre).store

/-- **A restart makes nothing up.** After any run that begins without a state file, with crashes at
    any steps, and a crash that leaves any first part of the state file, every operation, failure
    record and idempotency entry that the next start loads was in the store at some time before the
    crash, just as it comes back. -/
theorem restart_restores (is : List Incident) (cut : Nat) :
    (Coord.after (is ++ [.crash cut])).store.HeldIn is := by
  intro e hin
  have hafter : Coord.after (is ++ [.crash cut]) =
      .boot ((Coord.after is).disk.map (·.take cut)) := Coord.after_concat ..
  rw [hafter] at hin
  exact (restartInv_run is).file.load cut hin

/-! ### Recorded outcomes -/

/-- A completion was confirmed under the envelope. -/
def ConfirmedIn (t : List Event) (op : OperationId) (e : AuthorityEnvelope) : Prop :=
  .applied (.confirmCompletion op e) .OK ∈ t

theorem Coord.history_append (s : Coord) (is js : List Incident) :
    s.history (is ++ js) = s.history is ++ (restarting.run s is).history js := by
  unfold Coord.history
  rw [Machine.outputs_append, List.flatten_append]

theorem ConfirmedIn.of_earlier {pre is : List Incident} (hpre : pre <+: is) {op : OperationId}
    {e : AuthorityEnvelope} (h : ConfirmedIn ((Coord.boot none).history pre) op e) :
    ConfirmedIn ((Coord.boot none).history is) op e := by
  obtain ⟨post, rfl⟩ := hpre
  rw [Coord.history_append]
  exact List.mem_append_left _ h

/-- What a step leaves recorded was so before, or is confirmed in the step. -/
theorem confirmed_of_act {is : List Incident} {a : Action} {op : OperationId} {r : OperationRuntime}
    (hold : ∀ r, (Coord.after is).store.ops.find op = some r → r.terminalRecorded = true →
      ConfirmedIn ((Coord.boot none).history is) op r.terminal)
    (hr : (Coord.after (is ++ [.act a])).store.ops.find op = some r)
    (hrec : r.terminalRecorded = true) :
    ConfirmedIn ((Coord.boot none).history (is ++ [.act a])) op r.terminal := by
  have hmoves := (Coord.after is).step_moves a
  have hafter : Coord.after (is ++ [.act a]) = ((Coord.after is).step a).1 := Coord.after_concat ..
  rw [hafter] at hr
  by_cases hbefore : (Coord.after is).store.ops.Recorded op
  · obtain ⟨r₀, hr₀, hrec₀⟩ := hbefore
    obtain rfl : r₀ = r := Option.some.inj ((hmoves.find_of_recorded hr₀ hrec₀).symm.trans hr)
    exact (hold r₀ hr₀ hrec₀).of_earlier (List.prefix_append _ _)
  · obtain ⟨e, -, -, -, -, ⟨r₁, hr₁, -, -, rfl⟩, hevent⟩ :=
      hmoves.records_under hbefore ⟨r, hr, hrec⟩
    obtain rfl : r₁ = r := Option.some.inj (hr₁.symm.trans hr)
    unfold ConfirmedIn
    rw [Coord.history_append]
    refine List.mem_append_right _ ?_
    show _ ∈ [((Coord.after is).step a).2].flatten
    rw [List.flatten_singleton]
    exact hevent

/-- Every outcome that the store has recorded was confirmed, under just its envelope. -/
def FailureStore.OutcomesIn (st : FailureStore) (t : List Event) : Prop :=
  ∀ op r, st.ops.find op = some r → r.terminalRecorded = true → ConfirmedIn t op r.terminal

/-- **Recorded outcomes were confirmed.** After any run that begins without a state file, with
    crashes at any steps, whatever they leave of the file, the terminal outcome that is recorded of
    an operation was recorded by a confirmation of the coordinator under just that envelope, in this
    life of the process or in an earlier one. -/
theorem recorded_confirmed (is : List Incident) :
    (Coord.after is).store.OutcomesIn ((Coord.boot none).history is) := by
  suffices h : ∀ pre, pre <+: is →
      (Coord.after pre).store.OutcomesIn ((Coord.boot none).history pre) from
    h is (List.prefix_refl is)
  induction is using List.reverseRecOn with
  | nil =>
    intro pre hpre op r hr
    rw [List.prefix_nil.mp hpre] at hr
    cases hr
  | append_singleton is i ih =>
    intro pre hpre op r hr hrec
    rcases List.prefix_concat_iff.mp hpre with rfl | hpre
    · cases i with
      | act a => exact confirmed_of_act (ih is (List.prefix_refl is) op) hr hrec
      | crash cut =>
        rw [Coord.after_concat] at hr
        obtain ⟨pre', hpre', hr'⟩ :=
          (restartInv_run is).file.load cut (e := .operation op r) hr
        exact (ih pre' hpre' op r hr' hrec).of_earlier (hpre'.trans (List.prefix_append _ _))
    · exact ih pre hpre op r hr hrec

end FailureFabric
