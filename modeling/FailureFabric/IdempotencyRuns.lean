import FailureFabric.Idempotency

namespace FailureFabric

open Library

/-!
# Runs of the idempotency store

What a client may rely on over runs of any length, for one (operation, key) pair.

* `OneExecution` — between two `begin` calls on the pair that are both told to execute there is
  a `fail`.  The source breaks it: a `begin` that finds the entry `FAILED` answers `NEW` and
  leaves the entry `FAILED`, so every duplicate submission of the retry is told to execute too.
  `oneExecution_iff_retriesReported` is the exact condition.
* `StaysCompleted` — a completed pair replays its result in every later state.  The source
  breaks it in three calls: `fail` and `mark_conflict` overwrite the completed state, and a
  second `complete` overwrites the metadata.  `staysCompleted_iff` is the exact condition.
* `conflict_refused` — the payload hash of the first `begin` is kept for good, and every `begin`
  with another one is refused.
* `RefusesStale` — a submitter whose authority is older than the one of the first submission is
  refused.  The source keeps the authority in the entry and never looks at it again, so
  `refusesStale_iff` leaves the runs without such submitters only.
-/

variable {op : OperationId} {key : IdempotencyKey}

/-! ### What a call leaves alone -/

/-- The entry of the pair exists and keeps its payload hash over any run. -/
theorem payloadHash_run {s : IdempotencyStore} {h : UInt64}
    (hs : ∃ e, s.find op key = some e ∧ e.payloadHash = h) (cs : List IdempotencyCall) :
    ∃ e, (idempotency.run s cs).find op key = some e ∧ e.payloadHash = h := by
  induction cs generalizing s with
  | nil => exact hs
  | cons c cs ih =>
    obtain ⟨e, he, hhash⟩ := hs
    refine ih ?_
    by_cases hp : c.pair = ⟨op, key⟩
    · rw [find_step_self s hp, he]
      cases c <;> exact ⟨_, rfl, hhash⟩
    · exact ⟨e, by rw [find_step_of_ne s hp, he], hhash⟩

/-- A run without calls on the pair leaves its entry, or that there is none. -/
theorem find_run_of_ne (s : IdempotencyStore) {cs : List IdempotencyCall}
    (hcs : ∀ c ∈ cs, c.pair ≠ ⟨op, key⟩) :
    (idempotency.run s cs).find op key = s.find op key := by
  induction cs generalizing s with
  | nil => rfl
  | cons c cs ih =>
    rw [Machine.run_cons, ih _ (fun c' hc' => hcs c' (List.mem_cons_of_mem _ hc')),
      find_step_of_ne s (hcs c List.mem_cons_self)]

/-- A run without reports on the pair leaves its entry as it is. -/
theorem find_run_of_no_report {s : IdempotencyStore} {e : IdempotencyEntry}
    (hs : s.find op key = some e) {cs : List IdempotencyCall}
    (hcs : ∀ c ∈ cs, c.pair = ⟨op, key⟩ → c.reports = false) :
    (idempotency.run s cs).find op key = some e := by
  induction cs generalizing s with
  | nil => exact hs
  | cons c cs ih =>
    refine ih ?_ (fun c' hc' => hcs c' (List.mem_cons_of_mem _ hc'))
    by_cases hp : c.pair = ⟨op, key⟩
    · have hrep := hcs c List.mem_cons_self hp
      rw [find_step_self s hp, hs]
      cases c with
      | begin => rfl
      | complete | fail | markConflict => simp [IdempotencyCall.reports] at hrep
    · rw [find_step_of_ne s hp, hs]

/-- Only `fail` makes an entry `FAILED`: without it an entry that is not `FAILED` stays so. -/
theorem not_failed_run {s : IdempotencyStore}
    (hs : ∃ e, s.find op key = some e ∧ e.state ≠ .FAILED) {cs : List IdempotencyCall}
    (hcs : .fail op key ∉ cs) :
    ∃ e, (idempotency.run s cs).find op key = some e ∧ e.state ≠ .FAILED := by
  induction cs generalizing s with
  | nil => exact hs
  | cons c cs ih =>
    obtain ⟨e, he, hne⟩ := hs
    refine ih ?_ (fun h => hcs (List.mem_cons_of_mem _ h))
    by_cases hp : c.pair = ⟨op, key⟩
    · rw [find_step_self s hp, he]
      cases c with
      | begin => exact ⟨e, rfl, hne⟩
      | complete => exact ⟨_, rfl, by simp⟩
      | fail op' key' =>
        simp only [IdempotencyCall.pair, PairKey.mk.injEq] at hp
        exact absurd (by simp [hp.1, hp.2]) hcs
      | markConflict => exact ⟨_, rfl, by simp⟩
    · exact ⟨e, by rw [find_step_of_ne s hp, he], hne⟩

/-! ### At most one live execution -/

/-- In the state `s`, the call is a `begin` on the pair and is told to execute. -/
def ToldToExecute (s : IdempotencyStore) (c : IdempotencyCall) (op : OperationId)
    (key : IdempotencyKey) : Prop :=
  c.pair = ⟨op, key⟩ ∧ (idempotency.step s c).2 = some .NEW

/-- In the state `s`, the call is a `begin` on the pair that finds the entry `FAILED` with the
    payload hash it carries: it retries the failed execution. -/
def RetriesFailed (s : IdempotencyStore) (c : IdempotencyCall) (op : OperationId)
    (key : IdempotencyKey) (hash : UInt64) : Prop :=
  (∃ auth, c = .begin op key hash auth) ∧
    ∃ e, s.find op key = some e ∧ e.payloadHash = hash ∧ e.state = .FAILED

/-- Between any two `begin` calls on the pair that are told to execute there is a `fail`. -/
def OneExecution (s : IdempotencyStore) (cs : List IdempotencyCall) (op : OperationId)
    (key : IdempotencyKey) : Prop :=
  ∀ pre b₁ mid b₂ post, cs = pre ++ b₁ :: mid ++ b₂ :: post →
    ToldToExecute (idempotency.run s pre) b₁ op key →
    ToldToExecute (idempotency.run s (pre ++ b₁ :: mid)) b₂ op key →
    .fail op key ∈ mid

/-- Once a `begin` has retried the failed execution of the pair, the outcome of the retry is
    reported (`complete`, `fail` or `mark_conflict`) before the same payload is begun again. -/
def RetriesReported (s : IdempotencyStore) (cs : List IdempotencyCall) (op : OperationId)
    (key : IdempotencyKey) : Prop :=
  ∀ pre b₁ mid hash auth post, cs = pre ++ b₁ :: mid ++ .begin op key hash auth :: post →
    RetriesFailed (idempotency.run s pre) b₁ op key hash →
    ∃ c ∈ mid, c.pair = ⟨op, key⟩ ∧ c.reports = true

/-- A call is told to execute exactly when it is a `begin` that creates the entry of its pair or
    retries a failed one. -/
theorem toldToExecute_iff (s : IdempotencyStore) (c : IdempotencyCall) :
    ToldToExecute s c op key ↔
      ∃ hash auth, c = .begin op key hash auth ∧
        (s.find op key = none ∨ RetriesFailed s c op key hash) := by
  constructor
  · rintro ⟨hp, hnew⟩
    cases c with
    | begin op' key' hash auth =>
      simp only [IdempotencyCall.pair, PairKey.mk.injEq] at hp
      obtain ⟨rfl, rfl⟩ := hp
      refine ⟨hash, auth, rfl, ?_⟩
      simp only [idempotency, IdempotencyStore.begin] at hnew
      cases he : s.find op' key' with
      | none => exact Or.inl rfl
      | some e =>
        refine Or.inr ⟨⟨auth, rfl⟩, e, he, ?_⟩
        rw [he] at hnew
        dsimp only at hnew
        split_ifs at hnew <;> simp_all
    | complete | fail | markConflict => simp [idempotency] at hnew
  · rintro ⟨hash, auth, rfl, hfind⟩
    refine ⟨rfl, ?_⟩
    rcases hfind with hnone | ⟨-, e, he, hhash, hfailed⟩
    · simp [idempotency, IdempotencyStore.begin, hnone]
    · simp [idempotency, IdempotencyStore.begin, he, hhash, hfailed]

/-- After a `begin` that creates the entry, the entry exists and is not `FAILED`. -/
theorem begin_creates {s : IdempotencyStore} (hash : UInt64) (auth : AuthorityEnvelope)
    (hs : s.find op key = none) :
    ∃ e, (idempotency.step s (.begin op key hash auth)).1.find op key = some e ∧
      e.state ≠ .FAILED := by
  rw [find_step_self s rfl, hs]
  exact ⟨_, rfl, by simp⟩

/-- While the entry is not `FAILED` and no `fail` comes, no call is told to execute. -/
theorem not_toldToExecute_run {s : IdempotencyStore}
    (hs : ∃ e, s.find op key = some e ∧ e.state ≠ .FAILED) {cs : List IdempotencyCall}
    (hcs : .fail op key ∉ cs) (c : IdempotencyCall) :
    ¬ ToldToExecute (idempotency.run s cs) c op key := by
  intro htold
  obtain ⟨e, he, hne⟩ := not_failed_run hs hcs
  obtain ⟨hash, auth, rfl, hfind⟩ := (toldToExecute_iff _ _).mp htold
  rcases hfind with hnone | ⟨-, e', he', -, hfailed⟩
  · rw [he] at hnone
    exact absurd hnone (by simp)
  · rw [he] at he'
    exact hne (by rw [Option.some.inj he']; exact hfailed)

/-- A report that is no `fail` leaves an entry that is not `FAILED`. -/
theorem not_failed_of_report {s : IdempotencyStore} {c : IdempotencyCall}
    (hpair : c.pair = ⟨op, key⟩) (hreports : c.reports = true) (hc : c ≠ .fail op key) :
    ∃ e, (idempotency.step s c).1.find op key = some e ∧ e.state ≠ .FAILED := by
  rw [find_step_self _ hpair]
  cases c with
  | begin => simp [IdempotencyCall.reports] at hreports
  | complete => exact ⟨_, rfl, by simp⟩
  | fail op' key' =>
    obtain ⟨rfl, rfl⟩ := PairKey.mk.inj hpair
    exact absurd rfl hc
  | markConflict => exact ⟨_, rfl, by simp⟩

/-- **At most one live execution, exactly.**  For every run from every store and every pair:
    two `begin` calls on the pair are never both told to execute without a `fail` in between if
    and only if the outcome of every retry of a failed execution is reported before the same
    payload is begun again. -/
theorem oneExecution_iff_retriesReported (s : IdempotencyStore) (cs : List IdempotencyCall)
    (op : OperationId) (key : IdempotencyKey) :
    OneExecution s cs op key ↔ RetriesReported s cs op key := by
  constructor
  · intro hone pre b₁ mid hash auth post hcs hretry
    by_contra hnone
    simp only [not_exists, not_and, Bool.not_eq_true] at hnone
    obtain ⟨⟨auth₁, rfl⟩, e, he, hhash, hfailed⟩ := hretry
    -- Without a report the entry is still the failed one, so the second `begin` retries too.
    have hkept : (idempotency.run s (pre ++ .begin op key hash auth₁ :: mid)).find op key
        = some e := by
      rw [Machine.run_append, Machine.run_cons]
      refine find_run_of_no_report ?_ hnone
      rw [find_step_self _ rfl, he]
      rfl
    have htold₁ := (toldToExecute_iff (idempotency.run s pre) _).mpr
      ⟨hash, auth₁, rfl, Or.inr ⟨⟨auth₁, rfl⟩, e, he, hhash, hfailed⟩⟩
    have htold₂ := (toldToExecute_iff _ (.begin op key hash auth)).mpr
      ⟨hash, auth, rfl, Or.inr ⟨⟨auth, rfl⟩, e, hkept, hhash, hfailed⟩⟩
    have hfail := hone pre _ mid _ post hcs htold₁ htold₂
    exact absurd (hnone _ hfail rfl) (by simp [IdempotencyCall.reports])
  · intro hrep pre b₁ mid b₂ post hcs htold₁ htold₂
    by_contra hnofail
    obtain ⟨h₁, auth₁, rfl, hfind₁⟩ := (toldToExecute_iff _ _).mp htold₁
    obtain ⟨h₂, auth₂, rfl, hfind₂⟩ := (toldToExecute_iff _ _).mp htold₂
    -- It is enough that some state after the first `begin` and before the second has an entry
    -- that is not `FAILED`: only a `fail` could make it `FAILED` again.
    rcases hfind₁ with hnone | ⟨-, e, he, hhash, hfailed⟩
    · rw [Machine.run_append, Machine.run_cons] at htold₂
      exact not_toldToExecute_run (begin_creates h₁ auth₁ hnone) hnofail _ htold₂
    · -- The payload hash is kept, so both `begin` calls carry the same one.
      obtain ⟨e₂, he₂, hhash₂⟩ := payloadHash_run ⟨e, he, hhash⟩ (.begin op key h₁ auth₁ :: mid)
      rw [← Machine.run_append] at he₂
      have hsame : h₂ = h₁ := by
        rcases hfind₂ with hnone | ⟨-, e', he', hhash', -⟩
        · rw [he₂] at hnone; exact absurd hnone (by simp)
        · rw [he₂] at he'
          rw [← hhash', ← Option.some.inj he', hhash₂]
      subst hsame
      obtain ⟨c, hc, hpair, hreports⟩ :=
        hrep pre _ mid h₂ auth₂ post hcs ⟨⟨auth₁, rfl⟩, e, he, hhash, hfailed⟩
      obtain ⟨m₁, m₂, rfl⟩ := List.append_of_mem hc
      rw [← List.cons_append, ← List.append_assoc, Machine.run_append, Machine.run_cons] at htold₂
      refine not_toldToExecute_run (not_failed_of_report hpair hreports ?_)
        (fun h => hnofail (by simp [h])) _ htold₂
      rintro rfl
      exact hnofail hc

/-- Two submissions of a failed payload are both told to execute: `begin`, `fail`, `begin`,
    `begin` from the empty store. -/
theorem two_live_executions :
    ¬ OneExecution {}
      [.begin ⟨.ofByte 1⟩ ⟨.ofByte 2⟩ 7 {}, .fail ⟨.ofByte 1⟩ ⟨.ofByte 2⟩,
        .begin ⟨.ofByte 1⟩ ⟨.ofByte 2⟩ 7 {}, .begin ⟨.ofByte 1⟩ ⟨.ofByte 2⟩ 7 {}]
      ⟨.ofByte 1⟩ ⟨.ofByte 2⟩ := by
  intro hone
  have hfail := hone
    [.begin ⟨.ofByte 1⟩ ⟨.ofByte 2⟩ 7 {}, .fail ⟨.ofByte 1⟩ ⟨.ofByte 2⟩]
    (.begin ⟨.ofByte 1⟩ ⟨.ofByte 2⟩ 7 {}) [] (.begin ⟨.ofByte 1⟩ ⟨.ofByte 2⟩ 7 {}) [] rfl
    ⟨rfl, by decide⟩ ⟨rfl, by decide⟩
  exact absurd hfail (by simp)

/-! ### A completed operation stays completed -/

/-- In the run the pair was begun with this payload hash: one of its `begin` calls carried the
    hash and was not refused as a conflict. -/
def Begun (s : IdempotencyStore) (cs : List IdempotencyCall) (op : OperationId)
    (key : IdempotencyKey) (hash : UInt64) : Prop :=
  ∃ pre auth post, cs = pre ++ .begin op key hash auth :: post ∧
    ((idempotency.run s pre).begin op key hash auth).2 ≠ .CONFLICT

/-- In the state `s` every `begin` on the pair with this hash replays the completed result, and
    the result is this metadata. -/
def ReplaysResult (s : IdempotencyStore) (op : OperationId) (key : IdempotencyKey)
    (hash : UInt64) (metadata : Text) : Prop :=
  (∀ auth, (s.begin op key hash auth).2 = .COMPLETED_REPLAY) ∧
    s.priorResult op key = some metadata

/-- In every state of the run the completed result is replayed. -/
def StaysCompleted (s : IdempotencyStore) (cs : List IdempotencyCall) (op : OperationId)
    (key : IdempotencyKey) (hash : UInt64) (metadata : Text) : Prop :=
  ∀ pre post, cs = pre ++ post → ReplaysResult (idempotency.run s pre) op key hash metadata

/-- A result is replayed exactly when the entry is `COMPLETED` with this hash and metadata. -/
theorem replaysResult_iff (s : IdempotencyStore) (hash : UInt64) (metadata : Text) :
    ReplaysResult s op key hash metadata ↔
      ∃ e, s.find op key = some e ∧ e.payloadHash = hash ∧ e.state = .COMPLETED ∧
        e.resultMetadata = metadata := by
  unfold ReplaysResult IdempotencyStore.begin IdempotencyStore.priorResult
  cases he : s.find op key with
  | none => simp
  | some e =>
    constructor
    · rintro ⟨hbegin, hprior⟩
      have hb := hbegin {}
      dsimp only at hb hprior
      split_ifs at hb hprior
      all_goals simp_all
    · rintro ⟨e', he', hhash, hstate, hmeta⟩
      obtain rfl := Option.some.inj he'
      simp [hhash, hstate, hmeta]

/-- A begun pair has an entry with the hash it was begun with. -/
theorem Begun.find {s : IdempotencyStore} {cs : List IdempotencyCall} {hash : UInt64}
    (h : Begun s cs op key hash) :
    ∃ e, (idempotency.run s cs).find op key = some e ∧ e.payloadHash = hash := by
  obtain ⟨pre, auth, post, rfl, hverdict⟩ := h
  rw [Machine.run_append, Machine.run_cons]
  refine payloadHash_run ?_ post
  rw [find_step_self _ rfl]
  cases he : (idempotency.run s pre).find op key with
  | none => exact ⟨_, rfl, rfl⟩
  | some e =>
    refine ⟨e, rfl, ?_⟩
    by_contra hne
    exact hverdict (by simp [IdempotencyStore.begin, he, hne])

/-- A call keeps a completed entry completed with its metadata exactly when it is about another
    pair, or a `begin`, or a `complete` with the same metadata. -/
theorem replaysResult_step {s : IdempotencyStore} {hash : UInt64} {metadata : Text}
    (h : ReplaysResult s op key hash metadata) (c : IdempotencyCall) :
    ReplaysResult (idempotency.step s c).1 op key hash metadata ↔
      (c.pair = ⟨op, key⟩ → c.reports = true → c = .complete op key metadata) := by
  obtain ⟨e, he, hhash, hstate, hmeta⟩ := (replaysResult_iff s hash metadata).mp h
  rw [replaysResult_iff]
  by_cases hp : c.pair = ⟨op, key⟩
  · rw [find_step_self s hp, he]
    cases c
    all_goals
      simp only [IdempotencyCall.pair, PairKey.mk.injEq] at hp
      obtain ⟨rfl, rfl⟩ := hp
      simp [IdempotencyCall.onEntry, IdempotencyCall.reports, IdempotencyCall.pair, hhash,
        hstate, hmeta]
  · rw [find_step_of_ne s hp]
    exact ⟨fun _ hp' => absurd hp' hp, fun _ => ⟨e, he, hhash, hstate, hmeta⟩⟩

/-- From a state that replays the result, every state of a run does if and only if every report
    on the pair is a `complete` with the same metadata. -/
theorem staysCompleted_iff_of_replaysResult {s : IdempotencyStore} {hash : UInt64}
    {metadata : Text} (h : ReplaysResult s op key hash metadata) (cs : List IdempotencyCall) :
    StaysCompleted s cs op key hash metadata ↔
      ∀ c ∈ cs, c.pair = ⟨op, key⟩ → c.reports = true → c = .complete op key metadata := by
  -- the state changes along the run, so the induction is over every state that replays the result
  induction cs generalizing s with
  | nil =>
    refine ⟨fun _ c hc => absurd hc (by simp), fun _ pre post hcs => ?_⟩
    obtain ⟨rfl, -⟩ := List.append_eq_nil_iff.mp hcs.symm
    exact h
  | cons c cs ih =>
    rw [List.forall_mem_cons]
    constructor
    · intro hstays
      have hstep := hstays [c] cs rfl
      refine ⟨(replaysResult_step h c).mp hstep, (ih hstep).mp ?_⟩
      intro pre post hcs
      exact hstays (c :: pre) post (by rw [hcs, List.cons_append])
    · rintro ⟨hc, hrest⟩ pre post hcs
      cases pre with
      | nil => exact h
      | cons c' pre =>
        obtain ⟨rfl, htail⟩ := List.cons.inj hcs
        exact (ih ((replaysResult_step h c).mpr hc)).mpr hrest pre post htail

/-- **A completed operation stays completed, exactly.**  Let a run from the empty store have
    begun the pair with a payload hash and then complete it.  In every later state every `begin`
    with that hash is answered `COMPLETED_REPLAY` and `prior_result` gives that metadata if and
    only if no later call on the pair is a `fail`, a `mark_conflict` or a `complete` with other
    metadata. -/
theorem staysCompleted_iff (pre post : List IdempotencyCall) (op : OperationId)
    (key : IdempotencyKey) (hash : UInt64) (metadata : Text) (hbegun : Begun {} pre op key hash) :
    StaysCompleted (idempotency.run {} (pre ++ [.complete op key metadata])) post op key hash
        metadata ↔
      ∀ c ∈ post, c.pair = ⟨op, key⟩ → c.reports = true → c = .complete op key metadata := by
  refine staysCompleted_iff_of_replaysResult ?_ post
  obtain ⟨e, he, hhash⟩ := hbegun.find
  rw [replaysResult_iff, Machine.run_append, Machine.run_cons, Machine.run_nil,
    find_step_self _ rfl, he]
  exact ⟨_, rfl, hhash, rfl, rfl⟩

/-- The condition is met by a run in which a duplicate worker completes with the same result. -/
theorem staysCompleted_iff_duplicate :
    StaysCompleted
        (idempotency.run {} ([.begin ⟨.ofByte 1⟩ ⟨.ofByte 2⟩ 7 {}] ++
          [.complete ⟨.ofByte 1⟩ ⟨.ofByte 2⟩ [65]]))
        [.complete ⟨.ofByte 1⟩ ⟨.ofByte 2⟩ [65]] ⟨.ofByte 1⟩ ⟨.ofByte 2⟩ 7 [65] ↔
      ∀ c ∈ [IdempotencyCall.complete ⟨.ofByte 1⟩ ⟨.ofByte 2⟩ [65]],
        c.pair = ⟨⟨.ofByte 1⟩, ⟨.ofByte 2⟩⟩ → c.reports = true →
          c = .complete ⟨.ofByte 1⟩ ⟨.ofByte 2⟩ [65] :=
  staysCompleted_iff [.begin ⟨.ofByte 1⟩ ⟨.ofByte 2⟩ 7 {}] _ _ _ _ _
    ⟨[], {}, [], rfl, by decide⟩

/-- A late `fail` makes a completed payload execute again: after `begin`, `complete`, `fail` the
    next `begin` is answered `NEW`. -/
theorem completed_reexecuted :
    ¬ StaysCompleted
      (idempotency.run {} ([.begin ⟨.ofByte 1⟩ ⟨.ofByte 2⟩ 7 {}] ++
        [.complete ⟨.ofByte 1⟩ ⟨.ofByte 2⟩ [65]]))
      [.fail ⟨.ofByte 1⟩ ⟨.ofByte 2⟩] ⟨.ofByte 1⟩ ⟨.ofByte 2⟩ 7 [65] := by
  intro hstays
  have hreplay := (hstays [.fail ⟨.ofByte 1⟩ ⟨.ofByte 2⟩] [] rfl).1 {}
  exact absurd hreplay (by decide)

/-! ### A conflicting payload -/

/-- A `begin` with another payload hash than the one of the entry changes nothing. -/
theorem begin_of_ne {s : IdempotencyStore} {e : IdempotencyEntry} (he : s.find op key = some e)
    {hash : UInt64} (hne : hash ≠ e.payloadHash) (auth : AuthorityEnvelope) :
    s.begin op key hash auth = (s, .CONFLICT) := by
  unfold IdempotencyStore.begin
  rw [he]
  dsimp only
  rw [if_pos (bne_iff_ne.mpr hne.symm)]

/-- The payload hash of the first call on a pair, a `begin`, is the one of its entry ever after. -/
theorem payloadHash_of_first {pre : List IdempotencyCall} (hpre : ∀ c ∈ pre, c.pair ≠ ⟨op, key⟩)
    (hash : UInt64) (auth : AuthorityEnvelope) (later : List IdempotencyCall) :
    ∃ e, (idempotency.run {} (pre ++ .begin op key hash auth :: later)).find op key = some e ∧
      e.payloadHash = hash := by
  rw [Machine.run_append, Machine.run_cons]
  refine payloadHash_run ?_ later
  have hnone : (idempotency.run {} pre).find op key = none := find_run_of_ne {} hpre
  rw [find_step_self _ rfl, hnone]
  exact ⟨_, rfl, rfl⟩

/-- **A conflicting payload never gets through.**  In a run from the empty store let the first
    call on a pair be a `begin`.  After any later calls, on this pair or on others, its payload
    hash is still the one that is kept, and a `begin` on the pair with another hash is answered
    `CONFLICT` and leaves the store as it is. -/
theorem conflict_refused {pre : List IdempotencyCall} {op : OperationId} {key : IdempotencyKey}
    (hpre : ∀ c ∈ pre, c.pair ≠ ⟨op, key⟩) (hash : UInt64) (auth : AuthorityEnvelope)
    (later : List IdempotencyCall) :
    (∃ e, (idempotency.run {} (pre ++ .begin op key hash auth :: later)).find op key = some e ∧
      e.payloadHash = hash) ∧
    ∀ hash' auth', hash' ≠ hash →
      (idempotency.run {} (pre ++ .begin op key hash auth :: later)).begin op key hash' auth' =
        (idempotency.run {} (pre ++ .begin op key hash auth :: later), .CONFLICT) := by
  obtain ⟨e, he, hkept⟩ := payloadHash_of_first hpre hash auth later
  refine ⟨⟨e, he, hkept⟩, fun hash' auth' hne => begin_of_ne he ?_ auth'⟩
  rw [hkept]
  exact hne

/-- Also after a failure, and with a call on another pair in front. -/
theorem conflict_refused_failed :
    (∃ e, (idempotency.run {} ([.complete ⟨.ofByte 1⟩ ⟨.ofByte 3⟩ []] ++
        .begin ⟨.ofByte 1⟩ ⟨.ofByte 2⟩ 7 {} :: [.fail ⟨.ofByte 1⟩ ⟨.ofByte 2⟩])).find
          ⟨.ofByte 1⟩ ⟨.ofByte 2⟩ = some e ∧ e.payloadHash = 7) ∧
    ∀ hash' auth', hash' ≠ 7 →
      (idempotency.run {} ([.complete ⟨.ofByte 1⟩ ⟨.ofByte 3⟩ []] ++
        .begin ⟨.ofByte 1⟩ ⟨.ofByte 2⟩ 7 {} :: [.fail ⟨.ofByte 1⟩ ⟨.ofByte 2⟩])).begin
          ⟨.ofByte 1⟩ ⟨.ofByte 2⟩ hash' auth' =
        (idempotency.run {} ([.complete ⟨.ofByte 1⟩ ⟨.ofByte 3⟩ []] ++
          .begin ⟨.ofByte 1⟩ ⟨.ofByte 2⟩ 7 {} :: [.fail ⟨.ofByte 1⟩ ⟨.ofByte 2⟩]), .CONFLICT) :=
  conflict_refused (by decide) 7 {} [.fail ⟨.ofByte 1⟩ ⟨.ofByte 2⟩]

/-! ### A stale submitter -/

/-- In the run the first `begin` on the pair, after `pre`, is under one authority, and a later one
    with the same hash, after `mid`, under one with an older epoch or attempt generation. -/
structure StaleSubmission (cs pre mid : List IdempotencyCall) (op : OperationId)
    (key : IdempotencyKey) (hash : UInt64) (auth auth' : AuthorityEnvelope) : Prop where
  first : ∀ c ∈ pre, c.pair = ⟨op, key⟩ → c.reports = true
  within : pre ++ .begin op key hash auth :: mid ++ [.begin op key hash auth'] <+: cs
  older : auth'.coordinatorEpoch < auth.coordinatorEpoch ∨
    auth'.attemptGeneration < auth.attemptGeneration

/-- In the run every stale submission is answered `STALE`. -/
def RefusesStale (s : IdempotencyStore) (cs : List IdempotencyCall) : Prop :=
  ∀ pre mid op key hash auth auth', StaleSubmission cs pre mid op key hash auth auth' →
    ((idempotency.run s (pre ++ .begin op key hash auth :: mid)).begin op key hash auth').2 =
      .STALE

/-- No answer of `begin` is `STALE`, in whatever state it finds the entry. -/
theorem begin_ne_stale (s : IdempotencyStore) (op : OperationId) (key : IdempotencyKey)
    (hash : UInt64) (auth : AuthorityEnvelope) : (s.begin op key hash auth).2 ≠ .STALE := by
  unfold IdempotencyStore.begin
  cases s.find op key with
  | none => simp
  | some e =>
    dsimp only
    split_ifs <;> simp

/-- **Stale submitters are never refused.** From any store and after every run, no `begin` is
    answered `STALE`; so stale submitters are refused exactly in the runs that have none. -/
theorem refusesStale_iff (s : IdempotencyStore) (cs : List IdempotencyCall) :
    (∀ op key hash auth, ((idempotency.run s cs).begin op key hash auth).2 ≠ .STALE) ∧
    (RefusesStale s cs ↔
      ∀ pre mid op key hash auth auth',
        ¬ StaleSubmission cs pre mid op key hash auth auth') := by
  refine ⟨begin_ne_stale _, ?_, ?_⟩
  · intro hrefuses pre mid op key hash auth auth' hstale
    exact begin_ne_stale _ _ _ _ _ (hrefuses pre mid op key hash auth auth' hstale)
  · intro hnone pre mid op key hash auth auth' hstale
    exact absurd hstale (hnone pre mid op key hash auth auth')

/-- After a failure an attempt of an older epoch is told to execute. -/
theorem stale_submitter_executes :
    ¬ RefusesStale {}
      [.begin ⟨.ofByte 1⟩ ⟨.ofByte 2⟩ 7 { coordinatorEpoch := ⟨2⟩ },
        .fail ⟨.ofByte 1⟩ ⟨.ofByte 2⟩,
        .begin ⟨.ofByte 1⟩ ⟨.ofByte 2⟩ 7 { coordinatorEpoch := ⟨1⟩ }] := by
  intro hrefuses
  have hstale := hrefuses [] [.fail ⟨.ofByte 1⟩ ⟨.ofByte 2⟩] ⟨.ofByte 1⟩ ⟨.ofByte 2⟩ 7
    { coordinatorEpoch := ⟨2⟩ } { coordinatorEpoch := ⟨1⟩ }
    ⟨fun c hc => absurd hc List.not_mem_nil, List.prefix_rfl, .inl (by decide)⟩
  exact absurd hstale (by decide)

end FailureFabric
