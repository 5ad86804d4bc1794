import FailureFabric.Boots
import FailureFabric.Losses

namespace FailureFabric

open Library

/-!
# Targets

A target is taken from `g_workers`, or is the first of `g_reg_order` if its worker is in
`g_workers`.  The thread of a lost connection takes it out of `g_workers` only when it is the
running one, and only under the id that it registered last.  Nothing is taken out of `g_reg_order`.

* `TargetsLive` — nothing is dispatched to a connection whose loss has been handled, nor could be;
* `targetsStand` — the condition on a step under which a loss takes the connection out for good;
* `regOrder_prefix` — `g_reg_order` only grows, so the test for `g_workers` has to keep lost
  connections from being chosen;
* `TargetInv` — a lost connection is not listed, and a handled one is nobody's target;
* `targets_live` — the invariant carries the property over every run whose steps meet the
  condition.
-/

/-- The connection that the thread has chosen as a target and not sent to yet. -/
def Pc.target : Pc → Option ConnId
  | dispatchSend _ _ target => some target
  | lostVerify _ replacement => replacement
  | lostSend _ r => some r
  | _ => none

/-- Some thread has chosen the connection as a target and not sent to it yet. -/
def Coord.Aimed (s : Coord) (c : ConnId) : Prop := ∃ c', (s.pc c').target = some c

/-- Nothing is dispatched to a connection whose loss has been handled, and whenever one has been,
    it is not in `g_workers` and not the choice that is made from `g_reg_order`. -/
def TargetsLive (s₀ : Coord) (acts : List Action) : Prop :=
  (∀ pre a post, acts = pre ++ a :: post → ∀ c m,
      .sent c m ∈ ((coordinator.run s₀ pre).step a).2 → m.type = .DISPATCH →
        (coordinator.run s₀ pre).pc c ≠ .ended) ∧
    ∀ pre post, acts = pre ++ post → ∀ c, (coordinator.run s₀ pre).pc c = .ended →
      (∀ w ∈ (coordinator.run s₀ pre).workers, w.2 ≠ c) ∧
        (coordinator.run s₀ pre).replacement ≠ some c

/-- The id under which a `REGISTER` lists its connection. -/
def registeredId (m : WireMessage) (ch : Choice) : WorkerId :=
  if m.worker.isNull then Id.generate ch.drawn else m.worker

/-- The first critical section of the loss takes the connection out of the tables: it is the
    running one, and listed under its last id only, or it is not listed at all. -/
def Coord.Unlists (s : Coord) (c : ConnId) : Prop :=
  if s.runningConn = some c then ∀ w ∈ s.workers, w.2 = c → w.1 = (s.conn c).wid
  else (∀ w ∈ s.workers, w.2 ≠ c) ∧
    (s.regOrder.head? = some c → ∀ w ∈ s.workers, w.1 ≠ (s.conn c).wid)

instance (s : Coord) (c : ConnId) : Decidable (s.Unlists c) := by
  unfold Coord.Unlists
  infer_instance

/-- The step leaves no lost connection for a target. -/
def targetsStand (s : Coord) : Action → Prop
  | .proceed c ch =>
    match s.pc c with
    -- no worker comes back under the id of the first connection after its loss
    | .handle m => m.type = .REGISTER → ∀ r ∈ s.regOrder.head?, (s.pc r).lost = true →
        registeredId m ch ≠ (s.conn r).wid
    | .lostLock => s.holder = none →
        s.Unlists c ∧ (s.runningConn ≠ some c → ¬ s.Aimed c)
    -- the thread returns, and nobody is about to send to its connection
    | .lostCheck => s.finished = true → ¬ s.Aimed c
    | .lostVerify _ replacement =>
      (replacement = none ∨ isTerminal (s.store.ops.state s.currentOp) = true) → ¬ s.Aimed c
    | .lostMark _ => s.holder = none → ¬ s.Aimed c
    | _ => True
  | _ => True

/-! ### The tables -/

section Tables

variable {s s' : Coord} {c : ConnId} {a : Action} {evs : List Event}

/-- A target is chosen from the tables. -/
theorem Coord.Moves.target_of {r : ConnId} (h : s.Moves c a s' evs)
    (htarget : (s'.pc c).target = some r) :
    (s.pc c).target = some r ∨ (∃ w ∈ s.workers, w.2 = r) ∨ s.replacement = some r := by
  cases h with
  | idle => exact Or.inl htarget
  | localStep a new evs h =>
    rw [goto_pc_self] at htarget
    generalize s.pc c = pc at h
    cases h <;> first | exact Or.inl htarget | cases htarget
  | callStep ch rc new h =>
    rw [goto_pc_self] at htarget
    generalize s.pc c = pc at h
    generalize (s.call rc).2 = res at h
    cases h with
    | redispatch cur drawn r' res hr =>
      obtain rfl := Option.some.inj htarget
      exact Or.inr (Or.inr hr)
    | running | failure | reported | notReported | started | confirm => cases htarget
  | dispatchLock ch op auth wid target rest hold hworkers =>
    rw [goto_pc_self] at htarget
    obtain rfl := Option.some.inj htarget
    exact Or.inr (Or.inl ⟨_, by rw [hworkers]; exact List.mem_cons_self, rfl⟩)
  | register | marked | markedAgain | lost | saveStart | saveItem | saveEnd =>
    rw [goto_pc_self] at htarget
    cases htarget
  | transferred | recorded =>
    simp [lostTransfer, lostReport, Pc.target] at htarget

/-- A thread that handles no message lists nothing. -/
private theorem Coord.Moves.tables_of_ne (h : s.Moves c a s' evs)
    (hpc : ∀ m, s.pc c ≠ .handle m) : (∀ w ∈ s'.workers, w ∈ s.workers) ∧
      s'.regOrder = s.regOrder ∧ ∀ x, (s'.conn x).wid = (s.conn x).wid := by
  cases h with
  | register a m wid order hold => exact absurd hold (hpc m)
  | marked ch op auth target | markedAgain a target =>
    refine ⟨fun w hw => hw, rfl, fun x => ?_⟩
    by_cases hx : x = target
    · subst hx
      simp [mark, goto]
    · simp [mark, goto, Function.update_of_ne hx]
  | lost => exact ⟨fun w hw => (List.mem_filter.mp hw).1, rfl, fun _ => rfl⟩
  | idle | localStep | callStep | dispatchLock | transferred | recorded | saveStart | saveItem
  | saveEnd => exact ⟨fun w hw => hw, rfl, fun _ => rfl⟩

/-- **Inversion.** Only a registration lists a connection, and only its own. -/
theorem Coord.tables_step (s : Coord) (a : Action) :
    ((∀ w ∈ (s.step a).1.workers, w ∈ s.workers) ∧ (s.step a).1.regOrder = s.regOrder ∧
        ∀ x, ((s.step a).1.conn x).wid = (s.conn x).wid) ∨
      ∃ m ch, a = .proceed a.conn ch ∧ s.pc a.conn = .handle m ∧ m.type = .REGISTER ∧
        (∀ w ∈ (s.step a).1.workers, w ∈ s.workers ∨ w = (registeredId m ch, a.conn)) ∧
        (s.step a).1.regOrder = s.regOrder ++ [a.conn] ∧
        ∀ x, x ≠ a.conn → ((s.step a).1.conn x).wid = (s.conn x).wid := by
  by_cases hhandle : ∃ m, s.pc a.conn = .handle m
  · obtain ⟨m, hm⟩ := hhandle
    rcases step_of_started (s := s) (a := a) (by simp [hm]) with hidle | ⟨ch, ha, hstep⟩
    · rw [hidle]
      exact Or.inl ⟨fun _ hw => hw, rfl, fun _ => rfl⟩
    · have hhandled : s.step a = s.handleMessage a.conn m ch := by rw [hstep, advance, hm]
      by_cases htype : m.type = .REGISTER
      · refine Or.inr ⟨m, ch, ha, hm, htype, ?_⟩
        rw [hhandled]
        unfold handleMessage
        rw [htype]
        refine ⟨fun w hw => mem_setWorker hw, rfl, fun x hx => ?_⟩
        simp [goto, Function.update_of_ne hx]
      · obtain ⟨hconn, hworkers, horder⟩ := handleMessage_tables (c := a.conn) htype ch
        rw [hhandled, hconn, hworkers, horder]
        exact Or.inl ⟨fun _ hw => hw, rfl, fun _ => rfl⟩
  · exact Or.inl ((s.step_moves a).tables_of_ne (fun m hm => hhandle ⟨m, hm⟩))

/-- Nothing is ever taken out of `g_reg_order`. -/
theorem regOrder_prefix (s : Coord) (acts : List Action) :
    s.regOrder <+: (coordinator.run s acts).regOrder := by
  refine Machine.run_induction (P := fun s' : Coord => s.regOrder <+: s'.regOrder) ?_
    (List.prefix_refl _) acts
  intro s' a hpre
  show s.regOrder <+: (s'.step a).1.regOrder
  rcases s'.tables_step a with ⟨-, horder, -⟩ | ⟨m, ch, -, -, -, -, horder, -⟩
  · rw [horder]
    exact hpre
  · rw [horder]
    exact hpre.trans (List.prefix_append _ _)

end Tables

/-! ### The invariant -/

/-- A lost connection is in no table, and a handled one is nobody's target. -/
structure TargetInv (s : Coord) : Prop where
  unlisted : ∀ c, (s.pc c).lost = true → ∀ w ∈ s.workers, w.2 ≠ c
  uncounted : ∀ c, (s.pc c).lost = true → s.regOrder.head? = some c →
    ∀ w ∈ s.workers, w.1 ≠ (s.conn c).wid
  unaimed : ∀ c, s.pc c = .ended → ¬ s.Aimed c

section Invariant

variable {s : Coord} {a : Action} {c : ConnId}

/-- No choice is made of a lost connection. -/
theorem TargetInv.replacement_ne (inv : TargetInv s) (hlost : (s.pc c).lost = true) :
    s.replacement ≠ some c := by
  intro h
  rcases Coord.listed_of_replacement h with ⟨hhead, w, hw, hwid⟩ | ⟨w, hw, rfl⟩
  · exact inv.uncounted c hlost hhead w hw hwid
  · exact inv.unlisted _ hlost w hw rfl

/-- What was lost before stays out of the tables. -/
theorem TargetInv.stays (inv : TargetInv s) (hC : targetsStand s a)
    (hlost : (s.pc c).lost = true) : (∀ w ∈ (s.step a).1.workers, w.2 ≠ c) ∧
      ((s.step a).1.regOrder.head? = some c →
        ∀ w ∈ (s.step a).1.workers, w.1 ≠ ((s.step a).1.conn c).wid) := by
  rcases s.tables_step a with
    ⟨hworkers, horder, hwid⟩ | ⟨m, ch, ha, hm, htype, hworkers, horder, hwid⟩
  · rw [horder, hwid c]
    exact ⟨fun w hw => inv.unlisted c hlost w (hworkers w hw),
      fun hhead w hw => inv.uncounted c hlost hhead w (hworkers w hw)⟩
  · have hne : c ≠ a.conn := by
      rintro rfl
      rw [hm] at hlost
      cases hlost
    rw [horder, hwid c hne]
    refine ⟨fun w hw => ?_, fun hhead w hw => ?_⟩
    · rcases hworkers w hw with hold | rfl
      · exact inv.unlisted c hlost w hold
      · exact hne.symm
    · -- the first connection is the first one still
      have hhead' : s.regOrder.head? = some c := by
        cases hreg : s.regOrder with
        | nil =>
          rw [hreg] at hhead
          exact absurd (Option.some.inj hhead) hne.symm
        | cons r rest =>
          rw [hreg] at hhead
          exact hhead
      rcases hworkers w hw with hold | rfl
      · exact inv.uncounted c hlost hhead' w hold
      · rw [ha] at hC
        simp only [targetsStand, hm] at hC
        exact hC htype c hhead' hlost

/-- The first critical section of the loss takes the connection out of the tables. -/
theorem unlisted_of_lostLock (hC : targetsStand s a) (hpc : s.pc a.conn = .lostLock)
    (hmoves : (s.step a).1.pc a.conn ≠ .lostLock) :
    (∀ w ∈ (s.step a).1.workers, w.2 ≠ a.conn) ∧
      ((s.step a).1.regOrder.head? = some a.conn →
        ∀ w ∈ (s.step a).1.workers, w.1 ≠ ((s.step a).1.conn a.conn).wid) := by
  rcases Coord.step_of_needsLock (s := s) (a := a) (by rw [hpc]; rfl) with
    hidle | ⟨hfree, ch, ha, hstep⟩
  · rw [hidle] at hmoves
    exact absurd hpc hmoves
  · rw [ha] at hC
    simp only [targetsStand, hpc] at hC
    have hunlists := (hC hfree).1
    unfold Coord.Unlists at hunlists
    rw [hstep, Coord.advance, hpc]
    dsimp only [Coord.lostLock]
    by_cases hrun : s.runningConn = some a.conn
    · rw [if_pos hrun] at hunlists ⊢
      -- what is left is listed under other ids
      have hleft : ∀ w ∈ s.workers.filter (·.1 ≠ (s.conn a.conn).wid),
          w ∈ s.workers ∧ w.1 ≠ (s.conn a.conn).wid := by
        intro w hw
        obtain ⟨hmem, hne⟩ := List.mem_filter.mp hw
        exact ⟨hmem, by simpa using hne⟩
      exact ⟨fun w hw heq => (hleft w hw).2 (hunlists w (hleft w hw).1 heq),
        fun _ w hw => (hleft w hw).2⟩
    · rw [if_neg hrun] at hunlists ⊢
      exact hunlists

/-- The four ways in which the thread of a lost connection returns. -/
inductive Coord.Returns (s : Coord) (c : ConnId) : Prop
  | idle (hpc : s.pc c = .lostLock) (hfree : s.holder = none) (hrun : s.runningConn ≠ some c)
  | finished (hpc : s.pc c = .lostCheck) (hfinished : s.finished = true)
  | stopped (fresh : AuthorityEnvelope) (r : Option ConnId) (hpc : s.pc c = .lostVerify fresh r)
    (hstop : r = none ∨ isTerminal (s.store.ops.state s.currentOp) = true)
  | handedOver (r : ConnId) (hpc : s.pc c = .lostMark r) (hfree : s.holder = none)

/-- **Inversion.** A thread that returns has lost its connection, and handled it. -/
theorem Coord.returns_of_ended (hpc : s.pc a.conn ≠ .ended)
    (hended : (s.step a).1.pc a.conn = .ended) :
    (∃ ch, a = .proceed a.conn ch) ∧ s.Returns a.conn := by
  have hcame := (s.step_moves a).to_lost (by rw [hended]; rfl)
  have hstarted : s.pc a.conn ≠ .unborn ∧ s.pc a.conn ≠ .reading := by
    constructor <;>
    · intro hpc'
      rw [hpc'] at hcame
      rcases hcame with h | h <;> cases h
  have hmoves : s.step a ≠ (s, []) := by
    intro hidle
    rw [hidle] at hended
    exact hpc hended
  obtain ⟨ch, ha, hstep⟩ := (Coord.step_of_started hstarted).resolve_left hmoves
  have hfree : (s.pc a.conn).needsLock = true → s.holder = none :=
    fun hneeds => ((Coord.step_of_needsLock hneeds).resolve_left hmoves).1
  refine ⟨⟨ch, ha⟩, ?_⟩
  rw [hstep] at hended
  unfold Coord.advance at hended
  cases hold : s.pc a.conn with
  | lostLock =>
    rw [hold] at hended hfree
    dsimp only [Coord.lostLock] at hended
    refine .idle hold (hfree rfl) (fun hrun => ?_)
    rw [if_pos hrun, Coord.goto_pc_self] at hended
    cases hended
  | lostCheck =>
    rw [hold, Coord.goto_pc_self] at hended
    refine .finished hold ?_
    by_contra hgoes
    rw [if_neg hgoes] at hended
    cases hended
  | lostVerify fresh replacement =>
    rw [hold] at hended
    cases replacement with
    | none => exact .stopped fresh none hold (Or.inl rfl)
    | some r =>
      refine .stopped fresh (some r) hold (Or.inr ?_)
      by_contra hlive
      dsimp only at hended
      rw [if_neg hlive, Coord.goto_pc_self] at hended
      cases hended
  | lostMark r =>
    rw [hold] at hfree
    exact .handedOver r hold (hfree rfl)
  | lostTransfer | lostReport =>
    rw [hold] at hended
    simp [Coord.lostTransfer, Coord.lostReport] at hended
  | lostChoose cur =>
    rw [hold] at hended
    dsimp only [Coord.lostChoose] at hended
    split at hended <;>
    · rw [Coord.goto_pc_self] at hended
      cases hended
  | lostBuild | lostSend =>
    rw [hold, Coord.goto_pc_self] at hended
    cases hended
  | ended => exact absurd hold hpc
  | _ =>
    rw [hold] at hcame
    rcases hcame with h | h <;> cases h

/-- When a thread returns, nobody is about to send to its connection. -/
theorem unaimed_of_returns (hC : targetsStand s a) (hpc : s.pc a.conn ≠ .ended)
    (hended : (s.step a).1.pc a.conn = .ended) : ¬ s.Aimed a.conn := by
  obtain ⟨⟨ch, ha⟩, hreturns⟩ := Coord.returns_of_ended hpc hended
  rw [ha] at hC
  cases hreturns with
  | idle hold hfree hrun =>
    simp only [targetsStand, hold] at hC
    exact (hC hfree).2 hrun
  | finished hold hfinished =>
    simp only [targetsStand, hold] at hC
    exact hC hfinished
  | stopped fresh r hold hstop =>
    simp only [targetsStand, hold] at hC
    exact hC hstop
  | handedOver r hold hfree =>
    simp only [targetsStand, hold] at hC
    exact hC hfree

/-- **Step lemma.** A step that meets the condition keeps lost connections out of the tables, and
    handled ones from being targets. -/
theorem TargetInv.step (inv : TargetInv s) (hC : targetsStand s a) : TargetInv (s.step a).1 := by
  have htables : ∀ c, ((s.step a).1.pc c).lost = true → (∀ w ∈ (s.step a).1.workers, w.2 ≠ c) ∧
      ((s.step a).1.regOrder.head? = some c →
        ∀ w ∈ (s.step a).1.workers, w.1 ≠ ((s.step a).1.conn c).wid) := by
    intro c hlost
    by_cases hbefore : (s.pc c).lost = true
    · exact inv.stays hC hbefore
    · have hmover : (s.step a).1.pc c ≠ s.pc c := by
        intro hsame
        rw [hsame] at hlost
        exact hbefore hlost
      obtain rfl : c = a.conn := (s.step_moves a).mover hmover
      have hlock := ((s.step_moves a).to_lost hlost).resolve_left hbefore
      exact unlisted_of_lostLock hC hlock (by rw [← hlock]; exact hmover)
  refine ⟨fun c hlost => (htables c hlost).1, fun c hlost => (htables c hlost).2, ?_⟩
  rintro c hended ⟨c', htarget⟩
  by_cases hbefore : s.pc c = .ended
  · have hlost : (s.pc c).lost = true := by rw [hbefore]; rfl
    by_cases hc' : c' = a.conn
    · subst hc'
      rcases (s.step_moves a).target_of htarget with haimed | ⟨w, hw, hwc⟩ | hr
      · exact inv.unaimed c hbefore ⟨_, haimed⟩
      · exact inv.unlisted c hlost w hw hwc
      · exact inv.replacement_ne hlost hr
    · rw [(s.step_moves a).pc_of_ne hc'] at htarget
      exact inv.unaimed c hbefore ⟨c', htarget⟩
  · obtain rfl : c = a.conn := by
      refine (s.step_moves a).mover (fun hsame => hbefore ?_)
      rw [← hsame]
      exact hended
    have hunaimed := unaimed_of_returns hC hbefore hended
    by_cases hc' : c' = a.conn
    · rw [hc', hended] at htarget
      cases htarget
    · rw [(s.step_moves a).pc_of_ne hc'] at htarget
      exact hunaimed ⟨c', htarget⟩

theorem targetInv_boot (file : Option (List UInt8)) : TargetInv (Coord.boot file) where
  unlisted := fun _ h => by cases h
  uncounted := fun _ h => by cases h
  unaimed := fun _ h => by cases h

end Invariant

/-! ### Whole runs -/

/-- **Run lemma.** Under the condition lost connections stay out of the tables. -/
theorem targetInv_run (file : Option (List UInt8)) {acts : List Action}
    (hC : coordinator.Always targetsStand (.boot file) acts) :
    TargetInv (coordinator.run (.boot file) acts) :=
  Machine.always_induction (fun _ _ hC inv => inv.step hC) (targetInv_boot file) hC

/-- **Targets are live.** In a run of the coordinator whose steps all meet the condition, nothing
    is dispatched to a connection whose loss has been handled, and none of them is a candidate. -/
theorem targets_live (file : Option (List UInt8)) (acts : List Action)
    (hC : coordinator.Always targetsStand (.boot file) acts) :
    TargetsLive (.boot file) acts := by
  constructor
  · rintro pre a post rfl c m hsent htype hended
    have inv := targetInv_run file ((Machine.always_append _ _ pre (a :: post)).mp hC).1
    refine inv.unaimed c hended ⟨a.conn, ?_⟩
    obtain ⟨-, new, -, hpc | ⟨hpc, -⟩⟩ :=
      ((coordinator.run (.boot file) pre).step_moves a).sent_dispatch hsent htype <;>
    · rw [hpc]
      rfl
  · rintro pre post rfl c hended
    have inv := targetInv_run file ((Machine.always_append _ _ pre post).mp hC).1
    have hlost : ((coordinator.run (.boot file) pre).pc c).lost = true := by rw [hended]; rfl
    exact ⟨inv.unlisted c hlost, inv.replacement_ne hlost⟩

/-- A worker is lost, its operation goes to a second worker, and so does the next request. -/
def requestAfterLoss : List Action := firstLoss ++ request otherOp 6

theorem targets_live_requestAfterLoss : TargetsLive (.boot none) requestAfterLoss := by
  refine targets_live none requestAfterLoss ?_
  refine ⟨trivial, trivial, ?_, trivial, trivial, ?_, trivial, trivial, ?_, trivial, trivial,
    trivial, trivial, trivial, ?_, ?_, trivial, trivial, trivial, trivial, ?_, trivial, ?_, trivial,
    ?_, trivial, trivial, trivial, trivial, trivial⟩
  · rintro - r hr
    cases hr
  · -- the first worker is there when the second one registers
    rintro - r hr hlost
    obtain rfl : 0 = r := Option.some.inj hr
    cases hlost
  · exact fun hm => by cases hm
  · exact fun _ => ⟨by decide +kernel, fun hrun => absurd rfl hrun⟩
  · exact fun hfinished => absurd hfinished (by decide +kernel)
  · rintro (hnone | hterminal)
    · cases hnone
    · exact absurd hterminal (by decide +kernel)
  · -- no thread is sending when the loss has been handled
    rintro - ⟨c', htarget⟩
    match c' with
    | 0 | 1 | 2 => cases htarget
    | _ + 3 => cases htarget
  · exact fun hm => by cases hm

/-- The only worker is lost while it is idle, and then the client asks for an operation. -/
def idleLoss : List Action :=
  registration 0 7 8 ++ [.accept 1, .disconnect 0, .proceed 0 {}] ++ request sampleOp 5

/-- The worker stays in both tables, and the operation is sent to it when its thread has
    returned. -/
theorem sent_after_idle_loss :
    (coordinator.run (.boot none) (idleLoss.take 9)).pc 0 = .ended ∧
      (coordinator.run (.boot none) (idleLoss.take 9)).workers = [(⟨.ofByte 7⟩, 0)] ∧
      (coordinator.run (.boot none) (idleLoss.take 9)).regOrder = [0] ∧
      .sent 0 { type := .DISPATCH, op := sampleOp, attempt := .generate (.ofByte 5),
                authority := sampleAuthority, worker := ⟨.ofByte 7⟩ } ∈
        ((coordinator.run (.boot none) (idleLoss.take 9)).step (.proceed 1 {})).2 ∧
      ¬ TargetsLive (.boot none) idleLoss := by
  have hended : (coordinator.run (.boot none) (idleLoss.take 9)).pc 0 = .ended := rfl
  have hsent : .sent 0 { type := .DISPATCH, op := sampleOp, attempt := .generate (.ofByte 5),
                         authority := sampleAuthority, worker := ⟨.ofByte 7⟩ } ∈
      ((coordinator.run (.boot none) (idleLoss.take 9)).step (.proceed 1 {})).2 := by
    decide +kernel
  refine ⟨hended, by decide +kernel, by decide +kernel, hsent, fun h => ?_⟩
  exact h.1 (idleLoss.take 9) (.proceed 1 {}) (idleLoss.drop 10) rfl 0 _ hsent rfl hended

end FailureFabric
