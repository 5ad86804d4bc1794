import FailureFabric.Durability
import FailureFabric.Library.Termination

namespace FailureFabric

open Library

/-!
# The coordinator settles

When nothing arrives any more, the threads of the coordinator finish what they have at hand, as far
as their sends return.  A send goes to a blocking socket, under the socket's own lock: if the peer
does not read, it does not return, nor does any other send on that socket.  The acknowledgement of a
registration is sent under `g_mu`, so such a peer can keep the threads from `g_mu` too, and this is
the only way: no thread can go on forever, whichever steps were taken before, and where none can go
on, each has nothing at hand, stands in a send that does not return, or waits for `g_mu` while the
thread that has it stands in such a send.  If every send returns, every message that is received is
handled to its end.  The writes of a save are taken to return.

* `Pc.sendsTo`, `Pc.stalls` — where a thread sends, and whether the send returns;
* `Coord.attempt`, `Coord.Advances` — a thread takes a step, or stands in its send;
* `Pc.rank`, `Pc.writes` — the measure: how far a thread is from the end, and how much a save has
  still to write;
* `Coord.LockInvBut` — a thread holds `g_mu` between two steps while it saves, or stands in a send;
* `Coord.AtRestBut`, `coordinator_settles` — the result, for any peers that do not read.
-/

/-- The thread has nothing at hand: it waits for a message, or it has returned. -/
def Pc.resting : Pc → Bool
  | unborn | reading | ended => true
  | _ => false

/-- The connection that the thread of `c` sends on with its next step. -/
def Pc.sendsTo (c : ConnId) : Pc → Option ConnId
  | handle m => if m.type = .REGISTER then some c else none
  | dispatchSend _ _ target => some target
  | completeAck .. | completeFence _ => some c
  | lostSend _ r => some r
  | _ => none

/-- The next step of the thread of `c` is a send that does not return, as its peer does not read. -/
def Pc.stalls (reads : ConnId → Bool) (c : ConnId) (pc : Pc) : Bool :=
  (pc.sendsTo c).any fun x => !reads x

/-- The thread of `c` takes its next step, as far as it gets.  Where the send of the step does not
    return, the thread stands in it; it has taken `g_mu` then and registered the worker, if the send
    is the acknowledgement of that. -/
def Coord.attempt (s : Coord) (reads : ConnId → Bool) (c : ConnId) (ch : Choice) : Coord :=
  let s' := (s.step (.proceed c ch)).1
  if (s.pc c).stalls reads c then
    if (s.pc c).needsLock && s.holder.isNone then { s' with pc := s.pc, holder := some c } else s
  else s'

/-- Some thread takes its next step, as far as it gets, and something changes. -/
def Coord.Advances (reads : ConnId → Bool) (s s' : Coord) : Prop :=
  ∃ c ch, s' = s.attempt reads c ch ∧ s' ≠ s

/-- How far the thread is from having nothing at hand. -/
def Pc.rank : Pc → Nat
  | unborn | reading | ended => 0
  | saving _ => 1
  | completeSave _ => 2
  | completeAck .. => 3
  | completeConfirm .. | completeFence _ => 4
  | dispatchRun .. => 5
  | dispatchMark .. => 6
  | dispatchSend .. => 7
  | dispatchLock .. => 8
  | handle _ => 9
  | lostMark _ => 1
  | lostSend .. => 2
  | lostVerify .. => 3
  | lostChoose _ => 4
  | lostReport .. => 5
  | lostBuild _ => 6
  | lostTransfer => 7
  | lostCheck => 8
  | lostLock => 9

/-- The writes that the thread has still to do. -/
def Pc.writes : Pc → Nat
  | saving todo => todo.length
  | _ => 0

section Measure

variable {s s' : Coord} {c : ConnId} {a : Action} {evs : List Event}

/-- A step of a thread that has something at hand brings it nearer to the end; inside of a save it
    writes. -/
theorem Coord.Moves.rank_lt (h : s.Moves c a s' evs) (hbusy : (s.pc c).resting = false) :
    (s' = s ∧ evs = []) ∨ (s'.pc c).rank < (s.pc c).rank ∨
      (s'.pc c).rank = (s.pc c).rank ∧ (s'.pc c).writes < (s.pc c).writes ∧
        s'.holder = s.holder ∧ evs = [] := by
  cases h with
  | idle => exact Or.inl ⟨rfl, rfl⟩
  | localStep a new evs hlocal =>
    refine Or.inr (Or.inl ?_)
    rw [goto_pc_self]
    generalize s.pc c = pc at hlocal hbusy
    cases hlocal with
    | accept | receive | disconnect => cases hbusy
    | asked | ignored | noWorkers | sentDispatch | sentAck | sentFence | notRunning | allDone
    | recover | built | noReplacement | gaveUp | verified | sentAgain => simp [Pc.rank]
  | callStep ch rc new hcall =>
    refine Or.inr (Or.inl ?_)
    rw [goto_pc_self]
    generalize s.pc c = pc at hcall
    generalize (s.call rc).2 = res at hcall
    cases hcall <;> simp [Pc.rank]
  | register a m wid order hpc | dispatchLock ch op auth wid target rest hpc
  | marked ch op auth target hpc | markedAgain a r hpc | lost a hpc | saveStart ch op o hpc
  | saveEnd a hpc =>
    refine Or.inr (Or.inl ?_)
    rw [goto_pc_self, hpc]
    simp [Pc.rank]
  | transferred a ch hpc | recorded a ch cur b hpc =>
    refine Or.inr (Or.inl ?_)
    rw [hpc]
    simp [lostTransfer, lostReport, Pc.rank]
  | saveItem a item todo hpc =>
    refine Or.inr (Or.inr ?_)
    rw [goto_pc_self, hpc]
    exact ⟨rfl, Nat.lt_succ_self _, rfl, rfl⟩

/-- A thread that has nothing at hand does not get on by itself. -/
theorem Coord.proceed_idle (h : (s.pc c).resting = true) (ch : Choice) :
    s.step (.proceed c ch) = (s, []) := by
  cases hpc : s.pc c with
  | unborn | reading | ended => simp [step, advance, hpc, Pc.needsLock]
  | handle | dispatchLock | dispatchSend | dispatchMark | dispatchRun | completeConfirm
  | completeAck | completeFence | completeSave | saving | lostLock | lostCheck | lostTransfer
  | lostBuild | lostReport | lostChoose | lostVerify | lostSend | lostMark =>
    simp [hpc, Pc.resting] at h

end Measure

/-! ### Sends -/

section Sends

variable {s : Coord} {c : ConnId} {reads : ConnId → Bool}

/-- A step sends where `sendsTo` says, and nowhere else. -/
theorem Coord.sendsTo_of_sent {x : ConnId} {m : WireMessage} {ch : Choice}
    (h : .sent x m ∈ (s.step (.proceed c ch)).2) : (s.pc c).sendsTo c = some x := by
  rw [step] at h
  split_ifs at h with hlock
  · cases h
  unfold advance at h
  cases hpc : s.pc c with
  | handle m' =>
    rw [hpc] at h
    dsimp only [handleMessage] at h
    split at h
    · next htype =>
      obtain ⟨rfl, -⟩ := Event.sent.inj (List.mem_singleton.mp h)
      exact if_pos htype
    all_goals simp at h
  | dispatchSend | completeAck | completeFence | lostSend =>
    rw [hpc] at h
    obtain ⟨rfl, -⟩ := Event.sent.inj (List.mem_singleton.mp h)
    rfl
  | dispatchLock | lostLock | lostChoose | completeSave =>
    rw [hpc] at h
    dsimp only [Coord.dispatchLock, Coord.lostLock, Coord.lostChoose] at h
    split at h <;> simp at h
  | lostVerify fresh replacement =>
    rw [hpc] at h
    cases replacement with
    | none => cases h
    | some r =>
      dsimp only at h
      split_ifs at h <;> cases h
  | saving todo =>
    rw [hpc] at h
    cases todo <;> cases h
  | unborn | reading | ended | dispatchMark | dispatchRun | completeConfirm | lostCheck
  | lostTransfer | lostBuild | lostReport | lostMark =>
    rw [hpc] at h
    simp [Coord.lostTransfer, Coord.lostReport] at h

/-- A thread whose sends all return takes its next step. -/
theorem Coord.attempt_of_returns {ch : Choice} (h : (s.pc c).stalls reads c = false) :
    s.attempt reads c ch = (s.step (.proceed c ch)).1 := by
  simp [attempt, h]

/-- A thread that stands in a send changes nothing, but that it may take `g_mu` first. -/
theorem Coord.attempt_of_stalls (h : (s.pc c).stalls reads c = true) (ch : Choice) :
    s.attempt reads c ch = s ∨ (s.pc c).needsLock = true ∧ s.holder = none ∧
      s.attempt reads c ch =
        { (s.step (.proceed c ch)).1 with pc := s.pc, holder := some c } := by
  rw [attempt, if_pos h]
  split_ifs with hfree
  · rw [Bool.and_eq_true, Option.isNone_iff_eq_none] at hfree
    exact Or.inr ⟨hfree.1, hfree.2, rfl⟩
  · exact Or.inl rfl

/-- Where every peer reads, no thread stands in a send. -/
@[simp] theorem Pc.stalls_reads (pc : Pc) : pc.stalls (fun _ => true) c = false := by
  unfold stalls
  cases pc.sendsTo c <;> rfl

/-- A thread that stands in a send has something at hand, and is not saving. -/
theorem Pc.of_stalls {pc : Pc} (h : pc.stalls reads c = true) :
    pc.resting = false ∧ ∀ todo, pc ≠ .saving todo := by
  cases pc with
  | handle | dispatchSend | completeAck | completeFence | lostSend =>
    exact ⟨rfl, fun _ hsaving => by cases hsaving⟩
  | unborn | reading | dispatchLock | dispatchMark | dispatchRun | completeConfirm | completeSave
  | saving | lostLock | lostCheck | lostTransfer | lostBuild | lostReport | lostChoose | lostVerify
  | lostMark | ended => cases h

end Sends

/-! ### The lock -/

/-- A thread holds the lock between two steps only while it saves, or stands in a send that it makes
    under the lock. -/
structure Coord.LockInvBut (reads : ConnId → Bool) (s : Coord) : Prop where
  locked : ∀ c todo, s.pc c = .saving todo → s.holder = some c
  holding : ∀ c, s.holder = some c → (∃ todo, s.pc c = .saving todo) ∨
    (s.pc c).stalls reads c = true ∧ (s.pc c).needsLock = true

/-- Where every send returns, a thread holds the lock between two steps exactly while it saves. -/
abbrev Coord.LockInv (s : Coord) : Prop := s.LockInvBut fun _ => true

section Lock

variable {s s' : Coord} {c : ConnId} {a : Action} {evs : List Event} {reads : ConnId → Bool}

/-- **Step lemma.** A save starts with the lock free, and gives it back at its end. -/
theorem Coord.LockInvBut.step (inv : s.LockInvBut reads) (h : s.Moves c a s' evs)
    (hreturns : (s.pc c).stalls reads c = false) : s'.LockInvBut reads := by
  have hother : ∀ {c' todo}, c' ≠ c → s'.pc c' = .saving todo → s.holder = some c' :=
    fun hc hsaving => inv.locked _ _ (by rwa [h.pc_of_ne hc] at hsaving)
  rcases h.saves with ⟨rfl, -⟩ | ⟨hpc, hpc', hholder, -⟩ | ⟨ch, op, o, -, hpc, hfree, -, rfl⟩ |
    ⟨item, todo, hpc, -, rfl⟩ | ⟨hpc, -, rfl⟩
  · exact inv
  · -- no save: the lock stays with the thread that has it
    constructor
    · intro c' todo hsaving
      rw [hholder]
      exact hother (fun hc => hpc' todo (hc ▸ hsaving)) hsaving
    · intro c' hheld
      have hheld' := inv.holding c' (by rwa [hholder] at hheld)
      have hc : c' ≠ c := by
        rintro rfl
        rcases hheld' with ⟨todo, hsaving⟩ | ⟨hstalls, -⟩
        · rw [hsaving] at hpc
          cases hpc
        · rw [hreturns] at hstalls
          cases hstalls
      rwa [h.pc_of_ne hc]
  · -- a save starts, with the lock free before
    constructor
    · intro c' todo hsaving
      by_cases hc : c' = c
      · rw [hc]
        rfl
      · exact absurd ((hother hc hsaving).symm.trans hfree) (by simp)
    · intro c' hheld
      obtain rfl : c = c' := Option.some.inj hheld
      exact Or.inl ⟨_, Coord.goto_pc_self ..⟩
  · -- a write, which keeps the lock
    constructor
    · intro c' todo' hsaving
      by_cases hc : c' = c
      · rw [hc]
        exact inv.locked c _ hpc
      · exact hother hc hsaving
    · intro c' hheld
      obtain rfl : c = c' := Option.some.inj ((inv.locked c _ hpc).symm.trans hheld)
      exact Or.inl ⟨_, Coord.goto_pc_self ..⟩
  · -- the save ends, and nobody has the lock
    constructor
    · intro c' todo hsaving
      by_cases hc : c' = c
      · rw [hc, Coord.goto_pc_self] at hsaving
        cases hsaving
      · exact absurd ((hother hc hsaving).symm.trans (inv.locked c _ hpc)) (by simpa using hc)
    · intro c' hheld
      cases hheld

theorem Coord.LockInv.step (inv : s.LockInv) (h : s.Moves c a s' evs) : s'.LockInv :=
  LockInvBut.step inv h (Pc.stalls_reads _)

/-- Whichever peers stop reading, the invariant still holds. -/
theorem Coord.LockInv.but (inv : s.LockInv) (reads : ConnId → Bool) : s.LockInvBut reads where
  locked := inv.locked
  holding := fun c hheld => (inv.holding c hheld).imp_right fun hstands => by
    rw [Pc.stalls_reads] at hstands
    cases hstands.1

/-- **Step lemma.** A thread that stands in a send may have taken the lock for it. -/
theorem Coord.LockInvBut.attempt (inv : s.LockInvBut reads) (c : ConnId) (ch : Choice) :
    (s.attempt reads c ch).LockInvBut reads := by
  cases hstalls : (s.pc c).stalls reads c with
  | false =>
    rw [attempt_of_returns hstalls]
    exact inv.step (s.step_moves (.proceed c ch)) hstalls
  | true =>
    rcases attempt_of_stalls hstalls ch with hidle | ⟨hneeds, hfree, hstands⟩
    · rwa [hidle]
    · rw [hstands]
      refine ⟨fun c' todo hsaving => ?_, fun c' hheld => ?_⟩
      · exact absurd ((inv.locked c' todo hsaving).symm.trans hfree) (by simp)
      · obtain rfl : c = c' := Option.some.inj hheld
        exact Or.inr ⟨hstalls, hneeds⟩

/-- A connection is accepted, receives or ends with its thread at rest. -/
theorem Coord.LockInvBut.act (inv : s.LockInvBut reads) (ha : ∀ c ch, a ≠ .proceed c ch) :
    (s.step a).1.LockInvBut reads := by
  cases hstalls : (s.pc a.conn).stalls reads a.conn with
  | false => exact inv.step (s.step_moves a) hstalls
  | true =>
    have hstarted : s.pc a.conn ≠ .unborn ∧ s.pc a.conn ≠ .reading := by
      constructor <;>
      · intro hpc
        rw [hpc] at hstalls
        cases hstalls
    -- a thread that stands in a send is not at rest, so it does not take such a step
    rcases step_of_started hstarted with hidle | ⟨ch, hproceeds, -⟩
    · rwa [hidle]
    · exact absurd hproceeds (ha _ ch)

theorem lockInv_boot (file : Option (List UInt8)) : (Coord.boot file).LockInv where
  locked := fun _ _ h => by cases h
  holding := fun _ h => by cases h

end Lock

/-! ### Where no thread gets on -/

section Live

variable {s : Coord} {c : ConnId} {reads : ConnId → Bool}

/-- Some choice of the environment lets a save start. -/
theorem exists_orders (s : FailureStore) : ∃ ch : Choice, (ch.orders s).isSome = true := by
  obtain ⟨lf, hlf⟩ := UnorderedMap.exists_iterates s.failures
  obtain ⟨lo, hlo⟩ := UnorderedMap.exists_iterates s.ops.ops
  obtain ⟨li, hli⟩ := UnorderedMap.exists_iterates s.idem.entries
  refine ⟨{ failures := lf, ops := lo, idem := li }, ?_⟩
  unfold Choice.orders
  rw [dif_pos ⟨hlf, hlo, hli⟩]
  rfl

/-- A thread that has something at hand gets on, when the lock is free or it does not need it. -/
theorem Coord.moves_of_busy (hbusy : (s.pc c).resting = false)
    (hlock : s.holder = none ∨ (s.pc c).needsLock = false) :
    ∃ ch, (s.step (.proceed c ch)).1.pc c ≠ s.pc c := by
  obtain ⟨ch, hch⟩ := exists_orders s.store
  refine ⟨ch, ?_⟩
  have hstep : s.step (.proceed c ch) = s.advance c ch := by
    refine if_neg ?_
    rcases hlock with hfree | hneeds
    · simp [hfree]
    · simp [hneeds]
  rw [hstep, advance]
  cases hpc : s.pc c with
  | unborn | reading | ended => rw [hpc] at hbusy; cases hbusy
  | handle m =>
    dsimp only [handleMessage]
    split <;> rw [goto_pc_self]
    · simp
    · simp
    · simp
    · -- a report of a completion, which is accepted or refused
      split_ifs <;> simp
    · simp
    · simp
  | dispatchLock op auth =>
    dsimp only [Coord.dispatchLock]
    split <;> simp
  | completeSave op =>
    obtain ⟨o, ho⟩ := Option.isSome_iff_exists.mp hch
    simp [ho]
  | saving todo => cases todo <;> simp
  | lostLock =>
    dsimp only [Coord.lostLock]
    split_ifs <;> simp
  | lostCheck =>
    dsimp only
    split_ifs <;> simp
  | lostChoose cur =>
    dsimp only [Coord.lostChoose]
    split <;> simp
  | lostVerify fresh replacement =>
    cases replacement with
    | none => simp
    | some r =>
      dsimp only
      split_ifs <;> simp
  | dispatchSend | dispatchMark | dispatchRun | completeConfirm | completeAck | completeFence
  | lostTransfer | lostBuild | lostReport | lostSend | lostMark =>
    simp [Coord.lostTransfer, Coord.lostReport]

/-- A thread that has something at hand, needs no lock that is taken, and does not stand in a send
    gets on. -/
theorem Coord.attempt_ne (hbusy : (s.pc c).resting = false)
    (hlock : s.holder = none ∨ (s.pc c).needsLock = false)
    (hreturns : (s.pc c).stalls reads c = false) : ∃ ch, s.attempt reads c ch ≠ s := by
  obtain ⟨ch, hmoved⟩ := moves_of_busy hbusy hlock
  refine ⟨ch, fun hsame => hmoved ?_⟩
  rw [attempt_of_returns hreturns] at hsame
  rw [hsame]

end Live

/-- The thread stands in a send that does not return, with the lock if it makes the send under the
    lock. -/
def Coord.InSend (s : Coord) (reads : ConnId → Bool) (c : ConnId) : Prop :=
  (s.pc c).stalls reads c = true ∧ ((s.pc c).needsLock = true → s.holder = some c)

/-- Every thread has nothing at hand, stands in a send that does not return, or waits for the lock;
    and the lock is free, or a thread that stands in such a send has it. -/
structure Coord.AtRestBut (reads : ConnId → Bool) (s : Coord) : Prop where
  threads : ∀ c, (s.pc c).resting = true ∨ s.InSend reads c ∨
    (s.pc c).needsLock = true ∧ s.holder ≠ none
  lock : ∀ c, s.holder = some c → s.InSend reads c

/-- No thread has anything at hand, and the lock is free. -/
structure Coord.AtRest (s : Coord) : Prop where
  resting : ∀ c, (s.pc c).resting = true
  free : s.holder = none

section Rest

variable {s : Coord} {reads : ConnId → Bool}

/-- Where no thread can get on, each has nothing at hand or waits for a peer that does not read. -/
theorem Coord.LockInvBut.atRestBut (inv : s.LockInvBut reads)
    (hstuck : ∀ c ch, s.attempt reads c ch = s) : s.AtRestBut reads := by
  have hlock : ∀ c, s.holder = some c → s.InSend reads c := by
    intro c hheld
    rcases inv.holding c hheld with ⟨todo, hsaving⟩ | ⟨hstalls, -⟩
    · -- a thread that saves goes on
      have hgoes : (s.pc c).resting = false ∧ (s.pc c).needsLock = false ∧
          (s.pc c).stalls reads c = false := by
        rw [hsaving]
        exact ⟨rfl, rfl, rfl⟩
      obtain ⟨ch, hmoved⟩ := attempt_ne hgoes.1 (Or.inr hgoes.2.1) hgoes.2.2
      exact absurd (hstuck c ch) hmoved
    · exact ⟨hstalls, fun _ => hheld⟩
  refine ⟨fun c => ?_, hlock⟩
  cases hbusy : (s.pc c).resting with
  | true => exact Or.inl rfl
  | false =>
    right
    by_cases hwaits : (s.pc c).needsLock = true ∧ s.holder ≠ none
    · exact Or.inr hwaits
    have hfree : s.holder = none ∨ (s.pc c).needsLock = false := by
      cases hneeds : (s.pc c).needsLock with
      | false => exact Or.inr rfl
      | true => exact Or.inl (by_contra fun hheld => hwaits ⟨hneeds, hheld⟩)
    cases hstalls : (s.pc c).stalls reads c with
    | false =>
      obtain ⟨ch, hmoved⟩ := attempt_ne hbusy hfree hstalls
      exact absurd (hstuck c ch) hmoved
    | true =>
      refine Or.inl ⟨hstalls, fun hneeds => ?_⟩
      -- the thread would take the lock
      have hnone := hfree.resolve_right (by rw [hneeds]; simp)
      have hheld := congrArg Coord.holder (hstuck c {})
      rw [Coord.attempt, if_pos hstalls, hneeds, hnone] at hheld
      exact hnone.trans hheld.symm

/-- Where every peer reads, the threads rest and the lock is free. -/
theorem Coord.AtRestBut.atRest (h : s.AtRestBut fun _ => true) : s.AtRest := by
  have hnone : ∀ c, ¬ s.InSend (fun _ => true) c := by
    rintro c ⟨hstalls, -⟩
    rw [Pc.stalls_reads] at hstalls
    cases hstalls
  have hfree : s.holder = none :=
    Option.eq_none_iff_forall_ne_some.mpr fun c hheld => hnone c (h.lock c hheld)
  refine ⟨fun c => ?_, hfree⟩
  rcases h.threads c with hresting | hsend | ⟨-, hheld⟩
  · exact hresting
  · exact absurd hsend (hnone c)
  · exact absurd hfree hheld

end Rest

/-! ### The activity ends -/

section Ends

variable {s s' : Coord} {conns : Finset ConnId} {reads : ConnId → Bool}

/-- Only these connections have threads with something at hand. -/
def Coord.BusyIn (conns : Finset ConnId) (s : Coord) : Prop :=
  ∀ c, c ∉ conns → (s.pc c).resting = true

/-- What the thread has still to write, and the lock that it may still take for a send. -/
def Coord.writesAt (s : Coord) (c : ConnId) : Nat :=
  (s.pc c).writes + if s.holder = some c then 0 else 1

/-- **Step lemma.** A thread that gets on is one of the busy ones, and the others stay where they
    are. -/
theorem Coord.attempt_nearer {c : ConnId} {ch : Choice} (hne : s.attempt reads c ch ≠ s) :
    (s.pc c).resting = false ∧ (∀ c', c' ≠ c → (s.attempt reads c ch).pc c' = s.pc c') ∧
      (((s.attempt reads c ch).pc c).rank < (s.pc c).rank ∨
        ((s.attempt reads c ch).pc c).rank = (s.pc c).rank ∧
          (∀ c', c' ≠ c → (s.attempt reads c ch).writesAt c' = s.writesAt c') ∧
          (s.attempt reads c ch).writesAt c < s.writesAt c) := by
  cases hstalls : (s.pc c).stalls reads c with
  | false =>
    rw [attempt_of_returns hstalls] at hne ⊢
    have hmoves := s.step_moves (.proceed c ch)
    have hbusy : (s.pc c).resting = false := by
      by_contra hresting
      rw [proceed_idle (by simpa using hresting) ch] at hne
      exact hne rfl
    refine ⟨hbusy, fun c' hc => hmoves.pc_of_ne hc, ?_⟩
    rcases hmoves.rank_lt hbusy with ⟨hsame, -⟩ | hrank | ⟨hrank, hwrites, hholder, -⟩
    · exact absurd hsame hne
    · exact Or.inl hrank
    · -- a write of a save, which leaves the lock where it is
      refine Or.inr ⟨hrank, fun c' hc => ?_, ?_⟩
      · rw [writesAt, writesAt, hholder, hmoves.pc_of_ne hc]
      · rw [writesAt, writesAt, hholder]
        exact Nat.add_lt_add_right hwrites _
  | true =>
    rcases attempt_of_stalls hstalls ch with hidle | ⟨-, hfree, hstands⟩
    · exact absurd hidle hne
    · -- the thread takes the lock for its send, and stays where it is
      rw [hstands]
      refine ⟨(Pc.of_stalls hstalls).1, fun _ _ => rfl, Or.inr ⟨rfl, fun c' hc => ?_, ?_⟩⟩
      · simp [writesAt, hfree, Ne.symm hc]
      · simp [writesAt, hfree]

/-- **Termination.** The threads cannot go on forever: each step brings one nearer to its end, is a
    write of a save, or takes the lock for a send. -/
theorem Coord.BusyIn.terminates (hin : s.BusyIn conns) : Terminates (Coord.Advances reads) s := by
  have hmem {s : Coord} {c : ConnId} (hin : s.BusyIn conns) (hbusy : (s.pc c).resting = false) :
      c ∈ conns := by
    by_contra hc
    rw [hin c hc] at hbusy
    cases hbusy
  refine terminates_of_sum conns (fun s c => (s.pc c).rank) Coord.writesAt
    (I := Coord.BusyIn conns) (fun s s' hin h => ?_) (fun s s' hin h => ?_) hin
  · obtain ⟨c, ch, rfl, hne⟩ := h
    obtain ⟨hbusy, hother, -⟩ := attempt_nearer hne
    intro c' hc'
    rw [hother c' (fun heq => hc' (heq ▸ hmem hin hbusy))]
    exact hin c' hc'
  · obtain ⟨c, ch, rfl, hne⟩ := h
    obtain ⟨hbusy, hother, hnearer⟩ := attempt_nearer hne
    exact ⟨c, hmem hin hbusy, fun c' hc' => by rw [hother c' hc'], hnearer⟩

end Ends

/-- The lock is held for saves only, in every run of the coordinator. -/
theorem lockInv_run (file : Option (List UInt8)) (acts : List Action) :
    (coordinator.run (.boot file) acts).LockInv :=
  Machine.run_induction (M := coordinator) (P := Coord.LockInv)
    (fun s a inv => inv.step (s.step_moves a)) (lockInv_boot file) acts

/-- Only connections that were used have threads with something at hand. -/
theorem busyIn_run (file : Option (List UInt8)) (acts : List Action) :
    (coordinator.run (.boot file) acts).BusyIn (acts.map Action.conn).toFinset := by
  suffices h : ∀ s : Coord, ∀ c, c ∉ acts.map Action.conn →
      (coordinator.run s acts).pc c = s.pc c by
    intro c hc
    rw [h _ c (by simpa using hc)]
    rfl
  induction acts with
  | nil => exact fun s c _ => rfl
  | cons a acts ih =>
    intro s c hc
    rw [List.map_cons, List.mem_cons, not_or] at hc
    rw [Machine.run_cons, ih _ c hc.2]
    exact (s.step_moves a).pc_of_ne hc.1

/-- A worker that registers and does not read keeps every thread from the lock. -/
theorem Coord.registration_keeps_lock {s : Coord} {reads : ConnId → Bool} {c : ConnId}
    {m : WireMessage} (hpc : s.pc c = .handle m) (hm : m.type = .REGISTER)
    (hreads : reads c = false) (hfree : s.holder = none) (ch : Choice) :
    (s.attempt reads c ch).holder = some c ∧
      ∀ c' ch', ((s.attempt reads c ch).pc c').needsLock = true →
        (s.attempt reads c ch).attempt reads c' ch' = s.attempt reads c ch := by
  have hstalls : (s.pc c).stalls reads c = true := by
    simp [hpc, Pc.stalls, Pc.sendsTo, hm, hreads]
  have hneeds : (s.pc c).needsLock = true := by simp [hpc, Pc.needsLock, hm]
  have hstands : (s.attempt reads c ch).holder = some c := by
    rw [attempt, if_pos hstalls, if_pos (by simp [hneeds, hfree])]
  refine ⟨hstands, fun c' ch' hwaits => ?_⟩
  -- whoever needs the lock waits, a thread before such a send of its own too
  generalize s.attempt reads c ch = s' at hstands hwaits ⊢
  simp [attempt, step, hwaits, hstands]

/-- **The coordinator settles.** From every state of every run, with any number of connections,
    whichever peers do not read from then on, and whichever thread takes the next step, the threads
    finish what they have at hand, but for those that wait for a peer that does not read. -/
theorem coordinator_settles (file : Option (List UInt8)) (acts : List Action)
    (reads : ConnId → Bool) :
    Settles (Coord.Advances reads) (Coord.AtRestBut reads) (coordinator.run (.boot file) acts) := by
  refine (busyIn_run file acts).terminates.settles (fun s s' inv hstep => ?_)
    ((lockInv_run file acts).but reads) (fun s inv hstuck => inv.atRestBut fun c ch => ?_)
  · obtain ⟨c, ch, rfl, -⟩ := hstep
    exact inv.attempt c ch
  · by_contra hne
    exact hstuck _ ⟨c, ch, rfl, hne⟩

end FailureFabric
