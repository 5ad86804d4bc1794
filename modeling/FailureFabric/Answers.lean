import FailureFabric.Handshake

namespace FailureFabric

open Library

/-!
# Questions and answers

Two kinds of messages are questions: a registration, and the report of a completion.  Each is
answered on the connection that it came from, while other threads may send work on the same
connection at any time.  Between a report and its answer lie two registry calls of the one thread
that handles it, and any steps of the others.

* `asked`, `answered` — the questions received on a connection, and the answers sent on it;
* `WireMessage.AnsweredBy` — the answer fits the question;
* `Pc.Owes` — what a thread still has to answer, from where it stands;
* `answers_in_order` — the answers fit the questions one by one and in order, but for the question
  that the thread is handling.
-/

/-- The message is a question. -/
def WireMessage.asks (m : WireMessage) : Bool := m.type = .REGISTER || m.type = .COMPLETE

/-- The message answers the question `m`: a registration with the worker's id, a completion with
    an acknowledgement or a refusal of it. -/
def WireMessage.AnsweredBy (m ans : WireMessage) : Prop :=
  match m.type with
  | .REGISTER => ans.type = .REGISTER_ACK ∧ (m.worker.isNull = false → ans.worker = m.worker)
  | .COMPLETE => ans.op = m.op ∧
      (ans.type = .ACK ∧ ans.flag = true ∨ ans.type = .FENCE ∧ ans.flag = false)
  | _ => False

/-- The questions received on a connection, in order. -/
def asked (c : ConnId) (t : List Event) : List WireMessage :=
  t.filterMap fun
    | .received c' m => if c' = c ∧ m.asks = true then some m else none
    | _ => none

/-- The answers sent on a connection, in order: all that is sent but work. -/
def answered (c : ConnId) (t : List Event) : List WireMessage :=
  t.filterMap fun
    | .sent c' m => if c' = c ∧ m.type ≠ .DISPATCH then some m else none
    | _ => none

/-- The thread that stands at `pc` still has to answer the questions of the list. -/
def Pc.Owes (pc : Pc) (rest : List WireMessage) : Prop :=
  match pc with
  | .handle m => rest = if m.asks then [m] else []
  | .completeConfirm op _ | .completeAck op _ | .completeFence op =>
    ∃ m, m.type = .COMPLETE ∧ m.op = op ∧ rest = [m]
  | _ => rest = []

theorem asked_append (c : ConnId) (t evs : List Event) :
    asked c (t ++ evs) = asked c t ++ asked c evs := List.filterMap_append

theorem answered_append (c : ConnId) (t evs : List Event) :
    answered c (t ++ evs) = answered c t ++ answered c evs := List.filterMap_append

/-- A thread never owes more than one answer. -/
theorem Pc.Owes.length_le {pc : Pc} {rest : List WireMessage} (h : pc.Owes rest) :
    rest.length ≤ 1 := by
  unfold Pc.Owes at h
  split at h
  · subst h
    split_ifs <;> simp
  · obtain ⟨m, -, -, rfl⟩ := h
    exact le_rfl
  · obtain ⟨m, -, -, rfl⟩ := h
    exact le_rfl
  · obtain ⟨m, -, -, rfl⟩ := h
    exact le_rfl
  · subst h
    exact Nat.zero_le _

/-! ### One step -/

section Step

variable {s s' : Coord} {c : ConnId} {a : Action} {evs : List Event} {rest : List WireMessage}

/-- The step of another thread asks and answers nothing on a connection. -/
theorem Coord.Moves.silent_of_ne {c' : ConnId} (h : s.Moves c a s' evs) (hne : c' ≠ c) :
    asked c' evs = [] ∧ answered c' evs = [] := by
  have hc : ¬ c = c' := fun heq => hne heq.symm
  cases h with
  | localStep a new evs h =>
    generalize s.pc c = pc at h
    cases h <;> simp [asked, answered, dispatchMessage, hc]
  | register => simp [asked, answered, hc]
  | idle | callStep | dispatchLock | marked | markedAgain | lost | saveStart | saveItem | saveEnd =>
    simp [asked, answered]
  | transferred a ch => simp [asked, answered, lostTransfer]
  | recorded a ch cur b => simp [asked, answered, lostReport]

/-- What a step does about the questions of its thread: of those that it owed and those that it
    receives, it answers a first part and owes the others. -/
def Serves (c : ConnId) (rest : List WireMessage) (evs : List Event) (pc : Pc) : Prop :=
  ∃ now later, rest ++ asked c evs = now ++ later ∧
    List.Forall₂ WireMessage.AnsweredBy now (answered c evs) ∧ pc.Owes later

/-- A step that asks and answers nothing carries on what is owed. -/
theorem Serves.of_silent {pc : Pc} (hasked : asked c evs = []) (hanswered : answered c evs = [])
    (howes : pc.Owes rest) : Serves c rest evs pc := by
  refine ⟨[], rest, ?_, ?_, howes⟩
  · rw [hasked, List.append_nil, List.nil_append]
  · rw [hanswered]
    exact .nil

/-- A step that answers the question that is owed owes nothing more. -/
theorem Serves.of_answer {pc : Pc} {m ans : WireMessage} (hasked : asked c evs = [])
    (hanswered : answered c evs = [ans]) (hfits : m.AnsweredBy ans) (howes : pc.Owes []) :
    Serves c [m] evs pc := by
  refine ⟨[m], [], ?_, ?_, howes⟩
  · rw [hasked]
  · rw [hanswered]
    exact .cons hfits .nil

/-- The first step of the handling of a message: a registration is answered at once, a completion
    is owed on, and nothing else is a question. -/
theorem Coord.handleMessage_serves {m : WireMessage} {ch : Choice}
    (howes : (Pc.handle m).Owes rest) :
    Serves c rest (s.handleMessage c m ch).2 ((s.handleMessage c m ch).1.pc c) := by
  have hrest : rest = if m.asks then [m] else [] := howes
  have hnone (hasks : m.asks = false) : rest = [] := by rw [hrest, hasks]; rfl
  unfold handleMessage
  split
  · next htype =>
    obtain rfl : rest = [m] := hrest.trans (if_pos (by simp [WireMessage.asks, htype]))
    dsimp only
    rw [goto_pc_self]
    refine .of_answer rfl (by simp [answered]; rfl) ?_ rfl
    simp +contextual [WireMessage.AnsweredBy, htype]
  · next htype =>
    obtain rfl := hnone (by simp [WireMessage.asks, htype])
    exact .of_silent rfl rfl (by rw [goto_pc_self]; rfl)
  · next htype =>
    obtain rfl := hnone (by simp [WireMessage.asks, htype])
    exact .of_silent rfl rfl (by rw [goto_pc_self]; rfl)
  · next htype =>
    obtain rfl : rest = [m] := hrest.trans (if_pos (by simp [WireMessage.asks, htype]))
    refine .of_silent rfl rfl ?_
    dsimp only
    rw [goto_pc_self]
    split_ifs <;> exact ⟨m, htype, rfl, rfl⟩
  · next htype =>
    obtain rfl := hnone (by simp [WireMessage.asks, htype])
    exact .of_silent rfl rfl (by rw [goto_pc_self]; rfl)
  · next hregister _ _ hcomplete _ =>
    have hasks : m.asks = false := by
      rw [WireMessage.asks, Bool.or_eq_false_iff]
      exact ⟨decide_eq_false hregister, decide_eq_false hcomplete⟩
    obtain rfl := hnone hasks
    exact .of_silent rfl rfl (by rw [goto_pc_self]; rfl)

/-- A step serves the questions of its thread. -/
theorem Coord.step_serves (a : Action) (howes : (s.pc a.conn).Owes rest) :
    Serves a.conn rest (s.step a).2 ((s.step a).1.pc a.conn) := by
  by_cases hhandle : ∃ m, s.pc a.conn = .handle m
  · obtain ⟨m, hpc⟩ := hhandle
    rcases step_of_started (s := s) (a := a) (by simp [hpc]) with hidle | ⟨ch, -, hstep⟩
    · rw [hidle]
      exact .of_silent rfl rfl howes
    · rw [hstep, advance, hpc]
      exact handleMessage_serves (hpc ▸ howes)
  · have hmoves := s.step_moves a
    generalize (s.step a).1 = s', (s.step a).2 = evs, a.conn = c at *
    cases hmoves with
    | idle => exact .of_silent rfl rfl howes
    | localStep a new evs h =>
      rw [goto_pc_self]
      generalize s.pc c = pc at *
      cases h with
      | receive m =>
        obtain rfl : rest = [] := howes
        refine ⟨[], if m.asks then [m] else [], ?_, .nil, rfl⟩
        by_cases hasks : m.asks = true <;> simp [asked, hasks]
      | asked m | ignored m => exact absurd ⟨m, rfl⟩ hhandle
      | sentAck op e =>
        obtain ⟨m, htype, hop, rfl⟩ := howes
        refine .of_answer rfl (by simp [answered]; rfl) ?_ rfl
        simp [WireMessage.AnsweredBy, htype, hop]
      | sentFence op =>
        obtain ⟨m, htype, hop, rfl⟩ := howes
        refine .of_answer rfl (by simp [answered]; rfl) ?_ rfl
        simp [WireMessage.AnsweredBy, htype, hop]
      | sentDispatch op auth target | sentAgain fresh r =>
        exact .of_silent rfl (by simp [answered, dispatchMessage]) howes
      | accept | disconnect | noWorkers | notRunning | allDone | recover | built | noReplacement
      | gaveUp | verified => exact .of_silent rfl rfl howes
    | callStep ch rc new h =>
      rw [goto_pc_self]
      refine .of_silent rfl rfl ?_
      generalize s.pc c = pc, (s.call rc).2 = res at *
      cases h with
      | running m | failure m | reported m | notReported m => exact absurd ⟨m, rfl⟩ hhandle
      | started | confirm | redispatch => exact howes
    | register a m wid order h => exact absurd ⟨m, h⟩ hhandle
    | dispatchLock ch op auth wid target rest' h | marked ch op auth target h
    | markedAgain a r h | lost a h | saveStart ch op o h | saveItem a item todo h | saveEnd a h
    | transferred a ch h | recorded a ch cur b h =>
      rw [h] at howes
      exact .of_silent rfl rfl ((goto_pc_self ..).symm ▸ howes)

end Step

/-! ### Runs -/

/-- The answers sent on a connection fit the questions received on it, and its thread owes the
    rest. -/
def AnswerInv (c : ConnId) (s : Coord) (t : List Event) : Prop :=
  ∃ done rest, asked c t = done ++ rest ∧
    List.Forall₂ WireMessage.AnsweredBy done (answered c t) ∧ (s.pc c).Owes rest

/-- **Step lemma.** -/
theorem AnswerInv.step {s : Coord} {t : List Event} {c : ConnId} (inv : AnswerInv c s t)
    (a : Action) : AnswerInv c (s.step a).1 (t ++ (s.step a).2) := by
  obtain ⟨done, rest, hasked, hfits, howes⟩ := inv
  by_cases hc : c = a.conn
  · subst hc
    obtain ⟨now, later, hserved, hnow, hlater⟩ := Coord.step_serves a howes
    refine ⟨done ++ now, later, ?_, ?_, hlater⟩
    · rw [asked_append, hasked, List.append_assoc, hserved, List.append_assoc]
    · rw [answered_append]
      exact List.rel_append hfits hnow
  · obtain ⟨hnone, hsilent⟩ := (s.step_moves a).silent_of_ne hc
    refine ⟨done, rest, ?_, ?_, ?_⟩
    · rw [asked_append, hnone, List.append_nil, hasked]
    · rwa [answered_append, hsilent, List.append_nil]
    · rwa [(s.step_moves a).pc_of_ne hc]

theorem answerInv_boot (file : Option (List UInt8)) (c : ConnId) :
    AnswerInv c (.boot file) [] :=
  ⟨[], [], rfl, .nil, rfl⟩

/-- The answers sent on a connection fit the questions received on it one by one and in order, but
    for at most one question at the end, which its thread is handling. -/
def Coord.AnswersInOrder (s : Coord) (t : List Event) (c : ConnId) : Prop :=
  ∃ done rest, asked c t = done ++ rest ∧
    List.Forall₂ WireMessage.AnsweredBy done (answered c t) ∧ rest.length ≤ 1 ∧
    (s.pc c = .reading ∨ s.pc c = .ended → rest = [])

/-- **Every question is answered once, in order and on its connection.** -/
theorem answers_in_order (file : Option (List UInt8)) (acts : List Action) (c : ConnId) :
    (coordinator.run (.boot file) acts).AnswersInOrder ((Coord.boot file).trace acts) c := by
  have inv : AnswerInv c (coordinator.run (.boot file) acts) ((Coord.boot file).trace acts) :=
    Machine.trace_induction (M := coordinator) (C := fun _ _ => True) (P := AnswerInv c)
      (fun _ a _ _ inv => inv.step a) (answerInv_boot file c)
      (Machine.always_iff.mpr fun _ _ _ _ => trivial)
  obtain ⟨done, rest, hasked, hfits, howes⟩ := inv
  refine ⟨done, rest, hasked, hfits, howes.length_le, ?_⟩
  rintro (hpc | hpc) <;>
  · rw [hpc] at howes
    exact howes

end FailureFabric
