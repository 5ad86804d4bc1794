import FailureFabric.Explain
import FailureFabric.Protocol

namespace FailureFabric

/-!
# The worker

The process that does the work (`worker.cpp`).  It connects, registers, and waits for the answer.
Then it waits for work, announces that it runs, leaves a line in a marker file, which is its side
effect, reports, and exits.  A worker takes one piece of work in its life.

* `Worker`, `WorkerPc` — the process, and where it stands;
* `WorkerEvent` — what it does that can be seen;
* `Worker.proceed`, `Worker.receive`, `Worker.lose` — one send or side effect, one message that
  arrives, or the end of the connection;
* `Worker.Moves` — all of these, as a relation between where the worker stands before and after.

The marker file is named after the generation of the attempt and not after the operation.  In the
source the name is written with the escape `\a`, which is the bell character, where a backslash and
the letter `a` are meant.
-/

/-- Where a worker stands: what it does next. -/
inductive WorkerPc
  /-- The send of `REGISTER`. -/
  | register
  /-- The `recv` of the answer to it. -/
  | registering
  /-- The `recv` of the loop. -/
  | waiting
  /-- The send of `RUNNING`. -/
  | starting (m : WireMessage)
  /-- The side effect. -/
  | working (m : WireMessage)
  /-- The send of `FAILURE`. -/
  | failing (m : WireMessage)
  /-- The send of `COMPLETE`. -/
  | completing (m : WireMessage)
  /-- The process has returned, or was killed. -/
  | exited

/-- A worker process, with its arguments and the ids that it has drawn. -/
structure Worker where
  workdir : Text := []
  mode : Text := []
  wid : WorkerId := {}
  boot : WorkerBootId := {}
  pc : WorkerPc := .register

/-- What a worker does that can be seen. -/
inductive WorkerEvent
  | sent (m : WireMessage)
  /-- The side effect for a message: a line is appended to a file, if the file can be opened. -/
  | effect (m : WireMessage) (path line : Text) (opened : Bool)
deriving DecidableEq

namespace Worker

open Text

variable (w : Worker) (m : WireMessage)

/-- The message that registers the worker. -/
def registration : WireMessage :=
  { type := .REGISTER, worker := w.wid, boot := w.boot, text := w.workdir }

/-- What every report on a piece of work carries. -/
def report (type : ProtocolMessage) (text : Text) : WireMessage :=
  { type, op := m.op, attempt := m.attempt, worker := w.wid, boot := w.boot,
    authority := m.authority, text }

/-- The generation of the attempt, as the marker shows it. -/
def attemptNumber : Text := decimal m.authority.attemptGeneration.value.toNat

/-- The name of the marker file, in a buffer of 512 characters with the one that ends it. -/
def markerPath : Text :=
  (w.workdir ++ [0x07] ++ ofLiteral "ttempt_" ++ attemptNumber m ++
    ofLiteral "_marker.txt").take 511

/-- The line that the worker leaves in it. -/
def markerLine : Text :=
  ofLiteral "worker_" ++ w.mode ++ ofLiteral "_attempt_" ++ attemptNumber m ++ ofLiteral " marker\n"

/-- The worker's own next step.  `ok` says whether the send succeeds, or the file can be opened. -/
def proceed (ok : Bool) : Worker × List WorkerEvent :=
  let send (m : WireMessage) (next : WorkerPc) : Worker × List WorkerEvent :=
    if ok then ({ w with pc := next }, [.sent m]) else ({ w with pc := .exited }, [])
  match w.pc with
  | .register => send w.registration .registering
  | .starting m => send (w.report m .RUNNING []) (.working m)
  | .working m =>
    -- in the mode `slow` the worker sleeps between the side effect and the report
    ({ w with pc := if w.mode = ofLiteral "fail" then .failing m else .completing m },
      [.effect m (w.markerPath m) (w.markerLine m) ok])
  | .failing m => send (w.report m .FAILURE (ofLiteral "known no-side-effect failure")) .exited
  | .completing m => send (w.report m .COMPLETE (ofLiteral "result=done")) .exited
  | .registering | .waiting | .exited => (w, [])

/-- A message arrives. -/
def receive : Worker :=
  match w.pc with
  | .registering => { w with pc := if m.type = .REGISTER_ACK then .waiting else .exited }
  | .waiting =>
    match m.type with
    | .DISPATCH => { w with pc := .starting m }
    | .SHUTDOWN => { w with pc := .exited }
    | _ => w
  | _ => w

/-- The connection ends while the worker waits for a message. -/
def lose : Worker :=
  match w.pc with
  | .registering | .waiting => { w with pc := .exited }
  | _ => w

/-- The worker waits for a message. -/
def receives : Bool :=
  match w.pc with
  | .registering | .waiting => true
  | _ => false

/-- Everything a worker can do: where it stands then, what it receives, and the events. -/
inductive Moves (w : Worker) : WorkerPc → Option WireMessage → List WorkerEvent → Prop
  | stay : Moves w w.pc none []
  | giveUp : Moves w .exited none []
  | registered (hpc : w.pc = .register) : Moves w .registering none [.sent w.registration]
  | started (m : WireMessage) (hpc : w.pc = .starting m) :
      Moves w (.working m) none [.sent (w.report m .RUNNING [])]
  | worked (m : WireMessage) (pc : WorkerPc) (ok : Bool) (hpc : w.pc = .working m)
      (hnext : pc = .failing m ∨ pc = .completing m) :
      Moves w pc none [.effect m (w.markerPath m) (w.markerLine m) ok]
  | failed (m : WireMessage) (text : Text) (hpc : w.pc = .failing m) :
      Moves w .exited none [.sent (w.report m .FAILURE text)]
  | completed (m : WireMessage) (text : Text) (hpc : w.pc = .completing m) :
      Moves w .exited none [.sent (w.report m .COMPLETE text)]
  | acknowledged (m : WireMessage) (hpc : w.pc = .registering) (hm : m.type = .REGISTER_ACK) :
      Moves w .waiting (some m) []
  | refused (m : WireMessage) (hpc : w.pc = .registering) (hm : m.type ≠ .REGISTER_ACK) :
      Moves w .exited (some m) []
  | dispatched (m : WireMessage) (hpc : w.pc = .waiting) (hm : m.type = .DISPATCH) :
      Moves w (.starting m) (some m) []
  | shutDown (m : WireMessage) (hpc : w.pc = .waiting) (hm : m.type = .SHUTDOWN) :
      Moves w .exited (some m) []
  | ignored (m : WireMessage) (hpc : w.pc = .waiting) (hm : m.type ≠ .DISPATCH) :
      Moves w .waiting (some m) []

variable {w : Worker}

/-- A worker's own step is one of the moves. -/
theorem proceed_moves (ok : Bool) :
    ∃ pc, (w.proceed ok).1 = { w with pc } ∧ w.Moves pc none (w.proceed ok).2 := by
  unfold proceed
  cases hpc : w.pc with
  | register =>
    cases ok with
    | false => exact ⟨_, rfl, .giveUp⟩
    | true => exact ⟨_, rfl, .registered hpc⟩
  | starting m =>
    cases ok with
    | false => exact ⟨_, rfl, .giveUp⟩
    | true => exact ⟨_, rfl, .started m hpc⟩
  | working m =>
    refine ⟨_, rfl, .worked m _ ok hpc ?_⟩
    split
    · exact .inl rfl
    · exact .inr rfl
  | failing m =>
    cases ok with
    | false => exact ⟨_, rfl, .giveUp⟩
    | true => exact ⟨_, rfl, .failed m _ hpc⟩
  | completing m =>
    cases ok with
    | false => exact ⟨_, rfl, .giveUp⟩
    | true => exact ⟨_, rfl, .completed m _ hpc⟩
  | registering | waiting | exited => exact ⟨_, rfl, .stay⟩

/-- A message that arrives at a worker that waits for one is one of the moves. -/
theorem receive_moves (m : WireMessage) (h : w.receives = true) :
    ∃ pc, w.receive m = { w with pc } ∧ w.Moves pc (some m) [] := by
  unfold receive
  cases hpc : w.pc with
  | registering =>
    dsimp only
    split_ifs with hm
    · exact ⟨_, rfl, .acknowledged m hpc hm⟩
    · exact ⟨_, rfl, .refused m hpc hm⟩
  | waiting =>
    dsimp only
    split
    · next hm => exact ⟨_, rfl, .dispatched m hpc hm⟩
    · next hm => exact ⟨_, rfl, .shutDown m hpc hm⟩
    · next hm _ => exact ⟨.waiting, by rw [← hpc], .ignored m hpc hm⟩
  | register | starting | working | failing | completing | exited =>
    rw [receives, hpc] at h
    cases h

/-- The end of the connection is one of the moves. -/
theorem lose_moves : ∃ pc, w.lose = { w with pc } ∧ w.Moves pc none [] := by
  unfold lose
  split
  · exact ⟨_, rfl, .giveUp⟩
  · exact ⟨_, rfl, .giveUp⟩
  · exact ⟨_, rfl, .stay⟩

end Worker

end FailureFabric
