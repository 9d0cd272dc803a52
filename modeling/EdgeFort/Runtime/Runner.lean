/-
`_ProcessInferenceRunner` (`runtime.py`): one child process over a socket pair.

A section under the runner's lock is one operation.  What the child sends back, and
what the engine answers, is left to the environment; a child may die at any time.
-/
import EdgeFort.Effect.Program
import EdgeFort.Python.Value
import EdgeFort.Runtime.Executor

namespace EdgeFort
namespace Runtime

open Effect

abbrev Pid := Nat

/-! ## Operations -/

/-- A frame from the child, once `decode_frame` has read it.  `malformed` is one
that breaks the protocol. -/
inductive Reply (ρ : Type) where
  | ready
  | startupError (code message : PyStr)
  | loaded (generation : Int)
  | loadError (generation : Int) (code message : PyStr)
  | result (request : Int) (logits : ρ)
  | error (request : Int) (code message : PyStr)
  | malformed

/-- A frame to the child. -/
inductive Request where
  | load (generation : Int)
  | predict (request generation : Int)
  | close
  deriving DecidableEq

/-- What the first section of `start` finds. -/
inductive Check where
  | alive
  | stale (process : Option Pid)

inductive RunnerOp (ρ : Type) where
  /-- `self._process_runners = [...]` -/
  | newRunners (count : Nat)
  /-- the first section of `start` -/
  | startCheck (n : Nat)
  /-- the stale process and its channel are closed -/
  | reap (process : Option Pid)
  /-- the second section of `start`: whether it has started a child -/
  | spawn (n : Nat)
  /-- `self._channel` and `self._process` are there -/
  | connected (n : Nat)
  /-- and the process is alive -/
  | usable (n : Nat)
  | send (n : Nat) (frame : Request)
  | recv (n : Nat)
  /-- `_detach`; `closing` tells the call in the executor's `close` from the others -/
  | detach (n : Nat) (closing : Bool)
  /-- `terminate`, `kill` and `close` of a process -/
  | kill (process : Pid)
  | generation (n : Nat)
  | setGeneration (n : Nat) (generation : Int)
  | nextRequest (n : Nat)
  /-- `engine.prepare_isolated`, answered by the generation prepared -/
  | prepareIsolated (t : TaskId)
  /-- `engine.isolated_runtime_snapshot` -/
  | isolatedRuntimeSnapshot
  /-- `engine.complete` -/
  | engineComplete (logits : ρ)

def RunnerRes (ρ : Type) : RunnerOp ρ → Type
  | .startCheck _ => Check
  | .spawn _ | .connected _ | .usable _ => Bool
  | .recv _ => Reply ρ
  | .detach _ _ => Option Pid
  | .generation _ => Option Int
  | .nextRequest _ | .prepareIsolated _ | .isolatedRuntimeSnapshot => Int
  | .engineComplete _ => ρ
  | .newRunners _ | .reap _ | .send _ _ | .kill _ | .setGeneration _ _ => Unit

abbrev RunnerProg (ρ α : Type) := Prog (RunnerOp ρ) (RunnerRes ρ) PyError α

/-! ## The runner's methods -/

namespace Runner

variable {ρ : Type}

def startCheck (n : Nat) : RunnerProg ρ Check := Prog.perform (RunnerOp.startCheck n)

def reap (process : Option Pid) : RunnerProg ρ Unit := Prog.perform (RunnerOp.reap process)

def spawn (n : Nat) : RunnerProg ρ Bool := Prog.perform (RunnerOp.spawn n)

def connected (n : Nat) : RunnerProg ρ Bool := Prog.perform (RunnerOp.connected n)

def usable (n : Nat) : RunnerProg ρ Bool := Prog.perform (RunnerOp.usable n)

def send (n : Nat) (frame : Request) : RunnerProg ρ Unit := Prog.perform (RunnerOp.send n frame)

def recv (n : Nat) : RunnerProg ρ (Reply ρ) := Prog.perform (RunnerOp.recv n)

def detach (n : Nat) (closing : Bool) : RunnerProg ρ (Option Pid) :=
  Prog.perform (RunnerOp.detach n closing)

def kill (process : Pid) : RunnerProg ρ Unit := Prog.perform (RunnerOp.kill process)

def generation (n : Nat) : RunnerProg ρ (Option Int) := Prog.perform (RunnerOp.generation n)

def setGeneration (n : Nat) (g : Int) : RunnerProg ρ Unit :=
  Prog.perform (RunnerOp.setGeneration n g)

def nextRequest (n : Nat) : RunnerProg ρ Int := Prog.perform (RunnerOp.nextRequest n)

/-- `abort`, with what tells its `_detach` apart. -/
def abortWith (n : Nat) (closing : Bool) : RunnerProg ρ Unit := do
  match ← detach n closing with
  | none => return ()
  | some process => kill process

def abort (n : Nat) : RunnerProg ρ Unit := abortWith n false

/-- The handlers of `_send_frame` and `_receive_frame`. -/
def transportFailed {α : Type} (n : Nat) (deadlineError : Bool) (closed : PyStr) (e : PyError) :
    RunnerProg ρ α :=
  if e.cls = .timeoutError then do
    abort n
    throw (if deadlineError then
      raise .executionDeadlineExceeded "inference execution deadline exceeded"
    else raise .backendProcessError "isolated inference worker control operation timed out")
  else if e.cls = .eofError ∨ e.cls = .osError ∨ e.cls = .ipcProtocolError then do
    abort n
    throw (raise .backendProcessError closed)
  else throw e

def unavailable : PyError :=
  raise .backendProcessError "isolated inference worker is unavailable"

def sendFrame (n : Nat) (frame : Request) (deadlineError : Bool) : RunnerProg ρ Unit := do
  if ← usable n then
    (send n frame).catch'
      (transportFailed n deadlineError "isolated inference worker transport failed")
  else do
    abort n
    throw unavailable

def receiveFrame (n : Nat) (deadlineError : Bool) : RunnerProg ρ (Reply ρ) := do
  if ← connected n then
    (recv n).catch' (transportFailed n deadlineError
      "isolated inference worker exited or violated IPC protocol")
  else throw unavailable

/-- The end of `start`: the child reports that it is ready. -/
def handshake (n : Nat) : RunnerProg ρ Unit := do
  match ← receiveFrame n false with
  | .ready => return ()
  | .startupError code message =>
    abort n
    throw (raise .backendProcessError (py "isolated inference worker failed resource setup (" ++
      code ++ py "): " ++ message))
  | _ =>
    abort n
    throw (raise .backendProcessError "isolated inference worker failed startup handshake")

def start (n : Nat) : RunnerProg ρ Unit := do
  match ← startCheck n with
  | .alive => return ()
  | .stale process =>
    reap process
    if ← spawn n then handshake n else return ()

/-- The rest of `load`, once the runner has been started. -/
def sendModel (n : Nat) (prepared : Int) : RunnerProg ρ Unit := do
  sendFrame n (.load prepared) false
  match ← receiveFrame n false with
  | .loaded g => if g = prepared then setGeneration n g else rejected
  | .loadError g code message =>
    if g = prepared then
      throw (raise .backendProcessError (py "isolated inference worker rejected model (" ++
        code ++ py "): " ++ message))
    else rejected
  | _ => rejected
where
  rejected : RunnerProg ρ Unit := do
    abort n
    throw (raise .backendProcessError "isolated inference worker rejected runtime snapshot")

/-- `load`, for a snapshot of this generation. -/
def load (n : Nat) (prepared : Int) : RunnerProg ρ Unit := do
  start n
  if (← generation n) = some prepared then return () else sendModel n prepared

def execute (n : Nat) (prepared : Int) : RunnerProg ρ ρ := do
  load n prepared
  let request ← nextRequest n
  sendFrame n (.predict request prepared) true
  match ← receiveFrame n true with
  | .result id logits => if id = request then return logits else invalid
  | .error id code message =>
    if id = request then
      throw (if code = py "ValidationError" then raise .validationError message
        else raise .backendProcessError (py "isolated backend error (" ++ code ++ py "): " ++
          message))
    else invalid
  | _ => invalid
where
  invalid : RunnerProg ρ ρ := do
    abort n
    throw (raise .backendProcessError "isolated inference worker returned an invalid response")

/-- The classes `close` catches. -/
def transportError (e : PyError) : Bool :=
  e.cls matches .eofError | .osError | .ipcProtocolError | .timeoutError

/-- `close`, for the executor's `close` or for another call. -/
def close (n : Nat) (closing : Bool) : RunnerProg ρ Unit := do
  sayClose
  abortWith n closing
where
  sayClose : RunnerProg ρ Unit := do
    if ← usable n then
      (send n .close).catch' fun e => if transportError e then .pure () else .throw e
    else return ()

end Runner

/-! ## The executor's side -/

namespace Process

variable {ρ : Type}

def newRunners (count : Nat) : RunnerProg ρ Unit := Prog.perform (RunnerOp.newRunners count)

def prepareIsolated (t : TaskId) : RunnerProg ρ Int := Prog.perform (RunnerOp.prepareIsolated t)

def isolatedRuntimeSnapshot : RunnerProg ρ Int := Prog.perform RunnerOp.isolatedRuntimeSnapshot

def engineComplete (logits : ρ) : RunnerProg ρ ρ := Prog.perform (RunnerOp.engineComplete logits)

/-- `f` for each runner. -/
def forRunners (workers : Nat) (f : Nat → RunnerProg ρ Unit) : RunnerProg ρ Unit :=
  (List.range workers).forM f

/-- The runners' part of `start`. -/
def startRunners (workers : Nat) : RunnerProg ρ Unit := do
  newRunners workers
  (forRunners workers Runner.start).catch' fun e => do
    forRunners workers fun n => Runner.close n false
    newRunners 0
    throw e

/-- `_process_predict` -/
def predict (index : Nat) (t : TaskId) : RunnerProg ρ ρ := do
  let prepared ← prepareIsolated t
  let logits ← Runner.execute index prepared
  engineComplete logits

/-- `ensure_ready` after its check of `_closed`. -/
def makeReady (workers : Nat) : RunnerProg ρ Unit := do
  forRunners workers Runner.start
  let snapshot ← (isolatedRuntimeSnapshot.bind fun g => .pure (some g)).catch' fun e =>
    if e.isDeploymentError then Prog.pure none else Prog.throw e
  match snapshot with
  | none => return ()
  | some generation => forRunners workers fun n => Runner.load n generation

/-- The loop of `close` over the runners. -/
def closeRunners (workers : Nat) : RunnerProg ρ Unit :=
  forRunners workers fun n => Runner.close n true

end Process

/-! ## The children -/

/-- `inbox` is what the child has sent and nobody has read.  `shut` is read by no
operation: the executor's `close` has aborted the runner. -/
structure RunnerState (ρ : Type) where
  process : Option Pid
  channel : Bool
  generation : Option Int
  everStarted : Bool
  requestId : Int
  inbox : List (Reply ρ)
  shut : Bool

/-- `started` counts the children, so the next one gets this number. -/
structure Children (ρ : Type) where
  runners : List (RunnerState ρ)
  alive : List Pid
  started : Nat

namespace RunnerState

variable {ρ : Type}

def new : RunnerState ρ := ⟨none, false, none, false, 0, [], false⟩

/-- `process is not None and process.is_alive() and self._channel is not None` -/
def usable (r : RunnerState ρ) (alive : List Pid) : Bool :=
  r.channel && r.process.any fun pid => alive.contains pid

/-- The runner owns a child that is alive. -/
def ownsLive (r : RunnerState ρ) (alive : List Pid) : Prop :=
  ∃ pid, r.process = some pid ∧ pid ∈ alive

def detached (r : RunnerState ρ) : RunnerState ρ :=
  { r with process := none, channel := false, generation := none }

def spawned (r : RunnerState ρ) (pid : Pid) : RunnerState ρ :=
  { r with process := some pid, channel := true, generation := none, everStarted := true,
           inbox := [.ready] }

/-- What a child that works sends back. -/
def reply [Inhabited ρ] : Request → List (Reply ρ)
  | .load g => [.loaded g]
  | .predict id _ => [.result id default]
  | .close => []

end RunnerState

namespace Children

variable {ρ : Type}

/-- What is done to `self._process_runners[n]`. -/
def onRunner {α : Type} (w : Children ρ) (n : Nat) (missing : α)
    (f : RunnerState ρ → Except PyError α × RunnerState ρ) : Except PyError α × Children ρ :=
  match w.runners[n]? with
  | none => (.ok missing, w)
  | some r => ((f r).1, { w with runners := w.runners.set n (f r).2 })

/-- The second section of `start`. -/
def spawn (w : Children ρ) (n : Nat) : Except PyError Bool × Children ρ :=
  match w.runners[n]? with
  | none => (.ok false, w)
  | some r =>
    if r.usable w.alive then (.ok false, w)
    else (.ok true, { runners := w.runners.set n (r.spawned w.started)
                      alive := w.started :: w.alive
                      started := w.started + 1 })

/-- What an operation does when the child works and nothing fails.  The loops over the
runners pass over those that have not been made. -/
def exec [Inhabited ρ] : (o : RunnerOp ρ) → Children ρ →
    Except PyError (RunnerRes ρ o) × Children ρ
  | .newRunners count, w => (.ok (), { w with runners := List.replicate count .new })
  | .startCheck n, w => w.onRunner n .alive fun r =>
    if r.usable w.alive then (.ok .alive, r) else (.ok (.stale r.process), r.detached)
  | .reap _, w => (.ok (), w)
  | .spawn n, w => w.spawn n
  | .connected n, w => w.onRunner n false fun r => (.ok (r.channel && r.process.isSome), r)
  | .usable n, w => w.onRunner n false fun r => (.ok (r.usable w.alive), r)
  | .send n frame, w => w.onRunner n () fun r =>
    (.ok (), { r with inbox := r.inbox ++ RunnerState.reply frame })
  | .recv n, w => w.onRunner n .malformed fun r =>
    match r.inbox with
    | [] => (.error (raise .eofError "isolated inference socket closed"), r)
    | frame :: rest => (.ok frame, { r with inbox := rest })
  | .detach n closing, w => w.onRunner n none fun r =>
    (.ok r.process, { r.detached with shut := r.shut || closing })
  | .kill pid, w => (.ok (), { w with alive := w.alive.erase pid })
  | .generation n, w => w.onRunner n none fun r => (.ok r.generation, r)
  | .setGeneration n g, w => w.onRunner n () fun r => (.ok (), { r with generation := some g })
  | .nextRequest n, w => w.onRunner n (0 : Int) fun r =>
    (.ok (r.requestId + 1), { r with requestId := r.requestId + 1 })
  | .prepareIsolated _, w => (.ok (0 : Int), w)
  | .isolatedRuntimeSnapshot, w => (.ok (0 : Int), w)
  | .engineComplete logits, w => (.ok logits, w)

/-- Children may have died. -/
def Dies (w w' : Children ρ) : Prop :=
  ∃ alive, alive.Sublist w.alive ∧ w' = { w with alive := alive }

/-- The other answers: children have died, and an operation other than `_detach` may
raise, or be answered otherwise by the child or the engine. -/
def fault [Inhabited ρ] (o : RunnerOp ρ) (w : Children ρ)
    (x : Except PyError (RunnerRes ρ o) × Children ρ) : Prop :=
  ∃ w', w.Dies w' ∧ (x = exec o w' ∨
    match o, x with
    | .detach _ _, _ => False
    | .recv _, (_, w₂) | .prepareIsolated _, (_, w₂) | .isolatedRuntimeSnapshot, (_, w₂)
    | .engineComplete _, (_, w₂) => w₂ = w'
    | _, (r, w₂) => (∃ e, r = .error e) ∧ w₂ = w')

def sem [Inhabited ρ] : Sem (RunnerOp ρ) (RunnerRes ρ) PyError (Children ρ) where
  exec := exec
  fault := fault

def fresh : Children ρ := ⟨[], [], 0⟩

end Children

/-- The executor in process mode. -/
def processExecutor (ρ : Type) [Inhabited ρ] (capacity : Nat) (policy : OverflowPolicy)
    (h : 1 ≤ capacity) (workers : Nat) :
    BoundedInferenceExecutor (RunnerOp ρ) (RunnerRes ρ) (Children ρ) ρ where
  sem := Children.sem
  capacity := capacity
  policy := policy
  capacity_pos := h
  workers := workers
  startRunners := Process.startRunners workers
  predict
    | .worker n, t => Process.predict n t
    | .caller _, _ => .throw (raise .valueError "not a worker")
  makeReady := Process.makeReady workers
  closeRunners := Process.closeRunners workers

end Runtime
end EdgeFort
