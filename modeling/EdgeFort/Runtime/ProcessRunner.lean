/-
`_ProcessInferenceRunner` (`runtime.py`) on the bytes of its socket.

One call at a time: a section under the runner's lock is one operation, and so is a read
of some bytes.  What is at the other end of the socket is left to the `Sem`.
-/
import EdgeFort.Effect.Program
import EdgeFort.Ipc.Replies
import EdgeFort.Ipc.Stream

namespace EdgeFort
namespace Runtime
namespace ProcessRunner

open Effect Ipc

/-- The number of a child process and of the connection to it. -/
abbrev Child := Nat

/-- What the first section of `start` finds. -/
inductive Check where
  | alive
  | stale (process : Option Child)

inductive Op where
  /-- the first section of `start` -/
  | startCheck
  /-- the stale process and its channel are closed -/
  | reap (process : Option Child)
  /-- the second section of `start`: whether it has started a child -/
  | spawn
  /-- `self._channel` and `self._process` are there -/
  | connected
  /-- and the process is alive -/
  | usable
  /-- `_socket_send_frame` -/
  | send (frame : Bytes)
  /-- `_socket_recv_exact` -/
  | recvExact (size : Nat)
  /-- `_detach` -/
  | detach
  /-- `terminate`, `kill` and `close` of a process -/
  | kill (process : Child)
  | generation
  | setGeneration (generation : Int)
  /-- `self._request_id += 1` -/
  | nextRequest

def Res : Op → Type
  | .startCheck => Check
  | .spawn | .connected | .usable => Bool
  | .recvExact _ => Bytes
  | .detach => Option Child
  | .generation => Option Int
  | .nextRequest => Int
  | .reap _ | .send _ | .kill _ | .setGeneration _ => Unit

abbrev RunnerProg (α : Type) := Prog Op Res PyError α

def startCheck : RunnerProg Check := Prog.perform Op.startCheck

def reap (process : Option Child) : RunnerProg Unit := Prog.perform (Op.reap process)

def spawn : RunnerProg Bool := Prog.perform Op.spawn

def connected : RunnerProg Bool := Prog.perform Op.connected

def usable : RunnerProg Bool := Prog.perform Op.usable

def send (frame : Bytes) : RunnerProg Unit := Prog.perform (Op.send frame)

def recvExact (size : Nat) : RunnerProg Bytes := Prog.perform (Op.recvExact size)

def detach : RunnerProg (Option Child) := Prog.perform Op.detach

def kill (process : Child) : RunnerProg Unit := Prog.perform (Op.kill process)

def generation : RunnerProg (Option Int) := Prog.perform Op.generation

def setGeneration (g : Int) : RunnerProg Unit := Prog.perform (Op.setGeneration g)

def nextRequest : RunnerProg Int := Prog.perform Op.nextRequest

/-! ## Frames -/

def socketRecvFrame (maxFrameBytes : Int) : RunnerProg Bytes := do
  let lengthPrefix ← recvExact framePrefixBytes
  let frameSize ← parseFrameLength lengthPrefix
  raiseIf ((frameSize : Int) < 2 ∨ maxFrameBytes < frameSize) Receiver.oversizeError
  recvExact frameSize

def abort : RunnerProg Unit := do
  match ← detach with
  | none => return ()
  | some process => kill process

/-- The handlers of `_send_frame` and `_receive_frame`. -/
def transportFailed {α : Type} (deadlineError : Bool) (closed : PyStr) (e : PyError) :
    RunnerProg α :=
  if e.cls = .timeoutError then do
    abort
    throw (if deadlineError then
      raise .executionDeadlineExceeded "inference execution deadline exceeded"
    else raise .backendProcessError "isolated inference worker control operation timed out")
  else if e.cls = .eofError ∨ e.cls = .osError ∨ e.cls = .ipcProtocolError then do
    abort
    throw (raise .backendProcessError closed)
  else throw e

def unavailable : PyError :=
  raise .backendProcessError "isolated inference worker is unavailable"

def sendFrame (frame : Bytes) (deadlineError : Bool) : RunnerProg Unit := do
  if ← usable then
    (send frame).catch'
      (transportFailed deadlineError "isolated inference worker transport failed")
  else do
    abort
    throw unavailable

/-- `maxReceive` is `_max_receive_frame_bytes`. -/
def receiveFrame (maxReceive : Int) (deadlineError : Bool) : RunnerProg Bytes := do
  if ← connected then
    (socketRecvFrame maxReceive).catch' (transportFailed deadlineError
      "isolated inference worker exited or violated IPC protocol")
  else throw unavailable

/-! ## Calls -/

/-- `IsolatedRuntimeSnapshot`, and the inputs of a request. -/
structure Prepared where
  artifact : LoadArtifact
  inputs : NdArray UInt32

namespace Prepared

def generation (p : Prepared) : Int := p.artifact.generation

/-- `len(prepared.inputs)` -/
def batch (p : Prepared) : Nat := p.inputs.shape.headD 0

end Prepared

/-- `limits` of `execute`, which are positive. -/
structure OutputLimits where
  maxOutputClasses : Int
  maxOutputValues : Int
  values_pos : 0 < maxOutputValues

section

variable (I : Interpreter) (maxReceive : Int)

/-- Whether the header has this operation. -/
def isOp (header : List (PyStr × Json)) (op : PyStr) : Bool :=
  Json.pyEq (Json.item header (py "op")) (.str op)

/-- What `start` makes of the first frame. -/
def readStart (frame : Bytes) : RunnerProg Unit := do
  let (header, _) ← decodeFrame I frame 0
  if isOp header (py "startup_error") then do
    let (code, message) ← decodeStartupError I frame
    abort
    throw (raise .backendProcessError (py "isolated inference worker failed resource setup (" ++
      code ++ py "): " ++ message))
  else do
    let _ ← decodeReady I frame
    return ()

/-- `isinstance(e, ValueError)`, of what decoding raises. -/
def isValueError (e : PyError) : Bool := e.cls matches .ipcProtocolError | .valueError

/-- The end of `start`: the child reports that it is ready. -/
def handshake : RunnerProg Unit := do
  let frame ← receiveFrame maxReceive false
  (readStart I frame).catch' fun e =>
    if isValueError e then do
      abort
      throw (raise .backendProcessError "isolated inference worker failed startup handshake")
    else throw e

def start : RunnerProg Unit := do
  match ← startCheck with
  | .alive => return ()
  | .stale process =>
    reap process
    if ← spawn then handshake I maxReceive else return ()

/-- What `load` makes of the reply. -/
def readLoaded (expected : Int) (reply : Bytes) : RunnerProg Unit := do
  let (header, _) ← decodeFrame I reply 0
  if isOp header (py "loaded") then do
    let g ← decodeGeneration I reply (py "loaded")
    raiseIf (g ≠ expected) (protocolError "loaded generation mismatch")
    setGeneration g
  else if isOp header (py "load_error") then do
    let (g, code, message) ← decodeError I reply (py "load_error") false
    raiseIf (g ≠ expected) (protocolError "load-error generation mismatch")
    throw (raise .backendProcessError (py "isolated inference worker rejected model (" ++
      code ++ py "): " ++ message))
  else throw (protocolError "unexpected model-load response")

/-- The rest of `load`, once the frame has been encoded. -/
def sendModel (expected : Int) (frame : Bytes) : RunnerProg Unit := do
  sendFrame frame false
  let reply ← receiveFrame maxReceive false
  (readLoaded I expected reply).catch' fun e =>
    if e.cls = .ipcProtocolError then do
      abort
      throw (raise .backendProcessError "isolated inference worker rejected runtime snapshot")
    else throw e

def load (prepared : Prepared) : RunnerProg Unit := do
  start I maxReceive
  if (← generation) = some prepared.generation then return ()
  else
    match encodeLoadArtifact I prepared.artifact with
    | .ok frame => sendModel I maxReceive prepared.generation frame
    | .error e =>
      throw (if e.cls = .ipcProtocolError then
        raise .backendProcessError (py "invalid isolated model bootstrap: " ++ e.text)
      else e)

/-- What `execute` makes of the reply. -/
def readResult (request : Int) (batch : Nat) (limits : OutputLimits) (reply : Bytes) :
    RunnerProg (NdArray UInt32) := do
  let (header, _) ← decodeFrame I reply (limits.maxOutputValues * 4)
  if isOp header (py "result") then
    decodeResult I reply request batch limits.maxOutputClasses limits.maxOutputValues
  else if isOp header (py "error") then do
    let (id, code, message) ← decodeError I reply (py "error") true
    raiseIf (id ≠ request) (protocolError "error response request ID mismatch")
    throw (if code = py "ValidationError" then raise .validationError message
      else raise .backendProcessError (py "isolated backend error (" ++ code ++ py "): " ++
        message))
  else throw (protocolError "unexpected inference response")

/-- The rest of `execute`, once the frame has been encoded. -/
def sendInputs (request : Int) (batch : Nat) (limits : OutputLimits) (frame : Bytes) :
    RunnerProg (NdArray UInt32) := do
  sendFrame frame true
  let reply ← receiveFrame maxReceive true
  (readResult I request batch limits reply).catch' fun e =>
    if e.cls = .ipcProtocolError then do
      abort
      throw (raise .backendProcessError "isolated inference worker returned an invalid response")
    else throw e

def execute (prepared : Prepared) (limits : OutputLimits) : RunnerProg (NdArray UInt32) := do
  load I maxReceive prepared
  let request ← nextRequest
  match encodePredict I ⟨request, prepared.generation, prepared.inputs⟩ with
  | .ok frame => sendInputs I maxReceive request prepared.batch limits frame
  | .error e =>
    throw (if e.cls = .ipcProtocolError then
      raise .validationError (py "invalid isolated inference input: " ++ e.text)
    else e)

end

/-! ## The object -/

/-- The fields of a runner that its calls change. -/
structure Fields where
  process : Option Child
  channel : Option Child
  generation : Option Int
  requestId : Int

namespace Fields

/-- `__init__` -/
def new : Fields := ⟨none, none, none, 0⟩

def detached (r : Fields) : Fields :=
  { r with process := none, channel := none, generation := none }

def spawned (r : Fields) (child : Child) : Fields :=
  { r with process := some child, channel := some child, generation := none }

/-- No process, no channel and no loaded generation. -/
structure Detached (r : Fields) : Prop where
  process : r.process = none
  channel : r.channel = none
  generation : r.generation = none

theorem detached_detached (r : Fields) : r.detached.Detached := ⟨rfl, rfl, rfl⟩

/-- `process is not None and process.is_alive() and self._channel is not None` -/
def usable (r : Fields) (alive : List Child) : Bool :=
  r.channel.isSome && r.process.any fun child => alive.contains child

end Fields

end ProcessRunner
end Runtime
end EdgeFort
