/-
Frames over a stream socket: `frame_length_prefix` and `parse_frame_length`
(`ipc.py`), `_socket_recv_exact`, `_socket_recv_frame` and `_socket_send_frame`
(`runtime.py`).

The two peers run side by side.  A step is one `send` or one `recv_into`, of as many
bytes as the socket likes.
-/
import EdgeFort.Effect.System
import EdgeFort.Ipc.Frame
import EdgeFort.Numpy.Buffer

namespace EdgeFort.Ipc

open Effect

/-! ## The length of a frame -/

/-- `struct.Struct("!Q").pack` -/
def packLength (size : Nat) : Bytes := (leBytes 8 size).reverse

/-- `struct.Struct("!Q").unpack` -/
def unpackLength (encoded : Bytes) : Nat := leValue encoded.reverse

def framePrefixBytes : Nat := 8

def frameLengthPrefix (size : Int) : Except PyError Bytes :=
  if size < 0 ∨ maxUint < size then .error (protocolError "invalid IPC frame size")
  else .ok (packLength size.toNat)

def parseFrameLength (encoded : Bytes) : Except PyError Nat :=
  if encoded.length ≠ framePrefixBytes then
    .error (protocolError (py "invalid IPC frame-length " ++ py "prefix"))
  else .ok (unpackLength encoded)

theorem length_packLength (size : Nat) : (packLength size).length = framePrefixBytes := by
  rw [packLength, List.length_reverse, length_leBytes]
  rfl

theorem parseFrameLength_packLength {size : Nat} (h : (size : Int) ≤ maxUint) :
    parseFrameLength (packLength size) = .ok size := by
  have hsize : size < 256 ^ 8 := by
    unfold maxUint at h
    norm_num
    omega
  rw [parseFrameLength, if_neg (not_not.mpr (length_packLength size)), unpackLength, packLength,
    List.reverse_reverse, leValue_leBytes hsize]

/-! ## The sender -/

/-- `sys.maxsize`, which bounds every `len`. -/
def maxSize : Nat := 9223372036854775807

/-- A `bytes` object. -/
structure PyBytes where
  data : Bytes
  length_le : data.length ≤ maxSize

/-- What a peer writes: a frame, through `_socket_send_frame`, or bytes of its own making. -/
inductive Message where
  | frame (f : PyBytes)
  | raw (data : Bytes)

/-- `data` of `_socket_send_frame`. -/
def Message.data : Message → Except PyError Bytes
  | .frame f => do
    let lengthPrefix ← frameLengthPrefix f.data.length
    return lengthPrefix ++ f.data
  | .raw data => .ok data

def closedError : PyError := raise .eofError (py "isolated inference " ++ py "socket closed")

/-- Where a peer is in the loop of `_socket_send_frame`, and what it sends later. -/
inductive Sender where
  | idle
  | sending (data : Bytes) (offset : Nat) (later : List Message)
  | raised (e : PyError)

namespace Sender

/-- The calls up to the next `send`. -/
def start : List Message → Sender
  | [] => .idle
  | m :: later =>
    match m.data with
    | .error e => .raised e
    | .ok data => if 0 < data.length then .sending data 0 later else start later

/-- The rest of the loop, when `send` has taken `count` bytes. -/
def sent (data : Bytes) (offset count : Nat) (later : List Message) : Sender :=
  if count = 0 then .raised closedError
  else if offset + count < data.length then .sending data (offset + count) later
  else start later

end Sender

/-! ## The receiver -/

/-- The two calls of `_socket_recv_exact` in `_socket_recv_frame`. -/
inductive RecvCall where
  | lengthPrefix
  | body
  deriving DecidableEq, Repr

/-- A peer that calls `_socket_recv_frame` again and again: the loop of
`_socket_recv_exact`, the frames the calls have returned, and every byte they have read. -/
structure Receiver where
  call : RecvCall
  data : Bytes
  offset : Nat
  frames : List Bytes
  consumed : Bytes
  failure : Option PyError

namespace Receiver

/-- `data = bytearray(size)` and `offset = 0` -/
def recvExact (r : Receiver) (call : RecvCall) (size : Nat) : Receiver :=
  { r with call, data := List.replicate size 0, offset := 0 }

/-- The first call. -/
def fresh : Receiver :=
  recvExact ⟨.lengthPrefix, [], 0, [], [], none⟩ .lengthPrefix framePrefixBytes

def oversizeError : PyError :=
  protocolError (py "IPC frame exceeds " ++ py "configured bound")

/-- What follows when `_socket_recv_exact` returns `data`. -/
def returned (maxFrameBytes : Int) (r : Receiver) : Receiver :=
  match r.call with
  | .lengthPrefix =>
    match parseFrameLength r.data with
    | .error e => { r with failure := some e }
    | .ok frameSize =>
      if frameSize < 2 ∨ maxFrameBytes < frameSize then { r with failure := some oversizeError }
      else r.recvExact .body frameSize
  | .body => { r with frames := r.frames ++ [r.data] }.recvExact .lengthPrefix framePrefixBytes

/-- The rest of the loop, when `recv_into` has stored a chunk at the offset. -/
def recvInto (maxFrameBytes : Int) (r : Receiver) (chunk : Bytes) : Receiver :=
  if chunk = [] then { r with failure := some closedError }
  else
    let offset := r.offset + chunk.length
    let r' := { r with
      data := r.data.take r.offset ++ chunk ++ r.data.drop offset
      offset := offset
      consumed := r.consumed ++ chunk }
    if offset < r.data.length then r' else r'.returned maxFrameBytes

end Receiver

/-! ## The two on one socket -/

structure Link where
  sender : Sender
  inFlight : Bytes
  receiver : Receiver

/-- One `send` takes, and one `recv_into` returns, any positive number of bytes: at
most what is offered, and at most what is in flight.  No deadline expires. -/
inductive Link.Step (maxFrameBytes : Int) : Link → Link → Prop
  | send {s : Link} {data : Bytes} {offset count : Nat} {later : List Message} :
      s.sender = .sending data offset later → 0 < count → offset + count ≤ data.length →
      Step maxFrameBytes s { s with
        sender := .sent data offset count later
        inFlight := s.inFlight ++ (data.drop offset).take count }
  | recv {s : Link} {count : Nat} :
      s.receiver.failure = none → 0 < count → count ≤ s.inFlight.length →
      s.receiver.offset + count ≤ s.receiver.data.length →
      Step maxFrameBytes s { s with
        receiver := s.receiver.recvInto maxFrameBytes (s.inFlight.take count)
        inFlight := s.inFlight.drop count }

/-- A peer that sends some messages, and one that receives frames. -/
def link (maxFrameBytes : Int) (messages : List Message) : System Link where
  initial s := s = ⟨Sender.start messages, [], Receiver.fresh⟩
  step := Link.Step maxFrameBytes

end EdgeFort.Ipc
