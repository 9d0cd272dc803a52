/-
The telemetry spool: `OfflineSpool` (`telemetry.py`).

A spool is one file of JSON lines.  Every call holds both locks while it reads and
writes the file, so a call is one step.  A file that does not exist reads as empty.
-/
import EdgeFort.Python.Lines
import EdgeFort.Python.Written
import EdgeFort.Store.CanonicalJson

namespace EdgeFort.Telemetry

open Effect

/-! ## Records -/

def recordMarker : PyStr := "edgeai-spool-v1"

/-- `[0-9a-f]` -/
def isHexDigit (c : CodePoint) : Bool :=
  0x30 ≤ c.val && c.val ≤ 0x39 || 0x61 ≤ c.val && c.val ≤ 0x66

/-- `_EVENT_ID_RE.fullmatch` -/
def isEventId (s : PyStr) : Bool := s.length = 32 && s.all isHexDigit

def validateEventId (eventId : Json) : Except PyError PyStr :=
  let invalid := raise .valueError (py "event_id must be 32 " ++ py "lowercase hexadecimal " ++
    py "characters")
  match eventId with
  | .str s => if isEventId s then .ok s else .error invalid
  | _ => .error invalid

variable (I : Interpreter)

/-- `record` of `_encode_record`. -/
def record (event : PyObject) (eventId : PyStr) : PyObject :=
  .dict [(.str (py "_record"), .str recordMarker), (.str (py "event_id"), .str eventId),
    (.str (py "event"), event)]

def encodeRecord (event : PyObject) (eventId : PyStr) : Except PyError Bytes := do
  let _ ← validateEventId (.str eventId)
  let encoded ← (record event eventId).canonicalBytes I
  return encoded ++ [0x0A]

/-- What `_decode_record` returns. -/
structure Record where
  eventId : Option PyStr
  event : Json
  enveloped : Bool

def decodeRecord (raw : Bytes) : Except PyError Record := do
  let value ← strictJsonLoads I (.bytes raw)
  match value with
  | .obj fields =>
    if Json.keysAre fields [py "_record", py "event_id", py "event"] = true ∧
        Json.pyEq (Json.item fields (py "_record")) (.str recordMarker) = true then do
      let eventId ← validateEventId (Json.item fields (py "event_id"))
      return ⟨some eventId, Json.item fields (py "event"), true⟩
    else return ⟨none, value, false⟩
  | _ => return ⟨none, value, false⟩

/-! ## The spool -/

/-- The file, and the two counters of the object. -/
structure Spool where
  content : Bytes
  corrupt : Nat
  dropped : Nat
  deriving DecidableEq, Repr

namespace Spool

variable (maxBytes : Nat)

/-- `__init__`, on the file that is there. -/
def opened (content : Bytes) : Except PyError Spool := do
  raiseIf (maxBytes < 1024) (raise .valueError "max_bytes too small")
  return ⟨content, 0, 0⟩

/-- `_read_bytes`, and the check of its length. -/
def read (s : Spool) : Except PyError Bytes := do
  let raw := s.content.take (maxBytes + 1)
  raiseIf (maxBytes < raw.length)
    (raise .valueError (py "telemetry spool exceeds " ++ py "configured size"))
  return raw

/-! ### Appending -/

/-- The event of the first line that decodes to a record with an id. -/
def findEvent (eventId : PyStr) : List Bytes → Option Json
  | [] => none
  | raw :: lines =>
    match decodeRecord I raw with
    | .error _ => findEvent eventId lines
    | .ok r => if r.eventId = some eventId then some r.event else findEvent eventId lines

/-- `if canonical_json_bytes(existing_event) != canonical_json_bytes(event): raise` -/
def compareEvents (existing : Json) (event : PyObject) : Except PyError Unit := do
  let a ← existing.toObject.canonicalBytes I
  let b ← event.canonicalBytes I
  raiseIf (a ≠ b) (raise .valueError (py "event_id is already " ++ py "associated with " ++
    py "different content"))

/-- The loop that drops the oldest lines, `total` being the bytes of all of them: how
many it drops, and the lines it leaves. -/
def dropOldest (added : Nat) : List Line → Nat → Nat × List Line
  | [], _ => (0, [])
  | l :: lines, total =>
    if maxBytes < total + added then
      let (dropCount, rest) := dropOldest added lines (total - l.text.length)
      (dropCount + 1, rest)
    else (0, l :: lines)

/-- The end of `append`: the line is written, after the lines it leaves room for. -/
def enqueue (raw line : Bytes) (s : Spool) : Spool :=
  if maxBytes < raw.length + line.length then
    let lines := splitLines raw
    let (dropCount, rest) := dropOldest maxBytes line.length lines
      (lines.map fun l => l.text.length).sum
    { s with content := joinLines rest ++ line, dropped := s.dropped + dropCount }
  else { s with content := s.content ++ line }

/-- The id of a record: the caller's, or what `secrets.token_hex(16)` returns. -/
def chooseId (eventId : Option PyStr) (token : PyStr) : Except PyError PyStr :=
  match eventId with
  | some i => validateEventId (.str i)
  | none => .ok token

/-- The id and the line of an event. -/
def prepare (event : PyObject) (eventId : Option PyStr) (token : PyStr) :
    Except PyError (PyStr × Bytes) := do
  let i ← chooseId eventId token
  let line ← encodeRecord I event i
  return (i, line)

def append (event : PyObject) (eventId : Option PyStr) (token : PyStr) (s : Spool) :
    Except PyError Bool × Spool :=
  match prepare I event eventId token with
  | .error e => (.error e, s)
  | .ok (i, line) =>
    if maxBytes < line.length then (.ok false, { s with dropped := s.dropped + 1 })
    else
      match s.read maxBytes with
      | .error e => (.error e, s)
      | .ok raw =>
        match if eventId.isSome then findEvent I i (bodies raw) else none with
        | some existing =>
          match compareEvents I existing event with
          | .error e => (.error e, s)
          | .ok _ => (.ok true, s)
        | none => (.ok true, s.enqueue maxBytes raw line)

/-! ### Flushing -/

/-- What the sink is called with. -/
def delivery (includeRecord : Bool) (r : Record) : Json :=
  if includeRecord then
    .obj [(py "event_id", match r.eventId with | some i => .str i | none => .null),
      (py "event", r.event), (py "persistent_id", .bool r.enveloped)]
  else r.event

/-- The variables of the loop of `_flush`, and the calls of the sink. -/
structure Flush where
  remaining : List Bytes
  sent : Nat
  corrupt : Nat
  calls : List Json

/-- The loop of `_flush`.  `sink n` says whether call `n` of the sink returns. -/
def flushLoop (sink : Nat → Bool) (maxEvents : Option Int) (includeRecord : Bool) :
    List Bytes → Flush → Flush
  | [], st => st
  | raw :: records, st =>
    if maxEvents.any (fun m : Int => m ≤ st.sent) then
      { st with remaining := st.remaining ++ raw :: records }
    else
      match decodeRecord I raw with
      | .error _ =>
        flushLoop sink maxEvents includeRecord records { st with corrupt := st.corrupt + 1 }
      | .ok r =>
        let st' := { st with calls := st.calls ++ [delivery includeRecord r] }
        if sink st.calls.length then
          flushLoop sink maxEvents includeRecord records { st' with sent := st.sent + 1 }
        else { st' with remaining := st.remaining ++ raw :: records }

/-- `_flush`, with the calls of the sink. -/
def flush (sink : Nat → Bool) (maxEvents : Option Int) (includeRecord : Bool) (s : Spool) :
    Except PyError Nat × Spool × List Json :=
  if maxEvents.any (fun m : Int => m < 0) then
    (.error (raise .valueError (py "max_events must be " ++ py "a non-negative integer")), s, [])
  else
    match s.read maxBytes with
    | .error e => (.error e, s, [])
    | .ok raw =>
      if raw = [] then (.ok 0, s, [])
      else
        let st := flushLoop I sink maxEvents includeRecord (bodies raw) ⟨[], 0, s.corrupt, []⟩
        (.ok st.sent,
          { s with content := st.remaining.flatMap (· ++ [0x0A]), corrupt := st.corrupt },
          st.calls)

end Spool

end EdgeFort.Telemetry
