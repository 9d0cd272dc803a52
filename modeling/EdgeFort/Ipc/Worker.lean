/-
The isolated worker (`_isolated_backend_main`, `runtime.py`): one round of its loop.

The model parser and the backend are parameters and may raise any exception.  What
the worker makes of one is an error frame, built from the name of the exception's
type and the first 4096 characters of its text.
-/
import EdgeFort.Ipc.Messages

namespace EdgeFort.Ipc

open Effect

/-- An exception the worker catches: `type(e).__name__`, whether it is a
`ValidationError`, and `str(e)`. -/
structure Raised where
  typeName : PyStr
  isValidationError : Bool
  message : PyStr

def Raised.ofPyError (e : PyError) : Raised :=
  ⟨py e.cls.name, e.cls = .validationError, e.text⟩

/-- `limits` -/
structure WorkerLimits where
  maxBatch : Int
  maxInputFeatures : Int
  maxInputValues : Int
  maxOutputClasses : Int
  maxOutputValues : Int
  maxModelTransferBytes : Int

/-- What a backend returns, as NumPy sees it: its values as float32, where that
conversion does not raise. -/
structure RawArray where
  shape : List Nat
  numeric : Bool
  float32 : Option (NdArray UInt32)
  shape_float32 : ∀ a ∈ float32, a.shape = shape

/-- An array that is float32 already. -/
def RawArray.ofFloat32 (a : NdArray UInt32) : RawArray where
  shape := a.shape
  numeric := true
  float32 := some a
  shape_float32 b hb := by rw [Option.mem_some_iff.mp hb]

/-- `load_runtime`, and `logits` of what it loads.  A result that NumPy makes no
array of is none. -/
structure Backend (ρ : Type) where
  loadRuntime : Bytes → PyStr → PyStr → Int → Except Raised ρ
  logits : ρ → NdArray UInt32 → Except Raised (Option RawArray)

structure WorkerState (ρ : Type) where
  runtime : Option ρ
  generation : Option Int

/-- How a round ends: with the worker's end, or with a frame for the parent. -/
inductive Served (ρ : Type) where
  | ends
  | reply (frame : Bytes) (state : WorkerState ρ)

/-- `_worker_validate_logits` -/
def validateLogits (limits : WorkerLimits) (batchSize : Nat) :
    Option RawArray → Except PyError (NdArray UInt32)
  | none => .error (raise .validationError (py "runtime output must be " ++
      py "a numeric rank-2 array"))
  | some raw =>
    match raw.shape with
    | [rows, classes] => do
      raiseIf (rows ≠ batchSize)
        (raise .validationError (py "runtime output batch " ++ py "dimension mismatch"))
      raiseIf (classes < 1 ∨ limits.maxOutputClasses < classes)
        (raise .validationError (py "runtime output class " ++ py "count outside " ++
          py "configured bounds"))
      raiseIf (limits.maxOutputValues < rows * classes)
        (raise .validationError (py "runtime output element " ++ py "count outside " ++
          py "configured bounds"))
      raiseIf (raw.numeric = false)
        (raise .validationError (py "runtime output must be " ++ py "numeric"))
      match raw.float32 with
      | none => .error (raise .validationError (py "runtime output cannot be " ++
          py "represented as float32"))
      | some normalized => do
        raiseIf (normalized.data.all isfinite32 = false)
          (raise .validationError (py "runtime produced " ++ py "non-finite output"))
        return normalized
    | _ => .error (raise .validationError (py "runtime output must be " ++ py "rank-2"))

/-! ## Error frames -/

/-- `str(e)[:4096] or fallback` -/
def cut (message fallback : PyStr) : PyStr :=
  if message.take 4096 = [] then fallback else message.take 4096

/-- What an error frame answers. -/
inductive Report where
  | load (generation : Int)
  | predict (requestId : Int)

namespace Report

def op : Report → PyStr
  | load _ => "load_error"
  | predict _ => "error"

def isRequest : Report → Bool
  | load _ => false
  | predict _ => true

def identifier : Report → Int
  | load generation => generation
  | predict requestId => requestId

def code : Report → Raised → PyStr
  | load _, e => e.typeName
  | predict _, e => if e.isValidationError then py "ValidationError" else e.typeName

def message : Report → Raised → PyStr
  | load _, e => cut e.message (py "model load rejected")
  | predict _, e => cut e.message (py "backend failure")

end Report

variable (I : Interpreter)

/-- The frame of a report. -/
def errorFrame (r : Report) (e : Raised) : Except PyError Bytes :=
  match r with
  | .load generation =>
    encodeError I (py "load_error") none (some generation) (r.code e) (r.message e)
  | .predict requestId =>
    encodeError I (py "error") (some requestId) none (r.code e) (r.message e)

/-- The generation of a rejected load: `header.get("generation")`, where it is a
natural number. -/
def errorGeneration (header : List (PyStr × Json)) : Int :=
  match header.lookup (py "generation") with
  | some (.int generation) => if 0 ≤ generation then generation else 0
  | _ => 0

/-! ## One round -/

variable {ρ : Type} (B : Backend ρ) (limits : WorkerLimits)

def maxPayload : Int := max limits.maxModelTransferBytes (limits.maxInputValues * 4)

/-- `decode_load_artifact` and `load_runtime`. -/
def loadModel (frame : Bytes) : Except Raised (Int × ρ) :=
  match decodeLoadArtifact I frame limits.maxModelTransferBytes with
  | .error e => .error (.ofPyError e)
  | .ok m => do
    let loaded ← B.loadRuntime m.modelBytes m.modelKind m.runtimeAbi m.maxUncompressed
    return (m.generation, loaded)

/-- `logits`, its validation and `encode_result`. -/
def computeResult (runtime : ρ) (p : Predict) : Except Raised Bytes := do
  let logits ← B.logits runtime p.inputs
  let response := do
    let logits ← validateLogits limits (p.inputs.shape.headD 0) logits
    encodeResult I p.requestId logits
  match response with
  | .error e => .error (.ofPyError e)
  | .ok response => .ok response

/-- A reply, where its frame can be built; an exception from building it ends the
worker. -/
def replyWith (frame : Except PyError Bytes) (state : WorkerState ρ) : Served ρ :=
  match frame with
  | .ok frame => .reply frame state
  | .error _ => .ends

/-- What the worker does with a frame it has received. -/
def serve (state : WorkerState ρ) (frame : Bytes) : Served ρ :=
  match decodeFrame I frame (maxPayload limits) with
  | .error _ => .ends
  | .ok (header, _) =>
    let op := Json.item header (py "op")
    if Json.pyEq op (.str (py "close")) = true then .ends
    else if Json.pyEq op (.str (py "load_artifact")) = true then
      match loadModel I B limits frame with
      | .error e => replyWith (errorFrame I (.load (errorGeneration header)) e) ⟨none, none⟩
      | .ok (generation, loaded) =>
        replyWith (encodeGeneration I (py "loaded") generation) ⟨some loaded, some generation⟩
    else if Json.pyEq op (.str (py "predict")) = false then .ends
    else
      match decodePredict I frame limits.maxBatch limits.maxInputFeatures
          limits.maxInputValues with
      | .error _ => .ends
      | .ok p =>
        match state.runtime, decide (state.generation = some p.generation) with
        | some runtime, true =>
          match computeResult I B limits runtime p with
          | .ok response => .reply response state
          | .error e => replyWith (errorFrame I (.predict p.requestId) e) state
        | _, _ =>
          replyWith (encodeError I (py "error") (some p.requestId) none
            (py "BackendProcessError") (py "worker runtime " ++ py "generation mismatch")) state

/-- A round in which loading a model or computing logits raises, with what the
worker has to report. -/
inductive Raises (state : WorkerState ρ) (frame : Bytes) : Report → Raised → Prop
  | load {header : List (PyStr × Json)} {payload : Bytes} {e : Raised} :
      decodeFrame I frame (maxPayload limits) = .ok (header, payload) →
      Json.item header (py "op") = .str (py "load_artifact") →
      loadModel I B limits frame = .error e →
      Raises state frame (.load (errorGeneration header)) e
  | predict {header : List (PyStr × Json)} {payload : Bytes} {p : Predict} {runtime : ρ}
      {e : Raised} :
      decodeFrame I frame (maxPayload limits) = .ok (header, payload) →
      Json.item header (py "op") = .str (py "predict") →
      decodePredict I frame limits.maxBatch limits.maxInputFeatures limits.maxInputValues =
        .ok p →
      state.runtime = some runtime → state.generation = some p.generation →
      computeResult I B limits runtime p = .error e →
      Raises state frame (.predict p.requestId) e

variable {I B limits} {state : WorkerState ρ} {frame : Bytes}

/-- Such a round goes by whether the error frame can be built. -/
theorem serve_raises {r : Report} {e : Raised} (h : Raises I B limits state frame r e) :
    ∃ state', serve I B limits state frame = replyWith (errorFrame I r e) state' := by
  cases h with
  | @load header payload _ hdec hop hload =>
    refine ⟨⟨none, none⟩, ?_⟩
    have hclose : Json.pyEq (.str (py "load_artifact")) (.str (py "close")) = false := by
      decide
    have hsame : Json.pyEq (.str (py "load_artifact")) (.str (py "load_artifact")) = true := by
      decide
    simp only [serve, hdec, hop, hclose, hsame, hload, Bool.false_eq_true, if_false, if_true]
  | @predict header payload p runtime _ hdec hop hpredict hruntime hgeneration hcompute =>
    refine ⟨state, ?_⟩
    have hclose : Json.pyEq (.str (py "predict")) (.str (py "close")) = false := by
      decide
    have hload : Json.pyEq (.str (py "predict")) (.str (py "load_artifact")) = false := by
      decide
    have hsame : Json.pyEq (.str (py "predict")) (.str (py "predict")) = true := by
      decide
    simp only [serve, hdec, hop, hclose, hload, hsame, hpredict, hruntime, hgeneration, hcompute,
      Bool.false_eq_true, Bool.true_eq_false, if_false, decide_true]

end EdgeFort.Ipc
