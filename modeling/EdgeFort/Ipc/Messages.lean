/-
The messages of the isolated worker (`ipc.py`): model transfer, prediction, result
and error frames.
-/
import EdgeFort.Ipc.RoundTrip
import EdgeFort.Numpy.Buffer

namespace EdgeFort.Ipc

open Effect

/-- `repr` of a sorted list of names. -/
def reprNames (names : List PyStr) : PyStr :=
  py "[" ++ (py ", ").intercalate ((names.insertionSort (· ≤ ·)).map pyRepr) ++ py "]"

def requireFields (header : List (PyStr × Json)) (names : List PyStr) : Except PyError Unit :=
  let expected := reservedNames ++ names
  let actual := header.map Prod.fst
  raiseIf (Json.keysAre header expected = false)
    (protocolError (py "IPC fields mismatch; " ++
      py "missing=" ++ reprNames (expected.filter fun k => !actual.contains k) ++
      py ", unknown=" ++ reprNames (actual.filter fun k => !expected.contains k)))

/-- `if header["op"] != op: raise IPCProtocolError(f"expected {op} frame")` -/
def expectOp (header : List (PyStr × Json)) (op : PyStr) : Except PyError Unit :=
  raiseIf (Json.pyEq (Json.item header (py "op")) (.str op) = false)
    (protocolError (py "expected " ++ op ++ py " frame"))

/-- The same, with `or payload`. -/
def expectEmpty (payload : Bytes) (op : PyStr) : Except PyError Unit :=
  raiseIf (payload ≠ []) (protocolError (py "expected " ++ op ++ py " frame"))

variable (I : Interpreter)

/-! ## Generations and errors -/

def encodeGeneration (op : PyStr) (generation : Int) : Except PyError Bytes := do
  let generation ← uint (py "generation") (.int generation) maxUint
  encodeFrame I op [(py "generation", .int generation)] []

/-- The field of an identifier, where the frame has one. -/
def idField (name : PyStr) : Option Int → Except PyError (List (PyStr × Json))
  | none => .ok []
  | some value => do
    let value ← uint name (.int value) maxUint
    return [(name, .int value)]

def encodeError (op : PyStr) (requestId generation : Option Int) (code message : PyStr) :
    Except PyError Bytes := do
  let code ← text (py "code") (.str code) 64
  let message ← text (py "message") (.str (if message = [] then py "backend failure" else message))
    maxErrorTextBytes
  let requestField ← idField (py "request_id") requestId
  let generationField ← idField (py "generation") generation
  encodeFrame I op ((py "code", .str code) :: (py "message", .str message) ::
    (requestField ++ generationField)) []

def decodeError (frame : Bytes) (op : PyStr) (request : Bool) :
    Except PyError (Int × PyStr × PyStr) := do
  let (header, payload) ← decodeFrame I frame 0
  let id := if request then py "request_id" else py "generation"
  requireFields header [id, py "code", py "message"]
  expectOp header op
  expectEmpty payload op
  let identifier ← uint id (Json.item header id) maxUint
  let code ← text (py "code") (Json.item header (py "code")) 64
  let message ← text (py "message") (Json.item header (py "message")) maxErrorTextBytes
  return (identifier, code, message)

/-! ## Models and tensors -/

structure LoadArtifact where
  generation : Int
  modelBytes : Bytes
  modelKind : PyStr
  runtimeAbi : PyStr
  maxUncompressed : Int

def decodeLoadArtifact (frame : Bytes) (maxModelBytes : Int) : Except PyError LoadArtifact := do
  let (header, payload) ← decodeFrame I frame maxModelBytes
  requireFields header [py "generation", py "max_uncompressed_bytes", py "model_kind",
    py "runtime_abi"]
  expectOp header (py "load_artifact")
  raiseIf (payload = []) (protocolError "expected load_artifact frame")
  let generation ← uint (py "generation") (Json.item header (py "generation")) maxUint
  let maxUncompressed ← uint (py "max_uncompressed_bytes")
    (Json.item header (py "max_uncompressed_bytes")) maxUint
  raiseIf (maxUncompressed < 1024 ∨ maxModelBytes < maxUncompressed)
    (protocolError (py "invalid model " ++ py "uncompressed bound"))
  let modelKind ← text (py "model_kind") (Json.item header (py "model_kind")) 256
  let runtimeAbi ← text (py "runtime_abi") (Json.item header (py "runtime_abi")) 256
  return ⟨generation, payload, modelKind, runtimeAbi, maxUncompressed⟩

structure Predict where
  requestId : Int
  generation : Int
  inputs : NdArray UInt32

def decodePredict (frame : Bytes) (maxBatch maxInputFeatures maxInputValues : Int) :
    Except PyError Predict := do
  let (header, payload) ← decodeFrame I frame (maxInputValues * 4)
  requireFields header [py "cols", py "generation", py "request_id", py "rows"]
  expectOp header (py "predict")
  let requestId ← uint (py "request_id") (Json.item header (py "request_id")) maxUint
  let generation ← uint (py "generation") (Json.item header (py "generation")) maxUint
  let rows ← uint (py "rows") (Json.item header (py "rows")) maxBatch
  let cols ← uint (py "cols") (Json.item header (py "cols")) maxInputFeatures
  raiseIf (rows < 1 ∨ cols < 1 ∨ maxInputValues < rows * cols)
    (protocolError (py "IPC input tensor " ++ py "outside configured bounds"))
  raiseIf ((payload.length : Int) ≠ rows * cols * 4)
    (protocolError (py "IPC input tensor " ++ py "byte length mismatch"))
  let array ← reshape32 payload rows.toNat cols.toNat
  raiseIf (array.data.all isfinite32 = false)
    (protocolError (py "IPC input tensor " ++ py "contains non-finite values"))
  return ⟨requestId, generation, array⟩

/-- `(1 << 31) - 1` -/
def maxDimension : Int := 2147483647

/-- `encode_result`, of an array that is float32 already. -/
def encodeResult (requestId : Int) (logits : NdArray UInt32) : Except PyError Bytes :=
  match logits.shape with
  | [rows, cols] => do
    let cols ← uint (py "cols") (.int cols) maxDimension
    let requestId ← uint (py "request_id") (.int requestId) maxUint
    let rows ← uint (py "rows") (.int rows) maxDimension
    encodeFrame I (py "result") [(py "cols", .int cols), (py "request_id", .int requestId),
      (py "rows", .int rows)] (tobytes32 logits.data)
  | _ => .error (protocolError "IPC tensor must be rank-2")

end EdgeFort.Ipc
