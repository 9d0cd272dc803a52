/-
What the supervisor of an isolated worker encodes and decodes (`ipc.py`): the frames of a
worker that starts, loads a model and answers.

A frame that is not accepted raises `IPCProtocolError`, unless its header is nested too
deeply for `json.loads`.
-/
import EdgeFort.Ipc.Messages
import EdgeFort.Ipc.Strictness
import EdgeFort.Json.Errors

namespace EdgeFort.Ipc

open Effect

variable (I : Interpreter)

/-! ## Frames from the worker -/

def decodeReady (frame : Bytes) : Except PyError Int := do
  let (header, payload) ← decodeFrame I frame 0
  requireFields header [py "pid"]
  expectOp header (py "ready")
  expectEmpty payload (py "ready")
  let pid ← uint (py "pid") (Json.item header (py "pid")) maxDimension
  raiseIf (pid = 0) (protocolError "invalid worker pid")
  return pid

def decodeStartupError (frame : Bytes) : Except PyError (PyStr × PyStr) := do
  let (header, payload) ← decodeFrame I frame 0
  requireFields header [py "code", py "message"]
  expectOp header (py "startup_error")
  expectEmpty payload (py "startup_error")
  let code ← text (py "code") (Json.item header (py "code")) 64
  let message ← text (py "message") (Json.item header (py "message")) maxErrorTextBytes
  return (code, message)

def decodeGeneration (frame : Bytes) (op : PyStr) : Except PyError Int := do
  let (header, payload) ← decodeFrame I frame 0
  requireFields header [py "generation"]
  expectOp header op
  expectEmpty payload op
  uint (py "generation") (Json.item header (py "generation")) maxUint

def decodeResult (frame : Bytes) (expectedRequestId expectedBatch maxOutputClasses
    maxOutputValues : Int) : Except PyError (NdArray UInt32) := do
  let (header, payload) ← decodeFrame I frame (maxOutputValues * 4)
  requireFields header [py "cols", py "request_id", py "rows"]
  expectOp header (py "result")
  let requestId ← uint (py "request_id") (Json.item header (py "request_id")) maxUint
  raiseIf (requestId ≠ expectedRequestId)
    (protocolError (py "IPC result request ID " ++ py "mismatch"))
  let rows ← uint (py "rows") (Json.item header (py "rows")) expectedBatch
  let cols ← uint (py "cols") (Json.item header (py "cols")) maxOutputClasses
  raiseIf (rows ≠ expectedBatch ∨ cols < 1 ∨ maxOutputValues < rows * cols)
    (protocolError (py "IPC output tensor " ++ py "outside configured bounds"))
  raiseIf ((payload.length : Int) ≠ rows * cols * 4)
    (protocolError (py "IPC output tensor " ++ py "byte length mismatch"))
  let array ← reshape32 payload rows.toNat cols.toNat
  raiseIf (array.data.all isfinite32 = false)
    (protocolError (py "IPC output tensor " ++ py "contains non-finite values"))
  return array

/-! ## Frames for the worker -/

def encodeLoadArtifact (m : LoadArtifact) : Except PyError Bytes := do
  raiseIf (m.modelBytes = []) (protocolError (py "model artifact payload " ++
    py "must be non-empty bytes"))
  let generation ← uint (py "generation") (.int m.generation) maxUint
  let maxUncompressed ← uint (py "max_uncompressed_bytes") (.int m.maxUncompressed) maxUint
  let modelKind ← text (py "model_kind") (.str m.modelKind) 256
  let runtimeAbi ← text (py "runtime_abi") (.str m.runtimeAbi) 256
  encodeFrame I (py "load_artifact") [(py "generation", .int generation),
    (py "max_uncompressed_bytes", .int maxUncompressed), (py "model_kind", .str modelKind),
    (py "runtime_abi", .str runtimeAbi)] m.modelBytes

/-- `encode_predict`, of inputs that are float32 already. -/
def encodePredict (p : Predict) : Except PyError Bytes :=
  match p.inputs.shape with
  | [rows, cols] => do
    let cols ← uint (py "cols") (.int cols) maxDimension
    let generation ← uint (py "generation") (.int p.generation) maxUint
    let requestId ← uint (py "request_id") (.int p.requestId) maxUint
    let rows ← uint (py "rows") (.int rows) maxDimension
    encodeFrame I (py "predict") [(py "cols", .int cols), (py "generation", .int generation),
      (py "request_id", .int requestId), (py "rows", .int rows)] (tobytes32 p.inputs.data)
  | _ => .error (protocolError "IPC tensor must be rank-2")

variable {I}

/-! ## What decoding raises -/

def IsProtocolError (e : PyError) : Prop := e.cls = .ipcProtocolError

/-- `json.loads` raises no `RecursionError` on the header of the frame. -/
def Shallow (I : Interpreter) (frame : Bytes) : Prop :=
  ∀ n s, (frame.take (maxHeaderBytes + 1)).idxOf? 0x0A = some n →
    asciiDecode (frame.take n) = .ok s →
      RaisesOnly (fun e => e.cls ≠ .recursionError) (Json.loads I hooks s)

theorem uint_raises (name : PyStr) (value : Json) (maximum : Int) :
    RaisesOnly IsProtocolError (uint name value maximum) := by
  unfold uint
  split
  · split_ifs
    · exact raisesOnly_ok
    · exact raisesOnly_error.mpr rfl
  · exact raisesOnly_error.mpr rfl

theorem text_raises (name : PyStr) (value : Json) (maxBytes : Nat) :
    RaisesOnly IsProtocolError (text name value maxBytes) := by
  unfold text
  split
  · split_ifs
    · exact raisesOnly_error.mpr rfl
    · split
      · exact raisesOnly_error.mpr rfl
      · split_ifs
        · exact raisesOnly_error.mpr rfl
        · exact raisesOnly_ok
  · exact raisesOnly_error.mpr rfl

theorem decodeHeader_raises {h : Bytes} (hlen : h.length ≤ maxHeaderBytes)
    (hshallow : ∀ s, asciiDecode h = .ok s →
      RaisesOnly (fun e => e.cls ≠ .recursionError) (Json.loads I hooks s)) :
    RaisesOnly IsProtocolError (decodeHeader I h) := by
  unfold decodeHeader
  cases hs : asciiDecode h with
  | error e =>
    obtain rfl : e = raise .unicodeDecodeError "'ascii' codec can't decode bytes" := by
      unfold asciiDecode at hs
      split_ifs at hs
      exact (Except.error.inj hs).symm
    exact raisesOnly_error.mpr rfl
  | ok s =>
    have hshort : s.length ≤ Json.maxStrDigits := by
      have hmax : maxHeaderBytes ≤ Json.maxStrDigits := by decide
      rw [(asciiDecode_eq_ok.mp hs).2, List.length_map]
      exact hlen.trans hmax
    rw [ok_bind]
    cases hv : Json.loads I hooks s with
    | ok v => exact raisesOnly_ok
    | error e =>
      have hnested := hshallow s hs e hv
      dsimp only
      split_ifs with hcaught
      · exact raisesOnly_error.mpr rfl
      · refine raisesOnly_error.mpr ?_
        rcases Json.loads_raises hshort e hv with hjson | hrec | ⟨key, rfl⟩ | ⟨name, rfl⟩
        · rw [hjson] at hcaught
          exact absurd rfl hcaught
        · exact absurd hrec hnested
        · rfl
        · rfl

theorem decodeFrame_raises {frame : Bytes} {maxPayloadBytes : Int} (hmax : 0 ≤ maxPayloadBytes)
    (hshallow : Shallow I frame) : RaisesOnly IsProtocolError (decodeFrame I frame maxPayloadBytes) := by
  unfold decodeFrame
  rw [raiseIf_neg (by omega), ok_bind]
  cases hterm : (frame.take (maxHeaderBytes + 1)).idxOf? 0x0A with
  | none => exact raisesOnly_error.mpr rfl
  | some n =>
    have hlen : (frame.take n).length ≤ maxHeaderBytes := by
      obtain ⟨h, payload, -, -, hle, hn⟩ := terminator_eq_some.mp hterm
      rw [List.length_take]
      omega
    refine raisesOnly_bind.mpr ⟨raisesOnly_raiseIf rfl, fun _ _ => ?_⟩
    refine raisesOnly_bind.mpr ⟨decodeHeader_raises hlen (hshallow n · hterm), fun v _ => ?_⟩
    cases v with
    | obj header =>
      dsimp only
      split
      · exact raisesOnly_error.mpr rfl
      · refine raisesOnly_bind.mpr ⟨raisesOnly_raiseIf rfl, fun _ _ => ?_⟩
        refine raisesOnly_bind.mpr ⟨text_raises _ _ _, fun _ _ => ?_⟩
        refine raisesOnly_bind.mpr ⟨uint_raises _ _ _, fun _ _ => ?_⟩
        exact raisesOnly_bind.mpr ⟨raisesOnly_raiseIf rfl, fun _ _ => raisesOnly_ok⟩
    | _ => exact raisesOnly_error.mpr rfl

theorem raiseIf_raises {c : Prop} [Decidable c] (text : PyStr) :
    RaisesOnly IsProtocolError (raiseIf c (protocolError text)) := raisesOnly_raiseIf rfl

theorem requireFields_raises (header : List (PyStr × Json)) (names : List PyStr) :
    RaisesOnly IsProtocolError (requireFields header names) := raisesOnly_raiseIf rfl

theorem expectOp_raises (header : List (PyStr × Json)) (op : PyStr) :
    RaisesOnly IsProtocolError (expectOp header op) := raisesOnly_raiseIf rfl

theorem expectEmpty_raises (payload : Bytes) (op : PyStr) :
    RaisesOnly IsProtocolError (expectEmpty payload op) := raisesOnly_raiseIf rfl

variable {frame : Bytes}

theorem decodeReady_raises (h : Shallow I frame) :
    RaisesOnly IsProtocolError (decodeReady I frame) := by
  refine raisesOnly_bind.mpr ⟨decodeFrame_raises (le_refl _) h, fun _ _ => ?_⟩
  refine raisesOnly_bind.mpr ⟨requireFields_raises _ _, fun _ _ => ?_⟩
  refine raisesOnly_bind.mpr ⟨expectOp_raises _ _, fun _ _ => ?_⟩
  refine raisesOnly_bind.mpr ⟨expectEmpty_raises _ _, fun _ _ => ?_⟩
  refine raisesOnly_bind.mpr ⟨uint_raises _ _ _, fun _ _ => ?_⟩
  exact raisesOnly_bind.mpr ⟨raisesOnly_raiseIf rfl, fun _ _ => raisesOnly_ok⟩

theorem decodeStartupError_raises (h : Shallow I frame) :
    RaisesOnly IsProtocolError (decodeStartupError I frame) := by
  refine raisesOnly_bind.mpr ⟨decodeFrame_raises (le_refl _) h, fun _ _ => ?_⟩
  refine raisesOnly_bind.mpr ⟨requireFields_raises _ _, fun _ _ => ?_⟩
  refine raisesOnly_bind.mpr ⟨expectOp_raises _ _, fun _ _ => ?_⟩
  refine raisesOnly_bind.mpr ⟨expectEmpty_raises _ _, fun _ _ => ?_⟩
  refine raisesOnly_bind.mpr ⟨text_raises _ _ _, fun _ _ => ?_⟩
  exact raisesOnly_bind.mpr ⟨text_raises _ _ _, fun _ _ => raisesOnly_ok⟩

theorem decodeGeneration_raises (h : Shallow I frame) (op : PyStr) :
    RaisesOnly IsProtocolError (decodeGeneration I frame op) := by
  refine raisesOnly_bind.mpr ⟨decodeFrame_raises (le_refl _) h, fun _ _ => ?_⟩
  refine raisesOnly_bind.mpr ⟨requireFields_raises _ _, fun _ _ => ?_⟩
  refine raisesOnly_bind.mpr ⟨expectOp_raises _ _, fun _ _ => ?_⟩
  exact raisesOnly_bind.mpr ⟨expectEmpty_raises _ _, fun _ _ => uint_raises _ _ _⟩

theorem decodeError_raises (h : Shallow I frame) (op : PyStr) (request : Bool) :
    RaisesOnly IsProtocolError (decodeError I frame op request) := by
  refine raisesOnly_bind.mpr ⟨decodeFrame_raises (le_refl _) h, fun _ _ => ?_⟩
  refine raisesOnly_bind.mpr ⟨requireFields_raises _ _, fun _ _ => ?_⟩
  refine raisesOnly_bind.mpr ⟨expectOp_raises _ _, fun _ _ => ?_⟩
  refine raisesOnly_bind.mpr ⟨expectEmpty_raises _ _, fun _ _ => ?_⟩
  refine raisesOnly_bind.mpr ⟨uint_raises _ _ _, fun _ _ => ?_⟩
  refine raisesOnly_bind.mpr ⟨text_raises _ _ _, fun _ _ => ?_⟩
  exact raisesOnly_bind.mpr ⟨text_raises _ _ _, fun _ _ => raisesOnly_ok⟩

theorem decodeResult_raises (h : Shallow I frame) {request batch maxClasses maxValues : Int}
    (hmax : 0 ≤ maxValues) :
    RaisesOnly IsProtocolError (decodeResult I frame request batch maxClasses maxValues) := by
  refine raisesOnly_bind.mpr ⟨decodeFrame_raises (by omega) h, fun ⟨header, payload⟩ _ => ?_⟩
  refine raisesOnly_bind.mpr ⟨requireFields_raises _ _, fun _ _ => ?_⟩
  refine raisesOnly_bind.mpr ⟨expectOp_raises _ _, fun _ _ => ?_⟩
  refine raisesOnly_bind.mpr ⟨uint_raises _ _ _, fun _ _ => ?_⟩
  refine raisesOnly_bind.mpr ⟨raisesOnly_raiseIf rfl, fun _ _ => ?_⟩
  refine raisesOnly_bind.mpr ⟨uint_raises _ _ _, fun rows hrows => ?_⟩
  refine raisesOnly_bind.mpr ⟨uint_raises _ _ _, fun cols hcols => ?_⟩
  refine raisesOnly_bind.mpr ⟨raisesOnly_raiseIf rfl, fun _ _ => ?_⟩
  refine raisesOnly_bind.mpr ⟨raisesOnly_raiseIf rfl, fun _ hlen => ?_⟩
  obtain ⟨-, hrows, -⟩ := uint_eq_ok.mp hrows
  obtain ⟨-, hcols, -⟩ := uint_eq_ok.mp hcols
  obtain ⟨r, rfl⟩ := Int.eq_ofNat_of_zero_le hrows
  obtain ⟨c, rfl⟩ := Int.eq_ofNat_of_zero_le hcols
  have hpayload : payload.length = r * c * 4 := by
    have := not_not.mp (raiseIf_eq_ok.mp hlen)
    exact_mod_cast this
  obtain ⟨array, harray, -, -⟩ := reshape32_eq_ok hpayload
  rw [Int.toNat_natCast, Int.toNat_natCast, harray, ok_bind]
  exact raisesOnly_bind.mpr ⟨raisesOnly_raiseIf rfl, fun _ _ => raisesOnly_ok⟩

/-! ## A result frame -/

/-- A frame of the protocol that carries an array for a request, within the limits. -/
structure ResultFrame (I : Interpreter) (frame : Bytes) (request batch maxClasses maxValues : Int)
    (array : NdArray UInt32) : Prop where
  frame : ∃ header classes, decodeFrame I frame (maxValues * 4) =
      .ok (header, tobytes32 array.data) ∧
    Json.keysAre header (reservedNames ++ [py "cols", py "request_id", py "rows"]) = true ∧
    Json.item header (py "op") = .str (py "result") ∧
    Json.item header (py "request_id") = .int request ∧
    Json.item header (py "rows") = .int batch ∧
    Json.item header (py "cols") = .int classes ∧
    array.shape = [batch.toNat, classes.toNat] ∧
    1 ≤ classes ∧ classes ≤ maxClasses ∧ batch * classes ≤ maxValues
  finite : array.data.all isfinite32 = true

theorem decodeResult_frame {request batch maxClasses maxValues : Int} {array : NdArray UInt32}
    (h : decodeResult I frame request batch maxClasses maxValues = .ok array) :
    ResultFrame I frame request batch maxClasses maxValues array := by
  simp only [decodeResult, requireFields, expectOp, bind_eq_ok, raiseIf_eq_ok, exists_const,
    pure_eq_ok, uint_eq_ok, not_not, not_or, Bool.not_eq_false] at h
  obtain ⟨⟨header, payload⟩, hdec, hkeys, hop, id, ⟨hid, -, -⟩, rfl, rows, ⟨hrows, hrows0, -⟩,
    classes, ⟨hcols, hcols0, hcolsMax⟩, ⟨rfl, hpos, hsize⟩, hlen, a, ha, hfinite, rfl⟩ := h
  obtain ⟨r, rfl⟩ := Int.eq_ofNat_of_zero_le hrows0
  obtain ⟨c, rfl⟩ := Int.eq_ofNat_of_zero_le hcols0
  rw [Int.toNat_natCast, Int.toNat_natCast] at ha
  have hpayload : payload.length = r * c * 4 := by exact_mod_cast hlen
  obtain ⟨array, harray, hshape, hbytes⟩ := reshape32_eq_ok hpayload
  obtain rfl := Except.ok.inj (ha.symm.trans harray)
  refine ⟨⟨header, c, ?_, hkeys, pyEq_str.mp hop, hid, hrows, hcols, ?_, by omega, hcolsMax,
    by omega⟩, hfinite⟩
  · rw [hbytes]
    exact hdec
  · rw [Int.toNat_natCast, Int.toNat_natCast]
    exact hshape

end EdgeFort.Ipc
