/-
Validation datasets over IPC: `encode_qualification` and `decode_qualification`
(`ipc.py`), under the limits of `qualification.py`.

The decoder bounds the batch by the number of validation rows, the encoder does
not.  Under limits whose batch is larger, every frame the encoder makes is refused.
-/
import EdgeFort.Ipc.Messages

namespace EdgeFort.Ipc

open Effect

/-! ## Limits -/

structure QualificationLimits where
  timeoutS : PyNum
  memoryLimitMb : Option Int
  maxValidationRows : Int
  maxValidationFeatures : Int
  maxValidationValues : Int
  iterations : Int
  batch : Int
  nofileLimit : Int

namespace QualificationLimits

/-- `math.isfinite`, which converts its argument to a float. -/
def isfinite (x : PyNum) : Except PyError Bool :=
  match x.toFloat? with
  | none => .error (raise .overflowError (py "int too large to " ++ py "convert to float"))
  | some y => .ok y.isfinite

/-- The check of one field in the loop of `validate`. -/
def inRange (name : PyStr) (value maximum : Int) : Except PyError Unit :=
  raiseIf (¬(1 ≤ value ∧ value ≤ maximum))
    (raise .valueError (py "invalid qualification " ++ name))

def validate (L : QualificationLimits) : Except PyError QualificationLimits := do
  let finite ← isfinite L.timeoutS
  raiseIf (finite = false ∨ PyNum.le L.timeoutS (.int 0) = true)
    (raise .valueError (py "qualification timeout " ++ py "must be finite and > 0"))
  raiseIf (L.memoryLimitMb.any (fun mb => !(64 ≤ mb && mb ≤ 1048576)) = true)
    (raise .valueError (py "qualification memory limit " ++
      py "must be an integer in " ++ py "[64,1048576]"))
  inRange (py "max_validation_rows") L.maxValidationRows 10000000
  inRange (py "max_validation_features") L.maxValidationFeatures 10000000
  inRange (py "max_validation_values") L.maxValidationValues 1000000000
  inRange (py "iterations") L.iterations 100000
  inRange (py "batch") L.batch 10000000
  raiseIf (¬(16 ≤ L.nofileLimit ∧ L.nofileLimit ≤ 1048576))
    (raise .valueError (py "invalid qualification " ++ py "nofile_limit"))
  return L

/-- `max_incoming` of `_qualification_worker`. -/
def maxIncoming (L : QualificationLimits) (maxModelBytes : Int) : Int :=
  maxHeaderBytes + 1 + max maxModelBytes (L.maxValidationValues * 4 + L.maxValidationRows * 8)

theorem validate_ranges {L : QualificationLimits} (h : L.validate = .ok L) :
    1 ≤ L.maxValidationRows ∧ 1 ≤ L.maxValidationFeatures ∧ 1 ≤ L.maxValidationValues ∧
      1 ≤ L.iterations ∧ 1 ≤ L.batch := by
  unfold validate at h
  obtain ⟨_, -, h⟩ := bind_eq_ok.mp h
  simp only [inRange, bind_eq_ok, raiseIf_eq_ok, exists_const, pure_eq_ok, not_not] at h
  omega

end QualificationLimits

/-! ## Datasets -/

/-- `dtype.kind` of the labels: signed, unsigned, or none of the two. -/
inductive LabelKind where
  | i
  | u
  | other
  deriving DecidableEq, Repr

/-- `np.asarray(labels)`.  The values of an integer dtype are within 64 bits. -/
structure LabelArray extends NdArray Int where
  kind : LabelKind
  range : ∀ v ∈ data, (kind = .i → -9223372036854775808 ≤ v ∧ v < 9223372036854775808) ∧
    (kind = .u → 0 ≤ v ∧ v < 18446744073709551616)

/-- `np.asarray(y_raw, dtype=np.dtype("<i8"))` of an integer array: an unsigned value
past the largest int64 wraps. -/
def LabelArray.int64 (y : LabelArray) : List Int64 := y.data.map Int64.ofInt

variable (I : Interpreter)

/-- `encode_qualification`.  `inputs` is what NumPy makes of the inputs as float32;
it is none where that raises. -/
def encodeQualification (inputs : Option (NdArray UInt32)) (labels : LabelArray)
    (iterations batch maxValidationRows maxValidationFeatures maxValidationValues : Int) :
    Except PyError Bytes := do
  raiseIf (maxValidationRows < 1 ∨ maxValidationFeatures < 1 ∨ maxValidationValues < 1)
    (raise .valueError (py "qualification encode " ++ py "limits must be positive " ++
      py "integers"))
  let mismatch := protocolError (py "qualification dataset " ++ py "shape mismatch")
  match inputs with
  | none => .error (protocolError (py "qualification inputs " ++ py "cannot be represented " ++
      py "as float32"))
  | some x =>
    match x.shape, labels.shape with
    | [rows, cols], [count] => do
      raiseIf (rows ≠ count ∨ rows < 1) mismatch
      raiseIf (maxValidationRows < rows ∨ cols < 1 ∨ maxValidationFeatures < cols ∨
          maxValidationValues < rows * cols)
        (protocolError (py "qualification dataset " ++ py "outside configured bounds"))
      raiseIf (labels.kind = .other)
        (protocolError (py "qualification labels " ++ py "must be integers"))
      raiseIf (x.data.all isfinite32 = false)
        (protocolError (py "qualification inputs " ++ py "contain non-finite values"))
      raiseIf (labels.int64.any (fun y => decide (y.toInt < 0)) = true)
        (protocolError (py "qualification labels " ++ py "must be non-negative"))
      let xPayload := tobytes32 x.data
      let yPayload := tobytes64 labels.int64
      let batch ← uint (py "batch") (.int batch) maxDimension
      let colsField ← uint (py "cols") (.int cols) maxDimension
      let iterations ← uint (py "iterations") (.int iterations) 100000
      let rowsField ← uint (py "rows") (.int rows) maxDimension
      encodeFrame I (py "qualify") [(py "batch", .int batch), (py "cols", .int colsField),
        (py "iterations", .int iterations), (py "rows", .int rowsField),
        (py "x_bytes", .int xPayload.length), (py "y_bytes", .int yPayload.length)]
        (xPayload ++ yPayload)
    | _, _ => .error mismatch

structure Qualification where
  x : NdArray UInt32
  y : List Int64
  iterations : Int
  batch : Int

def decodeQualification (frame : Bytes) (maxValidationRows maxValidationFeatures
    maxValidationValues maxIterations : Int) : Except PyError Qualification := do
  raiseIf (maxValidationRows < 1 ∨ maxValidationFeatures < 1 ∨ maxValidationValues < 1 ∨
      maxIterations < 1)
    (raise .valueError (py "qualification decode " ++ py "limits must be positive " ++
      py "integers"))
  let (header, payload) ← decodeFrame I frame (maxValidationValues * 4 + maxValidationRows * 8)
  requireFields header [py "batch", py "cols", py "iterations", py "rows", py "x_bytes",
    py "y_bytes"]
  expectOp header (py "qualify")
  let rows ← uint (py "rows") (Json.item header (py "rows")) maxValidationRows
  let cols ← uint (py "cols") (Json.item header (py "cols")) maxValidationFeatures
  let iterations ← uint (py "iterations") (Json.item header (py "iterations")) maxIterations
  let batch ← uint (py "batch") (Json.item header (py "batch")) maxValidationRows
  raiseIf (rows < 1 ∨ cols < 1 ∨ maxValidationValues < rows * cols)
    (protocolError (py "qualification dataset " ++ py "outside configured bounds"))
  raiseIf (iterations < 1 ∨ batch < 1)
    (protocolError (py "qualification benchmark " ++ py "parameters outside " ++
      py "configured bounds"))
  let xBytes ← uint (py "x_bytes") (Json.item header (py "x_bytes")) (maxValidationValues * 4)
  let yBytes ← uint (py "y_bytes") (Json.item header (py "y_bytes")) (maxValidationRows * 8)
  raiseIf (xBytes ≠ rows * cols * 4 ∨ yBytes ≠ rows * 8 ∨
      (payload.length : Int) ≠ xBytes + yBytes)
    (protocolError (py "qualification payload " ++ py "byte length mismatch"))
  let x ← reshape32 (payload.take xBytes.toNat) rows.toNat cols.toNat
  let y := frombuffer64 (payload.drop xBytes.toNat)
  raiseIf (x.data.all isfinite32 = false ∨ y.any (fun y => decide (y.toInt < 0)) = true)
    (protocolError (py "qualification dataset " ++ py "contains invalid values"))
  return ⟨x, y, iterations, batch⟩

variable {I}

/-! ## What is encoded -/

/-- The fields of a dataset's frame. -/
def datasetFields (batch iterations : Int) (rows cols : Nat) : List (PyStr × Json) :=
  [(py "batch", .int batch), (py "cols", .int cols), (py "iterations", .int iterations),
    (py "rows", .int rows), (py "x_bytes", .int (rows * cols * 4 : Nat)),
    (py "y_bytes", .int (rows * 8 : Nat))]

/-- A label that is not negative as an int64 is the label that was given. -/
theorem toInt_int64 {y : LabelArray} (hkind : y.kind ≠ .other)
    (hpos : ∀ v ∈ y.int64, ¬v.toInt < 0) : y.int64.map Int64.toInt = y.data := by
  rw [LabelArray.int64, List.map_map]
  refine (List.map_congr_left fun v hv => ?_).trans (List.map_id _)
  have hv' := hpos _ (List.mem_map_of_mem hv)
  obtain ⟨hi, hu⟩ := y.range v hv
  simp only [Function.comp_apply, id_eq]
  rw [Int64.toInt_ofInt] at hv' ⊢
  have hsize : Int64.size = 2 ^ 64 := rfl
  rw [hsize] at hv' ⊢
  cases hk : y.kind with
  | i =>
    obtain ⟨hlo, hhi⟩ := hi hk
    exact Int.bmod_eq_of_le_mul_two (by norm_num; omega) (by norm_num; omega)
  | u =>
    obtain ⟨hlo, hhi⟩ := hu hk
    -- a value from 2 ^ 63 on would have wrapped below zero
    have hsmall : v < 9223372036854775808 := by
      by_contra hbig
      have hwrap : v.bmod (2 ^ 64) = v - 18446744073709551616 := by
        rw [Int.bmod_def, if_neg (by omega)]
        omega
      rw [hwrap] at hv'
      omega
    exact Int.bmod_eq_of_le_mul_two (by norm_num; omega) (by norm_num; omega)
  | other => exact absurd hk hkind

/-- What an encoded dataset satisfies. -/
structure Encoded (I : Interpreter) (x : NdArray UInt32) (labels : LabelArray)
    (iterations batch maxRows maxFeatures maxValues : Int) (frame : Bytes) (rows cols : Nat) :
    Prop where
  shape : x.shape = [rows, cols]
  count : labels.data.length = rows
  pos : 1 ≤ rows ∧ 1 ≤ cols
  bounds : (rows : Int) ≤ maxRows ∧ (cols : Int) ≤ maxFeatures ∧
    (rows * cols : Int) ≤ maxValues
  kind : labels.kind ≠ .other
  finite : x.data.all isfinite32 = true
  labels_pos : ∀ v ∈ labels.int64, ¬v.toInt < 0
  params : 0 ≤ iterations ∧ 0 ≤ batch
  frame : encodeFrame I (py "qualify") (datasetFields batch iterations rows cols)
    (tobytes32 x.data ++ tobytes64 labels.int64) = .ok frame

theorem encodeQualification_ok {inputs : Option (NdArray UInt32)} {labels : LabelArray}
    {iterations batch maxRows maxFeatures maxValues : Int} {frame : Bytes}
    (h : encodeQualification I inputs labels iterations batch maxRows maxFeatures maxValues =
      .ok frame) : ∃ x rows cols, inputs = some x ∧
      Encoded I x labels iterations batch maxRows maxFeatures maxValues frame rows cols := by
  unfold encodeQualification at h
  obtain ⟨-, -, h⟩ := bind_eq_ok.mp h
  cases inputs with
  | none => cases h
  | some x =>
    dsimp only at h
    split at h
    · rename_i rows cols count hx hy
      simp only [bind_eq_ok, raiseIf_eq_ok, exists_const, uint_eq_ok, Json.int.injEq, not_or,
        not_not, Bool.not_eq_true, Bool.not_eq_false, not_lt] at h
      obtain ⟨⟨rfl, hrows⟩, ⟨hmaxRows, hcols, hmaxCols, hmaxValues⟩, hkind, hfinite, hlabels, _,
        ⟨rfl, hbatch, -⟩, _, ⟨rfl, -⟩, _, ⟨rfl, hiterations, -⟩, _, ⟨rfl, -⟩, hframe⟩ := h
      have hcount : labels.data.length = rows := by
        rw [labels.size_eq, hy]
        simp
      have hxlen : (tobytes32 x.data).length = rows * cols * 4 := by
        rw [length_tobytes32, NdArray.length_data hx]
      have hylen : (tobytes64 labels.int64).length = rows * 8 := by
        rw [length_tobytes64, LabelArray.int64, List.length_map, hcount]
      rw [hxlen, hylen] at hframe
      refine ⟨x, rows, cols, rfl, hx, hcount, ⟨by omega, by omega⟩,
        ⟨hmaxRows, hmaxCols, hmaxValues⟩, hkind, hfinite, fun v hv => ?_, ⟨hiterations, hbatch⟩, hframe⟩
      simpa using List.any_eq_false.mp hlabels v hv
    · cases h

/-! ## What is decoded -/

theorem namesFit_dataset (batch iterations : Int) (rows cols : Nat) :
    NamesFit (datasetFields batch iterations rows cols) := by
  refine ⟨show [py "batch", py "cols", py "iterations", py "rows", py "x_bytes",
    py "y_bytes"].Nodup by decide, ?_⟩
  simp only [datasetFields, List.forall_mem_cons]
  exact ⟨by decide, by decide, by decide, by decide, by decide, by decide, List.forall_mem_nil _⟩

/-- The header of a dataset's frame, as it is printed. -/
def datasetHeader (batch iterations : Int) (rows cols : Nat) (payload : Bytes) :
    List (PyStr × Json) :=
  printedHeader (py "qualify") (datasetFields batch iterations rows cols) payload

theorem item_datasetHeader (batch iterations : Int) (rows cols : Nat) (payload : Bytes) :
    let header := datasetHeader batch iterations rows cols payload
    Json.item header (py "op") = .str (py "qualify") ∧
      Json.item header (py "rows") = .int rows ∧ Json.item header (py "cols") = .int cols ∧
      Json.item header (py "iterations") = .int iterations ∧
      Json.item header (py "batch") = .int batch ∧
      Json.item header (py "x_bytes") = .int (rows * cols * 4 : Nat) ∧
      Json.item header (py "y_bytes") = .int (rows * 8 : Nat) := by
  have hitem : ∀ k, Json.item (datasetHeader batch iterations rows cols payload) k =
      (Json.item (reservedFields (py "qualify") payload ++
        datasetFields batch iterations rows cols) k).sortKeys :=
    item_printedHeader (namesFit_dataset batch iterations rows cols)
  exact ⟨hitem _, hitem _, hitem _, hitem _, hitem _, hitem _, hitem _⟩

variable {x : NdArray UInt32} {labels : LabelArray}
  {iterations batch maxRows maxFeatures maxValues maxIterations : Int} {frame : Bytes}
  {rows cols : Nat}

/-- The payload of a dataset's frame. -/
def datasetPayload (x : NdArray UInt32) (labels : LabelArray) : Bytes :=
  tobytes32 x.data ++ tobytes64 labels.int64

namespace Encoded

variable (e : Encoded I x labels iterations batch maxRows maxFeatures maxValues frame rows cols)
include e

theorem length_x : (tobytes32 x.data).length = rows * cols * 4 := by
  rw [length_tobytes32, NdArray.length_data e.shape]

theorem length_y : (tobytes64 labels.int64).length = rows * 8 := by
  rw [length_tobytes64, LabelArray.int64, List.length_map, e.count]

theorem length_payload : (datasetPayload x labels).length = rows * cols * 4 + rows * 8 := by
  rw [datasetPayload, List.length_append, e.length_x, e.length_y]

theorem payload_le : ((datasetPayload x labels).length : Int) ≤ maxValues * 4 + maxRows * 8 := by
  obtain ⟨hmaxRows, -, hmaxValues⟩ := e.bounds
  rw [e.length_payload]
  push_cast
  omega

/-- The frame decodes to its printed header, within the payload bound. -/
theorem decodeFrame_eq (hI : I.Lawful) :
    decodeFrame I frame (maxValues * 4 + maxRows * 8) =
      .ok (datasetHeader batch iterations rows cols (datasetPayload x labels),
        datasetPayload x labels) := by
  have hnames := namesFit_dataset batch iterations rows cols
  have hstrict : (Json.obj (datasetFields batch iterations rows cols)).strict = true := by
    rw [Json.strict, Bool.and_eq_true, decide_eq_true_eq]
    exact ⟨hnames.1, rfl⟩
  exact (decodeFrame_encodeFrame hI hstrict rfl (Json.readDepth_flat I rfl) e.frame
    e.payload_le).2

/-- The checks of the decoder come down to the one on the batch. -/
theorem decodeQualification_eq_ok (hI : I.Lawful)
    (hiterations : 1 ≤ iterations ∧ iterations ≤ maxIterations) (hbatch : 1 ≤ batch)
    {q : Qualification} :
    decodeQualification I frame maxRows maxFeatures maxValues maxIterations = .ok q ↔
      batch ≤ maxRows ∧ q = ⟨x, labels.int64, iterations, batch⟩ := by
  obtain ⟨hmaxRows, hmaxFeatures, hmaxValues⟩ := e.bounds
  have hpos := e.pos
  have hproduct : 1 ≤ rows * cols := Nat.mul_pos hpos.1 hpos.2
  obtain ⟨hop, hrows, hcols, hiter, hbat, hxb, hyb⟩ :=
    item_datasetHeader batch iterations rows cols (datasetPayload x labels)
  have hkeys : Json.keysAre (datasetHeader batch iterations rows cols (datasetPayload x labels))
      (reservedNames ++ [py "batch", py "cols", py "iterations", py "rows", py "x_bytes",
        py "y_bytes"]) = true :=
    keysAre_printedHeader (namesFit_dataset batch iterations rows cols) rfl
  have hrefl : Json.pyEq (.str (py "qualify")) (.str (py "qualify")) = true :=
    Json.pyEq_refl (.str (py "qualify")) rfl
  have htake : (datasetPayload x labels).take (rows * cols * 4) = tobytes32 x.data :=
    List.take_left' e.length_x
  have hdrop : (datasetPayload x labels).drop (rows * cols * 4) = tobytes64 labels.int64 :=
    List.drop_left' e.length_x
  have hlabels : labels.int64.any (fun y => decide (y.toInt < 0)) = false := by
    rw [List.any_eq_false]
    intro v hv
    rw [decide_eq_true_eq]
    exact e.labels_pos v hv
  unfold decodeQualification
  rw [e.decodeFrame_eq hI, ok_bind]
  simp only [requireFields, expectOp, bind_eq_ok, raiseIf_eq_ok, exists_const, uint_eq_ok,
    hkeys, hop, hrefl, hrows, hcols, hiter, hbat, hxb, hyb, Json.int.injEq, pure_eq_ok, and_assoc,
    exists_eq_left', Int.toNat_natCast, htake, hdrop, reshape32_tobytes32 e.shape,
    frombuffer64_tobytes64, hlabels, e.finite, e.length_payload, Except.ok.injEq,
    Bool.true_eq_false, Bool.false_eq_true, or_false, not_false_eq_true, true_and]
  push_cast
  constructor
  · rintro ⟨-, -, -, -, -, -, -, -, hbound, -, -, -, -, -, -, -, rfl⟩
    exact ⟨hbound, rfl⟩
  · rintro ⟨hbound, rfl⟩
    refine ⟨?_, ?_, ?_, ?_, ?_, ?_, ?_, ?_, ?_, ?_, ?_, ?_, ?_, ?_, ?_, ?_, rfl⟩ <;> omega

end Encoded

namespace Encoded

/-- The frame is within what the worker receives. -/
theorem length_frame
    (e : Encoded I x labels iterations batch maxRows maxFeatures maxValues frame rows cols) :
    2 ≤ frame.length ∧ (frame.length : Int) ≤
      maxHeaderBytes + 1 + (maxValues * 4 + maxRows * 8) := by
  have hpos := e.pos
  have hpayload := e.payload_le
  have hlen := e.length_payload
  obtain ⟨-, -, encoded, -, hle, hframe⟩ := encodeFrame_eq_ok.mp e.frame
  have hframe' : frame = encoded ++ 0x0A :: datasetPayload x labels := hframe
  rw [hframe', List.length_append, List.length_cons]
  omega

end Encoded

/-- Whether the worker gets the dataset and the parameters that were encoded. -/
def WorkerReceives (I : Interpreter) (L : QualificationLimits) (maxModelBytes : Int)
    (inputs : Option (NdArray UInt32)) (labels : LabelArray) (frame : Bytes) : Prop :=
  2 ≤ frame.length ∧ (frame.length : Int) ≤ L.maxIncoming maxModelBytes ∧
    ∃ x y, inputs = some x ∧ y.map Int64.toInt = labels.data ∧
      decodeQualification I frame L.maxValidationRows L.maxValidationFeatures
        L.maxValidationValues L.iterations = .ok ⟨x, y, L.iterations, L.batch⟩

/-- Under one set of limits the decoder agrees with the encoder if and only if the
batch is at most the number of rows the limits allow. -/
theorem qualification_agrees_iff (hI : I.Lawful) {L : QualificationLimits}
    (hvalid : L.validate = .ok L) {inputs : Option (NdArray UInt32)} {labels : LabelArray}
    {frame : Bytes} (h : encodeQualification I inputs labels L.iterations L.batch
      L.maxValidationRows L.maxValidationFeatures L.maxValidationValues = .ok frame)
    (maxModelBytes : Int) :
    WorkerReceives I L maxModelBytes inputs labels frame ↔ L.batch ≤ L.maxValidationRows := by
  obtain ⟨-, -, -, hiterations, hbatch⟩ := QualificationLimits.validate_ranges hvalid
  obtain ⟨x, rows, cols, rfl, e⟩ := encodeQualification_ok h
  have hdecode := fun {q : Qualification} => e.decodeQualification_eq_ok hI (q := q)
    ⟨hiterations, le_refl L.iterations⟩ hbatch
  constructor
  · rintro ⟨-, -, x', y, -, -, hdec⟩
    exact (hdecode.mp hdec).1
  · intro hle
    obtain ⟨hmin, hmax⟩ := e.length_frame
    refine ⟨hmin, ?_, x, labels.int64, rfl, toInt_int64 e.kind e.labels_pos, ?_⟩
    · unfold QualificationLimits.maxIncoming
      omega
    · exact hdecode.mpr ⟨hle, rfl⟩

/-! ## Samples -/

/-- The default limits, for datasets of at most some number of rows. -/
def defaultLimits (maxValidationRows : Int) : QualificationLimits :=
  ⟨.float (.finite 30), none, maxValidationRows, 1000000, 10000000, 40, 32, 64⟩

/-- One row with the value 1.0. -/
def oneRow : NdArray UInt32 := ⟨[1, 1], [0x3F800000], rfl⟩

/-- The unsigned label 3. -/
def oneLabel : LabelArray where
  shape := [1]
  data := [3]
  size_eq := rfl
  kind := .u
  range := by
    intro v hv
    rw [List.mem_singleton] at hv
    omega

theorem qualification_agrees_iff_sample : ∃ frame,
    encodeQualification Sample.interpreter (some oneRow) oneLabel 40 32 100000 1000000 10000000 =
      .ok frame ∧
    (WorkerReceives Sample.interpreter (defaultLimits 100000) 1024 (some oneRow) oneLabel frame ↔
      (32 : Int) ≤ 100000) := by
  obtain ⟨frame, hframe⟩ := exists_ok (x := encodeQualification Sample.interpreter (some oneRow)
    oneLabel 40 32 100000 1000000 10000000) (by decide +kernel)
  exact ⟨frame, hframe, qualification_agrees_iff Sample.interpreter_lawful
    (show (defaultLimits 100000).validate = .ok (defaultLimits 100000) from rfl) hframe 1024⟩

/-- Limits of 16 rows are valid with the default batch of 32.  The encoder takes a
dataset of one row, and the decoder refuses it. -/
theorem batch_over_rows_refused :
    (defaultLimits 16).validate = .ok (defaultLimits 16) ∧ ∃ frame,
    encodeQualification Sample.interpreter (some oneRow) oneLabel 40 32 16 1000000 10000000 =
      .ok frame ∧
    decodeQualification Sample.interpreter frame 16 1000000 10000000 40 =
      .error (protocolError (py "invalid IPC integer " ++ py "field batch")) ∧
    ¬WorkerReceives Sample.interpreter (defaultLimits 16) 1024 (some oneRow) oneLabel frame := by
  refine ⟨rfl, ?_⟩
  obtain ⟨frame, hall⟩ : ∃ frame, (do
      let frame ← encodeQualification Sample.interpreter (some oneRow) oneLabel 40 32 16 1000000
        10000000
      match decodeQualification Sample.interpreter frame 16 1000000 10000000 40 with
      | .ok _ => .error (protocolError "x")
      | .error e => do
        raiseIf (e ≠ protocolError (py "invalid IPC integer " ++ py "field batch"))
          (protocolError "x")
        return frame) = .ok frame := exists_ok (by decide +kernel)
  obtain ⟨frame', hframe, hall⟩ := bind_eq_ok.mp hall
  cases hdec : decodeQualification Sample.interpreter frame' 16 1000000 10000000 40 with
  | ok q =>
    rw [hdec] at hall
    cases hall
  | error e =>
    simp only [hdec, bind_eq_ok, raiseIf_eq_ok, exists_const, not_not] at hall
    refine ⟨frame', hframe, ?_, ?_⟩
    · rw [hdec, hall.1]
    · rintro ⟨-, -, x, y, -, -, hok⟩
      have hok' : decodeQualification Sample.interpreter frame' 16 1000000 10000000 40 =
        .ok ⟨x, y, 40, 32⟩ := hok
      rw [hdec] at hok'
      cases hok'

end EdgeFort.Ipc
