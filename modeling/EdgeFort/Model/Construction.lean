/-
From the headers of an accepted archive to a model (`model_io.py`, `model.py`,
`quantization.py`).

`validate_linear_headers` asks of the headers what the constructors ask of the arrays'
shapes, so that a model is refused only for its values.
-/
import EdgeFort.Model.Preflight
import EdgeFort.Quantization.DynamicInt8

namespace EdgeFort

open Effect PyFloat

namespace Npz

/-! ## The header checks -/

/-- `headers[name]` -/
def getItem (headers : List (PyStr × ArrayHeader)) (name : PyStr) : Except PyError ArrayHeader :=
  match headers.lookup name with
  | some h => .ok h
  | none => .error (raise .keyError (py "'" ++ name ++ py "'"))

/-- `validate_linear_headers` -/
def validateLinearHeaders (headers : List (PyStr × ArrayHeader)) (quantized : Bool) :
    Except PyError Unit := do
  let weights ← getItem headers (if quantized then "qW" else "W")
  let bias ← getItem headers "b"
  let abi ← getItem headers "abi"
  raiseIf (weights.shape = [] ∨ weights.shape.length ≠ 2 ∨ weights.shape.min?.getD 0 < 1)
    (validationError "model weights must be a non-empty rank-2 array")
  raiseIf (bias.shape.length ≠ 1 ∨ bias.shape ≠ [weights.shape.headD 0])
    (validationError (py "model bias shape does not match " ++ py "output dimension"))
  raiseIf (abi.shape ≠ []) (validationError "runtime ABI marker must be scalar")
  if quantized then do
    let scales ← getItem headers "scales"
    raiseIf (weights.dtype ≠ .int8) (validationError "quantized weights must be int8")
    raiseIf (scales.shape.length ≠ 1 ∨ scales.shape ≠ [weights.shape.headD 0])
      (validationError (py "quantization scale shape does not " ++ py "match output dimension"))
    raiseIf (scales.dtype ≠ .float32 ∨ bias.dtype ≠ .float32)
      (validationError "quantization scales and bias must be float32")
  else
    raiseIf (weights.dtype ≠ .float32 ∨ bias.dtype ≠ .float32)
      (validationError "float model weights and bias must be float32")
  raiseIf (abi.dtype.kind ≠ py "U" ∧ abi.dtype.kind ≠ py "S")
    (validationError "runtime ABI marker must be a string")

end Npz

/-! ## Arrays of any type -/

/-- An array as `np.load` gives it, with its values where the constructors keep them. -/
inductive NpArray where
  | int8 (a : NdArray Int8)
  | float32 (a : NdArray PyFloat) (h : ∀ x ∈ a.data, Binary32.ofFloat x = x)
  | other (shape : List Nat) (dtype : DType) (h : dtype ≠ .int8 ∧ dtype ≠ .float32)

namespace NpArray

def shape : NpArray → List Nat
  | int8 a => a.shape
  | float32 a _ => a.shape
  | other shape _ _ => shape

def dtype : NpArray → DType
  | int8 _ => .int8
  | float32 _ _ => .float32
  | other _ dtype _ => dtype

/-- The values of a float32 array. -/
def floats : NpArray → List PyFloat
  | float32 a _ => a.data
  | _ => []

end NpArray

/-- What `np.asarray` makes of an array of another type, or the exception it raises. -/
structure Casts where
  toInt8 : NpArray → Except PyError (NdArray Int8)
  toFloat32 : NpArray → Except PyError (NdArray PyFloat)

namespace Casts

variable (C : Casts)

/-- `np.asarray(a, dtype=np.int8)` -/
def asInt8 : NpArray → Except PyError (NdArray Int8)
  | .int8 a => .ok a
  | a => C.toInt8 a

/-- `np.asarray(a, dtype=np.float32)` -/
def asFloat32 : NpArray → Except PyError (NdArray PyFloat)
  | .float32 a _ => .ok a
  | a => C.toFloat32 a

end Casts

/-! ## The constructors -/

/-- A model its constructor has accepted. -/
structure LinearModel where
  W : NdArray PyFloat
  b : NdArray PyFloat
  classes : Nat
  width : Nat
  shape_W : W.shape = [classes, width]
  shape_b : b.shape = [classes]
  shape_pos : 1 ≤ classes ∧ 1 ≤ width
  finite : (∀ x ∈ W.data, x.isfinite = true) ∧ ∀ x ∈ b.data, x.isfinite = true

/-- The checks of `LinearModel.__init__`. -/
def LinearModel.init (W b : NdArray PyFloat) : Except PyError LinearModel :=
  match hW : W.shape, hb : b.shape with
  | [classes, width], [n] =>
    if hn : classes = n then
      if hpos : 1 ≤ classes ∧ 1 ≤ width then
        if hfinite : (∀ x ∈ W.data, x.isfinite = true) ∧ ∀ x ∈ b.data, x.isfinite = true then
          .ok ⟨W, b, classes, width, hW, hn ▸ hb, hpos, hfinite⟩
        else .error (raise .validationError "non-finite model")
      else .error (raise .validationError "linear model dimensions must be non-zero")
    else .error (raise .validationError "invalid linear model shape")
  | _, _ => .error (raise .validationError "invalid linear model shape")

/-- `LinearModel.__init__` -/
def LinearModel.construct (C : Casts) (W b : NpArray) : Except PyError LinearModel := do
  let W ← C.asFloat32 W
  let b ← C.asFloat32 b
  LinearModel.init W b

/-- `WeightOnlyInt8Model.__init__` -/
def WeightOnlyInt8Model.construct (C : Casts) (qW scales b : NpArray) :
    Except PyError WeightOnlyInt8Model := do
  let qW ← C.asInt8 qW
  let scales ← C.asFloat32 scales
  let b ← C.asFloat32 b
  WeightOnlyInt8Model.init qW scales b

/-! ## Shapes that pass -/

namespace Npz

variable {headers : List (PyStr × ArrayHeader)} {name : PyStr} {h : ArrayHeader}

theorem getItem_ok : getItem headers name = .ok h ↔ headers.lookup name = some h := by
  unfold getItem
  cases headers.lookup name <;> simp

/-- The array has the shape and the type of the header. -/
def HasHeader (headers : List (PyStr × ArrayHeader)) (name : PyStr) (a : NpArray) : Prop :=
  ∃ h, headers.lookup name = some h ∧ a.shape = h.shape ∧ a.dtype = h.dtype

theorem HasHeader.of_lookup {a : NpArray} (ha : HasHeader headers name a)
    (hl : headers.lookup name = some h) : a.shape = h.shape ∧ a.dtype = h.dtype := by
  obtain ⟨h', hl', hshape, hdtype⟩ := ha
  rw [hl] at hl'
  obtain rfl := Option.some.inj hl'
  exact ⟨hshape, hdtype⟩

theorem rank_two {shape : List Nat}
    (hs : ¬(shape = [] ∨ shape.length ≠ 2 ∨ shape.min?.getD 0 < 1)) :
    ∃ classes width, shape = [classes, width] ∧ 1 ≤ classes ∧ 1 ≤ width := by
  match shape with
  | [] => simp at hs
  | [_] => simp at hs
  | [classes, width] =>
    refine ⟨classes, width, rfl, ?_⟩
    simp only [List.min?_cons, List.min?_nil] at hs
    simp at hs
    omega
  | _ :: _ :: _ :: _ => simp at hs

/-- The headers of a float model that pass the checks. -/
theorem validateLinearHeaders_float (hv : validateLinearHeaders headers false = .ok ()) :
    ∃ weights bias classes width, headers.lookup (py "W") = some weights ∧
      headers.lookup (py "b") = some bias ∧ weights.shape = [classes, width] ∧
      bias.shape = [classes] ∧ (1 ≤ classes ∧ 1 ≤ width) ∧
      weights.dtype = .float32 ∧ bias.dtype = .float32 := by
  simp only [validateLinearHeaders, bind_eq_ok, raiseIf_eq_ok, getItem_ok, Bool.false_eq_true,
    if_false] at hv
  obtain ⟨weights, hweights, bias, hbias, abi, -, _, hrank, _, hshape, _, -, _, hdtype, -⟩ := hv
  obtain ⟨classes, width, hw, hpos⟩ := rank_two hrank
  rw [hw] at hshape
  rw [not_or, not_not, not_not] at hdtype hshape
  exact ⟨weights, bias, classes, width, hweights, hbias, hw, hshape.2, hpos, hdtype⟩

/-- The headers of a quantized model that pass the checks. -/
theorem validateLinearHeaders_quantized (hv : validateLinearHeaders headers true = .ok ()) :
    ∃ weights scales bias classes width, headers.lookup (py "qW") = some weights ∧
      headers.lookup (py "scales") = some scales ∧ headers.lookup (py "b") = some bias ∧
      weights.shape = [classes, width] ∧ scales.shape = [classes] ∧ bias.shape = [classes] ∧
      (1 ≤ classes ∧ 1 ≤ width) ∧ weights.dtype = .int8 ∧ scales.dtype = .float32 ∧
      bias.dtype = .float32 := by
  simp only [validateLinearHeaders, bind_eq_ok, raiseIf_eq_ok, getItem_ok, if_true] at hv
  obtain ⟨weights, hweights, bias, hbias, abi, -, _, hrank, _, hshape, _, -, scales, hscales,
    _, hint8, _, hscale, _, hfloats, -⟩ := hv
  obtain ⟨classes, width, hw, hpos⟩ := rank_two hrank
  rw [hw] at hshape hscale
  rw [not_or, not_not, not_not] at hfloats hshape hscale
  exact ⟨weights, scales, bias, classes, width, hweights, hscales, hbias, hw, hscale.2, hshape.2,
    hpos, not_not.mp hint8, hfloats⟩

end Npz

namespace NpArray

theorem eq_float32 {a : NpArray} (h : a.dtype = .float32) :
    ∃ x hx, a = float32 x hx := by
  cases a with
  | int8 a => cases h
  | float32 x hx => exact ⟨x, hx, rfl⟩
  | other shape dtype hne => exact absurd h hne.2

theorem eq_int8 {a : NpArray} (h : a.dtype = .int8) : ∃ x, a = int8 x := by
  cases a with
  | int8 a => exact ⟨a, rfl⟩
  | float32 x hx => cases h
  | other shape dtype hne => exact absurd h hne.1

end NpArray

/-- With a bias for each class, only values that are not finite are refused. -/
theorem LinearModel.init_raises {W b : NdArray PyFloat} {classes width : Nat}
    (hW : W.shape = [classes, width]) (hb : b.shape = [classes])
    (hpos : 1 ≤ classes ∧ 1 ≤ width) :
    RaisesOnly (fun e => e = raise .validationError "non-finite model" ∧
      ¬∀ x ∈ W.data ++ b.data, x.isfinite = true) (LinearModel.init W b) := by
  intro e he
  unfold LinearModel.init at he
  split at he
  · rename_i c w n hW' hb'
    rw [hW] at hW'
    rw [hb] at hb'
    obtain ⟨rfl, hw⟩ := List.cons.inj hW'
    obtain ⟨rfl, -⟩ := List.cons.inj hw
    obtain ⟨rfl, -⟩ := List.cons.inj hb'
    rw [dif_pos rfl, dif_pos hpos] at he
    split_ifs at he with hfinite
    refine ⟨(Except.error.inj he).symm, fun hall => hfinite ?_⟩
    exact List.forall_mem_append.mp hall
  · rename_i hno
    exact absurd hb (hno _ _ _ hW)

/-- With a scale and a bias for each class, only scales that are not positive and finite
and biases that are not finite are refused. -/
theorem WeightOnlyInt8Model.init_raises {qW : NdArray Int8} {scales b : NdArray PyFloat}
    {classes width : Nat} (hW : qW.shape = [classes, width]) (hs : scales.shape = [classes])
    (hb : b.shape = [classes]) (hpos : 1 ≤ classes ∧ 1 ≤ width)
    (hscales : ∀ x ∈ scales.data, Binary32.ofFloat x = x)
    (hbias : ∀ x ∈ b.data, Binary32.ofFloat x = x) :
    RaisesOnly (fun e => e = raise .validationError "invalid quantization scale" ∧
        (¬∀ s ∈ scales.data, s.isfinite = true ∧ (PyNum.le (.float s) (.int 0)) = false) ∨
      e = raise .validationError "invalid quantization bias" ∧
        ¬∀ x ∈ b.data, x.isfinite = true) (WeightOnlyInt8Model.init qW scales b) := by
  have hscales : (scales.map Binary32.ofFloat).data = scales.data :=
    (List.map_congr_left hscales).trans (List.map_id _)
  have hbias : (b.map Binary32.ofFloat).data = b.data :=
    (List.map_congr_left hbias).trans (List.map_id _)
  intro e he
  simp only [WeightOnlyInt8Model.init] at he
  split at he
  · rename_i c w hW'
    rw [hW] at hW'
    obtain ⟨rfl, hw⟩ := List.cons.inj hW'
    obtain ⟨rfl, -⟩ := List.cons.inj hw
    rw [dif_pos ⟨hpos, hs, hb⟩] at he
    split_ifs at he with hgood hfinite
    · exact Or.inr ⟨(Except.error.inj he).symm, hbias ▸ hfinite⟩
    · exact Or.inl ⟨(Except.error.inj he).symm, hscales ▸ hgood⟩
  · rename_i hno
    exact absurd hW (hno _ _)

namespace Npz

variable {headers : List (PyStr × ArrayHeader)} (C : Casts)

/-- What `LinearModel` may refuse. -/
def FloatRefusal (W b : NpArray) (e : PyError) : Prop :=
  e = raise .validationError "non-finite model" ∧ ¬∀ x ∈ W.floats ++ b.floats, x.isfinite = true

/-- What `WeightOnlyInt8Model` may refuse. -/
def QuantizedRefusal (scales b : NpArray) (e : PyError) : Prop :=
  e = raise .validationError "invalid quantization scale" ∧
      (¬∀ s ∈ scales.floats, s.isfinite = true ∧ (PyNum.le (.float s) (.int 0)) = false) ∨
    e = raise .validationError "invalid quantization bias" ∧
      ¬∀ x ∈ b.floats, x.isfinite = true

theorem construct_float (hv : validateLinearHeaders headers false = .ok ()) {W b : NpArray}
    (hW : HasHeader headers "W" W) (hb : HasHeader headers "b" b) :
    RaisesOnly (FloatRefusal W b) (LinearModel.construct C W b) := by
  obtain ⟨weights, bias, classes, width, hweights, hbias, hshapeW, hshapeb, hpos, hfloatW, hfloatb⟩ :=
    validateLinearHeaders_float hv
  obtain ⟨hsW, hdW⟩ := hW.of_lookup hweights
  obtain ⟨hsb, hdb⟩ := hb.of_lookup hbias
  obtain ⟨W, hexactW, rfl⟩ := NpArray.eq_float32 (hdW.trans hfloatW)
  obtain ⟨b, hexactb, rfl⟩ := NpArray.eq_float32 (hdb.trans hfloatb)
  exact LinearModel.init_raises (hsW.trans hshapeW) (hsb.trans hshapeb) hpos

theorem construct_quantized (hv : validateLinearHeaders headers true = .ok ())
    {qW scales b : NpArray} (hW : HasHeader headers "qW" qW)
    (hs : HasHeader headers "scales" scales) (hb : HasHeader headers "b" b) :
    RaisesOnly (QuantizedRefusal scales b) (WeightOnlyInt8Model.construct C qW scales b) := by
  obtain ⟨weights, scale, bias, classes, width, hweights, hscale, hbias, hshapeW, hshapes, hshapeb,
    hpos, hint8, hfloats, hfloatb⟩ := validateLinearHeaders_quantized hv
  obtain ⟨hsW, hdW⟩ := hW.of_lookup hweights
  obtain ⟨hss, hds⟩ := hs.of_lookup hscale
  obtain ⟨hsb, hdb⟩ := hb.of_lookup hbias
  obtain ⟨qW, rfl⟩ := NpArray.eq_int8 (hdW.trans hint8)
  obtain ⟨scales, hexacts, rfl⟩ := NpArray.eq_float32 (hds.trans hfloats)
  obtain ⟨b, hexactb, rfl⟩ := NpArray.eq_float32 (hdb.trans hfloatb)
  exact WeightOnlyInt8Model.init_raises (hsW.trans hshapeW) (hss.trans hshapes)
    (hsb.trans hshapeb) hpos hexacts hexactb

/-- The archive has just the expected arrays, which fit the limit together, and where the
headers pass their checks too a model of arrays with these headers is refused only for
values. -/
structure Predicts (archive : Except PyError Archive) (expectedArrays : Finset PyStr)
    (maxUncompressedBytes : Json) (headers : List (PyStr × ArrayHeader)) : Prop where
  accepted : ∃ members limit, archive = .ok members ∧ maxUncompressedBytes = .int limit ∧
    Accepted members expectedArrays limit headers
  float : validateLinearHeaders headers false = .ok () → ∀ W b : NpArray,
    HasHeader headers "W" W → HasHeader headers "b" b →
      RaisesOnly (FloatRefusal W b) (LinearModel.construct C W b)
  quantized : validateLinearHeaders headers true = .ok () → ∀ qW scales b : NpArray,
    HasHeader headers "qW" qW → HasHeader headers "scales" scales → HasHeader headers "b" b →
      RaisesOnly (QuantizedRefusal scales b) (WeightOnlyInt8Model.construct C qW scales b)

/-- What the preflight accepts is bounded and predicts the construction. -/
theorem preflight_predicts (archive : Except PyError Archive) (expectedArrays : Finset PyStr)
    (maxUncompressedBytes : Json) (headers : List (PyStr × ArrayHeader))
    (hok : preflightNpz archive expectedArrays maxUncompressedBytes = .ok headers) :
    Predicts C archive expectedArrays maxUncompressedBytes headers where
  accepted := preflightNpz_ok hok
  float hv _ _ hW hb := construct_float C hv hW hb
  quantized hv _ _ _ hW hs hb := construct_quantized C hv hW hs hb

/-! ## An archive of a float model -/

namespace Sample

def npyMember (dims : List Int) (dtype : DType) : NpyMember where
  magic := .ok (1, 0)
  header10 := .ok ⟨.tuple (dims.map .int), false, dtype⟩
  header20 := .error (raise .valueError "not version 2.0")

def info (name : PyStr) (fileSize : Int) : ZipInfo := ⟨memberName name, 0, 8, fileSize⟩

def archive : Archive :=
  [(info "W" 136, .ok (npyMember [1, 2] .float32)), (info "b" 132, .ok (npyMember [1] .float32)),
    (info "abi" 164, .ok (npyMember [] ⟨"U", 36, "=", false⟩))]

def read : List (PyStr × ArrayHeader) :=
  [("W", ⟨[1, 2], .float32, false, 8⟩), ("b", ⟨[1], .float32, false, 4⟩),
    ("abi", ⟨[], ⟨"U", 36, "=", false⟩, false, 36⟩)]

def expected : Finset PyStr := [py "W", py "b", py "abi"].toFinset

def casts : Casts :=
  ⟨fun _ => .error (raise .valueError "no int8"), fun _ => .error (raise .valueError "no float32")⟩

end Sample

theorem preflight_predicts_sample :
    Predicts Sample.casts (.ok Sample.archive) Sample.expected (.int 1024) Sample.read :=
  preflight_predicts Sample.casts (.ok Sample.archive) Sample.expected (.int 1024)
    Sample.read (by decide +kernel)

example : validateLinearHeaders Sample.read false = .ok () := by decide +kernel

end Npz

end EdgeFort
