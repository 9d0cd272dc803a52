/-
`WeightOnlyInt8Model` and `DynamicInt8Model` (`quantization.py`): what their
constructors accept, and the int32 accumulator of the dynamic model.

The bound on the width takes both factors of a product to be at most 127.  The
quantized input is, but a loaded weight can be -128, so the accumulator is exact
for the models whose rows have 127 times their weight within int32.
-/
import EdgeFort.Numpy.Array
import EdgeFort.Numpy.Float32
import EdgeFort.Quantization.Dot

namespace EdgeFort

open PyFloat

/-- `_MAX_SAFE_INT32_DOT` -/
def maxSafeInt32Dot : Nat := 2147483647 / (127 * 127)

/-- A model its constructor has accepted. -/
structure WeightOnlyInt8Model where
  qW : NdArray Int8
  scales : NdArray PyFloat
  b : NdArray PyFloat
  classes : Nat
  width : Nat
  shape_qW : qW.shape = [classes, width]
  shape_pos : 1 ≤ classes ∧ 1 ≤ width
  shape_scales : scales.shape = [classes]
  shape_b : b.shape = [classes]
  scales_pos : ∀ s ∈ scales.data, s.isfinite = true ∧ (PyNum.le (.float s) (.int 0)) = false
  b_finite : ∀ x ∈ b.data, x.isfinite = true

/-- `WeightOnlyInt8Model.__init__` -/
def WeightOnlyInt8Model.init (qW : NdArray Int8) (scales b : NdArray PyFloat) :
    Except PyError WeightOnlyInt8Model :=
  let scales := scales.map Binary32.ofFloat
  let b := b.map Binary32.ofFloat
  match hshape : qW.shape with
  | [classes, width] =>
    if h : (1 ≤ classes ∧ 1 ≤ width) ∧ scales.shape = [classes] ∧ b.shape = [classes] then
      if hscales : ∀ s ∈ scales.data,
          s.isfinite = true ∧ (PyNum.le (.float s) (.int 0)) = false then
        if hb : ∀ x ∈ b.data, x.isfinite = true then
          .ok ⟨qW, scales, b, classes, width, hshape, h.1, h.2.1, h.2.2, hscales, hb⟩
        else .error (raise .validationError "invalid quantization bias")
      else .error (raise .validationError "invalid quantization scale")
    else .error (raise .validationError "invalid int8 model")
  | _ => .error (raise .validationError "invalid int8 model")

structure DynamicInt8Model extends WeightOnlyInt8Model where
  width_le : width ≤ maxSafeInt32Dot

/-- `DynamicInt8Model.__init__` -/
def DynamicInt8Model.init (qW : NdArray Int8) (scales b : NdArray PyFloat) :
    Except PyError DynamicInt8Model := do
  let model ← WeightOnlyInt8Model.init qW scales b
  if h : model.width ≤ maxSafeInt32Dot then return { model with width_le := h }
  else .error (raise .validationError (py "dynamic int8 input dimension " ++
    py "exceeds safe int32 " ++ py "accumulation bound 133144"))

/-! ## The input quantizer -/

/-- `np.max(np.abs(x), axis=1)`, of one row. -/
def maxAbs (row : List PyFloat) : PyFloat :=
  match row.map PyFloat.abs with
  | [] => finite 0
  | v :: vs => vs.foldl maximum v

def xscale (row : List PyFloat) : PyFloat :=
  maximum (Binary32.div (maxAbs row) (finite 127)) (Binary32.round (1 / 1000000000000))

/-- `astype(np.int8)`.  A NaN has no value there, and does not come here. -/
def astypeInt8 (x : PyFloat) : Int8 := Int8.ofInt (truncate (x.rat?.getD 0))

/-- `np.clip(np.rint(x / xscale), -127, 127).astype(np.int8)` -/
def quantizeValue (scale x : PyFloat) : Int8 :=
  astypeInt8 (clip (-127) 127 (rint (Binary32.div x scale)))

def quantizeRow (row : List PyFloat) : List Int8 := row.map (quantizeValue (xscale row))

namespace DynamicInt8Model

variable (m : DynamicInt8Model)

/-- The input as float32, where `logits` accepts it. -/
def checkInput (x : NdArray PyFloat) : Except PyError (NdArray PyFloat) := do
  let x := x.map Binary32.ofFloat
  raiseIf (¬(x.ndim = 2 ∧ x.shape[1]? = some m.width ∧ x.data.all PyFloat.isfinite = true))
    (raise .validationError "invalid input")
  return x

/-- `accum` -/
def accum (x : NdArray PyFloat) : List (List Int32) :=
  x.rows.map fun row => m.qW.rows.map (dotInt32 (quantizeRow row))

/-- `accum.astype(np.float32) * (xscale[:, None] * self.scales[None, :]) + self.b` -/
def rescale (x : NdArray PyFloat) (accum : List (List Int32)) : List (List PyFloat) :=
  List.zipWith (fun row entries =>
    List.zipWith (fun entry (scale, bias) =>
      Binary32.add (Binary32.mul (Binary32.round entry.toInt)
        (Binary32.mul (xscale row) scale)) bias)
      entries (m.scales.data.zip m.b.data)) x.rows accum

def logits (x : NdArray PyFloat) : Except PyError (List (List PyFloat)) := do
  let x ← m.checkInput x
  return m.rescale x (m.accum x)

/-- The dot products that `accum` stands for. -/
def exactAccum (x : NdArray PyFloat) : List (List Int) :=
  x.rows.map fun row => m.qW.rows.map (dot (quantizeRow row))

/-- The dot products as the native library computes them. -/
def nativeAccum (x : NdArray PyFloat) : List (List (Except NativeError Int32)) :=
  x.rows.map fun row => m.qW.rows.map (dotI8 (quantizeRow row))

/-- Every entry of the accumulator is exact, and the native library returns it. -/
def AccumulatesExactly (x : NdArray PyFloat) : Prop :=
  (m.accum x).map (List.map Int32.toInt) = m.exactAccum x ∧
    m.nativeAccum x = (m.accum x).map (List.map Except.ok)

end DynamicInt8Model

/-! ## What the quantizer gives -/

theorem toInt_ofInt_small {n : Int} (hlo : -127 ≤ n) (hhi : n ≤ 127) :
    (Int8.ofInt n).toInt = n := Int8.toInt_ofInt_of_le (by omega) (by omega)

theorem abs_quantizeValue (scale x : PyFloat) : |(quantizeValue scale x).toInt| ≤ 127 := by
  have hrange : -127 ≤ truncate ((clip (-127) 127 (rint (Binary32.div x scale))).rat?.getD 0) ∧
      truncate ((clip (-127) 127 (rint (Binary32.div x scale))).rat?.getD 0) ≤ 127 := by
    cases hq : (clip (-127) 127 (rint (Binary32.div x scale))).rat? with
    | none => exact ⟨by decide, by decide⟩
    | some q =>
      obtain ⟨hlo, hhi⟩ := rat_clip (by decide +kernel) hq
      exact truncate_mem (by exact_mod_cast hlo) (by exact_mod_cast hhi)
  rw [quantizeValue, astypeInt8, toInt_ofInt_small hrange.1 hrange.2]
  exact abs_le.mpr hrange

theorem abs_quantizeRow (row : List PyFloat) : ∀ q ∈ quantizeRow row, |q.toInt| ≤ 127 := by
  intro q hq
  obtain ⟨x, -, rfl⟩ := List.mem_map.mp hq
  exact abs_quantizeValue _ x

/-- The row with the sign of each weight. -/
def signRow (w : List Int8) : List PyFloat :=
  w.map fun q => finite (if q.toInt < 0 then -1 else 1)

theorem ofFloat_signRow (w : List Int8) : (signRow w).map Binary32.ofFloat = signRow w := by
  have hone : ∀ q : Int8, Binary32.ofFloat (finite (if q.toInt < 0 then -1 else 1)) =
      finite (if q.toInt < 0 then -1 else 1) := by
    intro q
    split_ifs
    · decide +kernel
    · decide +kernel
  simp only [signRow, List.map_map]
  exact List.map_congr_left fun q _ => hone q

theorem maxAbs_signRow {w : List Int8} (hw : w ≠ []) : maxAbs (signRow w) = finite 1 := by
  have habs : (signRow w).map PyFloat.abs = List.replicate w.length (finite 1) := by
    rw [signRow, List.map_map, List.eq_replicate_iff]
    refine ⟨List.length_map .., fun x hx => ?_⟩
    obtain ⟨q, -, rfl⟩ := List.mem_map.mp hx
    simp only [Function.comp_apply]
    split_ifs
    · decide +kernel
    · decide +kernel
  have hfold : ∀ n, (List.replicate n (finite 1)).foldl maximum (finite 1) = finite 1 := by
    intro n
    induction n with
    | zero => rfl
    | succ n ih =>
      have hstep : maximum (finite 1) (finite 1) = finite 1 := by decide +kernel
      rw [List.replicate_succ, List.foldl_cons, hstep, ih]
  obtain ⟨n, hn⟩ : ∃ n, w.length = n + 1 :=
    ⟨w.length - 1, (Nat.succ_pred_eq_of_pos (List.length_pos_iff.mpr hw)).symm⟩
  rw [maxAbs, habs, hn, List.replicate_succ]
  exact hfold n

/-- Inputs of magnitude 1 quantize to the ends of the range. -/
theorem quantizeRow_signRow {w : List Int8} (hw : w ≠ []) :
    quantizeRow (signRow w) = w.map fun q => if q.toInt < 0 then -127 else 127 := by
  have hone : quantizeValue (maximum (Binary32.div (finite 1) (finite 127))
      (Binary32.round (1 / 1000000000000))) (finite 1) = 127 := by decide +kernel
  have hminus : quantizeValue (maximum (Binary32.div (finite 1) (finite 127))
      (Binary32.round (1 / 1000000000000))) (finite (-1)) = -127 := by decide +kernel
  rw [quantizeRow, xscale, maxAbs_signRow hw, signRow, List.map_map]
  refine List.map_congr_left fun q _ => ?_
  simp only [Function.comp_apply]
  split_ifs
  · exact hminus
  · exact hone

/-- The row of the signs meets the bound of its weights. -/
theorem dot_signRow {w : List Int8} (hw : w ≠ []) :
    dot (quantizeRow (signRow w)) w = 127 * weight w := by
  have hsigns : ∀ y : Int8, (if y.toInt < 0 then (-127 : Int8) else 127).toInt =
      if y.toInt < 0 then -127 else 127 := by
    intro y
    split_ifs
    · rfl
    · rfl
  rw [quantizeRow_signRow hw, dot_signs hsigns]

namespace DynamicInt8Model

variable {m : DynamicInt8Model} {x : NdArray PyFloat}

/-- The constructor keeps the weights. -/
theorem init_qW {qW : NdArray Int8} {scales b : NdArray PyFloat}
    (h : DynamicInt8Model.init qW scales b = .ok m) : m.qW = qW := by
  simp only [DynamicInt8Model.init, Effect.bind_eq_ok] at h
  obtain ⟨model, hmodel, h⟩ := h
  have hq : model.qW = qW := by
    unfold WeightOnlyInt8Model.init at hmodel
    dsimp only at hmodel
    split at hmodel
    · split_ifs at hmodel
      cases hmodel
      rfl
    · cases hmodel
  split_ifs at h
  cases h
  exact hq

theorem checkInput_eq_ok {x' : NdArray PyFloat} (h : m.checkInput x = .ok x') :
    ∃ r, x'.shape = [r, m.width] := by
  simp only [checkInput, Effect.bind_eq_ok, Effect.pure_eq_ok, raiseIf_eq_ok, not_not] at h
  obtain ⟨-, ⟨hdim, hcols, -⟩, rfl⟩ := h
  obtain ⟨r, c, hrc⟩ := List.length_eq_two.mp hdim
  rw [hrc] at hcols
  have hc : c = m.width := by simpa using hcols
  exact ⟨r, by rw [hrc, hc]⟩

/-- The accumulator is exact on an input if and only if its dot products fit in
int32. -/
theorem accumulatesExactly_iff (hx : ∃ r, x.shape = [r, m.width]) :
    m.AccumulatesExactly x ↔
      ∀ row ∈ x.rows, ∀ w ∈ m.qW.rows, fitsInt32 (dot (quantizeRow row) w) := by
  obtain ⟨r, hr⟩ := hx
  have hlen : ∀ row ∈ x.rows, ∀ w ∈ m.qW.rows,
      (quantizeRow row).length = w.length ∧ w.length < 2 ^ 49 := by
    intro row hrow w hw
    have hle : m.width ≤ 133144 := m.width_le
    have hrowlen := NdArray.length_of_mem_rows hr hrow
    have hwlen := NdArray.length_of_mem_rows m.shape_qW hw
    rw [quantizeRow, List.length_map, hrowlen, hwlen]
    exact ⟨rfl, by omega⟩
  have hexact : (m.accum x).map (List.map Int32.toInt) = m.exactAccum x ↔
      ∀ row ∈ x.rows, ∀ w ∈ m.qW.rows, fitsInt32 (dot (quantizeRow row) w) := by
    simp only [accum, exactAccum, List.map_map, List.map_inj_left, Function.comp_apply,
      toInt_dotInt32_eq]
  refine ⟨fun h => hexact.mp h.1, fun h => ⟨hexact.mpr h, ?_⟩⟩
  simp only [accum, nativeAccum, List.map_map, List.map_inj_left, Function.comp_apply]
  intro row hrow w hw
  obtain ⟨heq, hlt⟩ := hlen row hrow w hw
  rw [dotI8_eq heq hlt, if_pos (h row hrow w hw)]

theorem checkInput_signRow {w : List Int8} (hw : w ∈ m.qW.rows) :
    m.checkInput (NdArray.ofRow (signRow w)) = .ok (NdArray.ofRow (signRow w)) := by
  have hlen := NdArray.length_of_mem_rows m.shape_qW hw
  have hmap : (NdArray.ofRow (signRow w)).map Binary32.ofFloat = NdArray.ofRow (signRow w) := by
    have hdata := ofFloat_signRow w
    simp only [NdArray.map, NdArray.ofRow, hdata]
  have hfinite : (signRow w).all PyFloat.isfinite = true := by
    rw [List.all_eq_true]
    intro y hy
    obtain ⟨q, -, rfl⟩ := List.mem_map.mp hy
    rfl
  have hwidth : (signRow w).length = m.width := by rw [signRow, List.length_map, hlen]
  simp only [checkInput, hmap]
  rw [raiseIf_neg]
  · rfl
  · rw [not_not]
    exact ⟨rfl, by simp [hwidth], hfinite⟩

/-- For every model: the accumulator is exact on every accepted input if and only
if 127 times the weight of each row fits in int32. -/
theorem accumulator_exact_iff (m : DynamicInt8Model) :
    (∀ x x', m.checkInput x = .ok x' → m.AccumulatesExactly x') ↔
      ∀ w ∈ m.qW.rows, 127 * weight w ≤ 2147483647 := by
  constructor
  · intro h w hw
    have hne : w ≠ [] := by
      rintro rfl
      have hlen := NdArray.length_of_mem_rows m.shape_qW hw
      have hpos := m.shape_pos.2
      simp at hlen
      omega
    have hexact := h _ _ (checkInput_signRow hw)
    have hwidth : (signRow w).length = m.width := by
      rw [signRow, List.length_map, NdArray.length_of_mem_rows m.shape_qW hw]
    have hfits := (accumulatesExactly_iff ⟨1, by simp [hwidth]⟩).mp hexact (signRow w)
      (by simp) w hw
    rw [dot_signRow hne] at hfits
    exact hfits.2
  · intro h x x' hx
    refine (accumulatesExactly_iff (checkInput_eq_ok hx)).mpr fun row _ w hw => ?_
    have hbound := abs_le.mp (abs_dot_le (by norm_num) (abs_quantizeRow row) w)
    have hw := h w hw
    exact ⟨by omega, by omega⟩

/-! ## The widest model of the smallest weight -/

/-- The constructor accepts a row of any weights within the bound. -/
theorem init_ofRow {w : List Int8} (hpos : 1 ≤ w.length) (hle : w.length ≤ maxSafeInt32Dot) :
    ∃ m : DynamicInt8Model, DynamicInt8Model.init (NdArray.ofRow w) (NdArray.ofList [finite 1])
      (NdArray.ofList [finite 0]) = .ok m ∧ m.qW = NdArray.ofRow w := by
  have hscale : ∀ s ∈ ((NdArray.ofList [finite 1]).map Binary32.ofFloat).data,
      s.isfinite = true ∧ (PyNum.le (.float s) (.int 0)) = false := by decide +kernel
  have hbias : ∀ x ∈ ((NdArray.ofList [finite 0]).map Binary32.ofFloat).data,
      x.isfinite = true := by decide +kernel
  have hmodel : ∃ model, WeightOnlyInt8Model.init (NdArray.ofRow w) (NdArray.ofList [finite 1])
      (NdArray.ofList [finite 0]) = .ok model ∧ model.width = w.length := by
    refine ⟨⟨NdArray.ofRow w, _, _, 1, w.length, rfl, ⟨le_refl 1, hpos⟩, rfl, rfl, hscale,
      hbias⟩, ?_, rfl⟩
    unfold WeightOnlyInt8Model.init
    simp only [NdArray.shape_ofRow]
    rw [dif_pos ⟨⟨le_refl 1, hpos⟩, rfl, rfl⟩, dif_pos hscale, dif_pos hbias]
  obtain ⟨model, hmodel, hwidth⟩ := hmodel
  have hinit : DynamicInt8Model.init (NdArray.ofRow w) (NdArray.ofList [finite 1])
      (NdArray.ofList [finite 0]) = .ok { model with width_le := hwidth ▸ hle } := by
    rw [DynamicInt8Model.init, hmodel, Effect.ok_bind]
    exact dif_pos (hwidth ▸ hle)
  exact ⟨_, hinit, init_qW hinit⟩

theorem weight_replicate (n : Nat) : weight (List.replicate n (-128)) = 128 * n := by
  rw [weight, List.map_replicate, List.sum_replicate]
  have habs : |(-128 : Int8).toInt| = 128 := by decide
  rw [habs]
  simp [mul_comm]

/-- A row of -128s at the bound, on an input of -1s. -/
theorem accumulator_wraps : ∃ m : DynamicInt8Model,
    DynamicInt8Model.init (NdArray.ofRow (List.replicate 133144 (-128)))
      (NdArray.ofList [finite 1]) (NdArray.ofList [finite 0]) = .ok m ∧
    ∃ x, m.checkInput (NdArray.ofRow (List.replicate 133144 (finite (-1)))) = .ok x ∧
      m.exactAccum x = [[2164388864]] ∧ m.accum x = [[-2130578432]] ∧
      m.nativeAccum x = [[.error (.overflowError "int8 accumulator overflow")]] ∧
      ¬m.AccumulatesExactly x := by
  have hwraps : ∀ n : Nat, n = 133144 → ∃ m : DynamicInt8Model,
      DynamicInt8Model.init (NdArray.ofRow (List.replicate n (-128)))
        (NdArray.ofList [finite 1]) (NdArray.ofList [finite 0]) = .ok m ∧
      ∃ x, m.checkInput (NdArray.ofRow (List.replicate n (finite (-1)))) = .ok x ∧
        m.exactAccum x = [[2164388864]] ∧ m.accum x = [[-2130578432]] ∧
        m.nativeAccum x = [[.error (.overflowError "int8 accumulator overflow")]] ∧
        ¬m.AccumulatesExactly x := by
    intro n hn
    have hlen : (List.replicate n (-128 : Int8)).length = n := List.length_replicate
    obtain ⟨m, hm, hq⟩ := init_ofRow (w := List.replicate n (-128)) (by omega)
      (by rw [hlen, hn]; decide)
    have hrow : List.replicate n (-128 : Int8) ∈ m.qW.rows := by
      rw [hq, NdArray.rows_ofRow]
      exact List.mem_singleton_self _
    have hsign : signRow (List.replicate n (-128)) = List.replicate n (finite (-1)) := by
      rw [signRow, List.map_replicate]
      rfl
    have hinput := checkInput_signRow hrow
    rw [hsign] at hinput
    have hne : List.replicate n (-128 : Int8) ≠ [] := by
      intro h
      rw [h] at hlen
      simp at hlen
      omega
    have hdot : dot (quantizeRow (List.replicate n (finite (-1)))) (List.replicate n (-128)) =
        2164388864 := by
      rw [← hsign, dot_signRow hne, weight_replicate, hn]
      norm_num
    have hentry : dotInt32 (quantizeRow (List.replicate n (finite (-1))))
        (List.replicate n (-128)) = -2130578432 := by
      refine Int32.toInt_inj.mp ?_
      rw [toInt_dotInt32, hdot]
      decide
    have hnative : dotI8 (quantizeRow (List.replicate n (finite (-1))))
        (List.replicate n (-128)) = .error (.overflowError "int8 accumulator overflow") := by
      rw [dotI8_eq (by simp [quantizeRow]) (by rw [hlen, hn]; norm_num), hdot]
      exact if_neg (by decide)
    have hexact : m.exactAccum (NdArray.ofRow (List.replicate n (finite (-1)))) =
        [[2164388864]] := by
      rw [exactAccum, hq, NdArray.rows_ofRow, NdArray.rows_ofRow, List.map_singleton,
        List.map_singleton, hdot]
    have haccum : m.accum (NdArray.ofRow (List.replicate n (finite (-1)))) =
        [[-2130578432]] := by
      rw [accum, hq, NdArray.rows_ofRow, NdArray.rows_ofRow, List.map_singleton,
        List.map_singleton, hentry]
    refine ⟨m, hm, _, hinput, hexact, haccum, ?_, fun h => ?_⟩
    · rw [nativeAccum, hq, NdArray.rows_ofRow, NdArray.rows_ofRow, List.map_singleton,
        List.map_singleton, hnative]
    · have hsame := h.1
      rw [hexact, haccum] at hsame
      revert hsame
      decide
  exact hwraps 133144 rfl

end DynamicInt8Model

end EdgeFort
