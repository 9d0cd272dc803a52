/-
`linear_i8` (`int8_linear.cpp`) on the quantized inputs and weights of a dynamic model.

It multiplies and adds the same float32s in the same order as `DynamicInt8Model.logits`, so what
it returns is what the model returns; where an accumulator or a result leaves its range it
throws instead.
-/
import EdgeFort.Quantization.Quantizer

namespace EdgeFort

open PyFloat Effect

/-- `std::numeric_limits<std::size_t>::max()` -/
def sizeMax : Nat := 18446744073709551615

/-- `value <= 0` -/
def notPositive (x : PyFloat) : Bool := (PyNum.float x).le (.int 0)

/-- One turn of the loop of `linear_i8`. -/
def linearEntry (x weights : List Int8) (inputs : Nat) (inputScale : PyFloat) (output : Nat)
    (weightScale bias : PyFloat) : Except NativeError PyFloat := do
  let acc ← dotI8 x ((weights.drop (output * inputs)).take inputs)
  let scale := Binary32.mul inputScale weightScale
  if scale.isfinite = false ∨ notPositive scale = true ∨ bias.isfinite = false then
    .error (.invalidArgument "invalid model parameters")
  else
    let out := Binary32.add (Binary32.mul (Binary32.round acc.toInt) scale) bias
    if out.isfinite = false then .error (.overflowError "non-finite output") else return out

def linearI8 (x weights : List Int8) (weightScales bias : List PyFloat) (outputs inputs : Nat)
    (inputScale : PyFloat) : Except NativeError (List PyFloat) :=
  if inputScale.isfinite = false ∨ notPositive inputScale = true then
    .error (.invalidArgument "invalid input scale")
  else if outputs ≠ 0 ∧ sizeMax / outputs < inputs then
    .error (.invalidArgument "linear_i8 dimensions overflow size_t")
  else if x.length ≠ inputs ∨ weights.length ≠ outputs * inputs ∨
      weightScales.length ≠ outputs ∨ bias.length ≠ outputs then
    .error (.invalidArgument "linear_i8 shape mismatch")
  else (weightScales.zip bias).zipIdx.mapM fun ((weightScale, bias), output) =>
    linearEntry x weights inputs inputScale output weightScale bias

namespace DynamicInt8Model

variable (m : DynamicInt8Model)

/-- A logit, from its accumulator. -/
def logit (xscale : PyFloat) (entry : Int32) (p : PyFloat × PyFloat) : PyFloat :=
  Binary32.add (Binary32.mul (Binary32.round entry.toInt) (Binary32.mul xscale p.1)) p.2

/-- The logits of one row. -/
def logitsRow (row : List PyFloat) : List PyFloat :=
  List.zipWith (logit (xscale row)) (m.qW.rows.map (dotInt32 (quantizeRow row)))
    (m.scales.data.zip m.b.data)

theorem rescale_accum (x : NdArray PyFloat) :
    m.rescale x (m.accum x) = x.rows.map m.logitsRow := by
  rw [rescale, accum, List.zipWith_map_right, List.zipWith_self]
  rfl

/-- `linear_i8` on every row of an input. -/
def nativeLogits (x : NdArray PyFloat) : Except NativeError (List (List PyFloat)) :=
  x.rows.mapM fun row =>
    linearI8 (quantizeRow row) m.qW.data m.scales.data m.b.data m.classes m.width (xscale row)

/-- On this row nothing leaves the range it is computed in. -/
structure RowInRange (row : List PyFloat) : Prop where
  accumulators : ∀ w ∈ m.qW.rows, fitsInt32 (dot (quantizeRow row) w)
  scales : ∀ s ∈ m.scales.data, (Binary32.mul (xscale row) s).isfinite = true ∧
    notPositive (Binary32.mul (xscale row) s) = false
  logits : ∀ v ∈ m.logitsRow row, v.isfinite = true

variable {m} {row : List PyFloat}

theorem linearEntry_eq_ok {x w : List Int8} {inputScale scale bias out : PyFloat} {output : Nat}
    {weights : List Int8} {inputs : Nat} (hw : (weights.drop (output * inputs)).take inputs = w)
    (hlen : x.length = w.length) (hlt : w.length < 2 ^ 49) (hbias : bias.isfinite = true) :
    linearEntry x weights inputs inputScale output scale bias = .ok out ↔
      (fitsInt32 (dot x w) ∧ ((Binary32.mul inputScale scale).isfinite = true ∧
          notPositive (Binary32.mul inputScale scale) = false) ∧
        (logit inputScale (dotInt32 x w) (scale, bias)).isfinite = true) ∧
      out = logit inputScale (dotInt32 x w) (scale, bias) := by
  rw [linearEntry, hw, dotI8_eq hlen hlt]
  by_cases hfits : fitsInt32 (dot x w)
  · rw [if_pos hfits, ok_bind]
    dsimp only
    by_cases hscale : (Binary32.mul inputScale scale).isfinite = true ∧
        notPositive (Binary32.mul inputScale scale) = false
    · rw [if_neg (by simp [hscale.1, hscale.2, hbias])]
      show (if (logit inputScale (dotInt32 x w) (scale, bias)).isfinite = false then _ else _) = _ ↔ _
      by_cases hfinite : (logit inputScale (dotInt32 x w) (scale, bias)).isfinite = true
      · rw [if_neg (by simp [hfinite])]
        exact ⟨fun h => ⟨⟨hfits, hscale, hfinite⟩, (Except.ok.inj h).symm⟩, fun h => by rw [h.2]; rfl⟩
      · rw [if_pos (Bool.eq_false_of_not_eq_true hfinite)]
        exact iff_of_false error_ne_ok fun h => hfinite h.1.2.2
    · rw [if_pos]
      · exact iff_of_false error_ne_ok fun h => hscale h.1.2.1
      · rcases not_and_or.mp hscale with h | h
        · exact Or.inl (Bool.eq_false_of_not_eq_true h)
        · exact Or.inr (Or.inl (Bool.eq_true_of_not_eq_false h))
  · rw [if_neg hfits, error_bind]
    exact iff_of_false error_ne_ok fun h => hfits h.1.1

/-- The rows of the weights, as the loop takes them. -/
theorem rows_qW : m.qW.rows =
    (List.range m.classes).map fun i => (m.qW.data.drop (i * m.width)).take m.width := by
  rw [NdArray.rows, m.shape_qW]

theorem length_scales : m.scales.data.length = m.classes := by
  rw [m.scales.size_eq, m.shape_scales, List.prod_singleton]

theorem length_b : m.b.data.length = m.classes := by
  rw [m.b.size_eq, m.shape_b, List.prod_singleton]

theorem length_zip : (m.scales.data.zip m.b.data).length = m.classes := by
  rw [List.length_zip, length_scales, length_b, min_self]

/-- The weights of a class are a row. -/
theorem mem_rows_qW {i : Nat} (hi : i < m.classes) :
    (m.qW.data.drop (i * m.width)).take m.width ∈ m.qW.rows := by
  rw [rows_qW]
  exact List.mem_map_of_mem (List.mem_range.mpr hi)

/-- The loop takes the scale and the bias of a class. -/
theorem of_mem_zipIdx {p : (PyFloat × PyFloat) × Nat}
    (hp : p ∈ (m.scales.data.zip m.b.data).zipIdx) :
    p.2 < m.classes ∧ p.1.1 ∈ m.scales.data ∧ p.1.2 ∈ m.b.data := by
  obtain ⟨⟨s, b⟩, i⟩ := p
  have hget := List.mk_mem_zipIdx_iff_getElem?.mp hp
  have hmem := List.mem_of_getElem? hget
  obtain ⟨hi, -⟩ := List.getElem?_eq_some_iff.mp hget
  exact ⟨length_zip ▸ hi, (List.of_mem_zip hmem).1, (List.of_mem_zip hmem).2⟩

/-- The loop takes every class. -/
theorem exists_mem_zipIdx {i : Nat} (hi : i < m.classes) : ∃ s b, m.scales.data[i]? = some s ∧
    ((s, b), i) ∈ (m.scales.data.zip m.b.data).zipIdx := by
  have hs := List.getElem?_eq_getElem (length_scales ▸ hi)
  have hb := List.getElem?_eq_getElem (length_b ▸ hi)
  exact ⟨_, _, hs, List.mk_mem_zipIdx_iff_getElem?.mpr (List.getElem?_zip_eq_some.mpr ⟨hs, hb⟩)⟩

theorem map_zipIdx_logit : (m.scales.data.zip m.b.data).zipIdx.map (fun p => logit (xscale row)
    (dotInt32 (quantizeRow row) ((m.qW.data.drop (p.2 * m.width)).take m.width)) p.1) =
      m.logitsRow row := by
  refine List.ext_getElem ?_ fun i hi hi' => ?_
  · rw [logitsRow, rows_qW]
    simp [length_scales, length_b]
  · simp [logitsRow, rows_qW]

/-- The native function returns the row's logits if nothing leaves its range, and throws
otherwise. -/
theorem linearI8_eq_ok (hwidth : row.length = m.width) (hsize : m.classes * m.width ≤ sizeMax)
    (hscale : (xscale row).isfinite = true ∧ notPositive (xscale row) = false)
    {out : List PyFloat} :
    linearI8 (quantizeRow row) m.qW.data m.scales.data m.b.data m.classes m.width (xscale row) =
      .ok out ↔ m.RowInRange row ∧ out = m.logitsRow row := by
  have hclasses : 0 < m.classes := m.shape_pos.1
  have hle : m.width ≤ 133144 := m.width_le
  have hfits : ¬(m.classes ≠ 0 ∧ sizeMax / m.classes < m.width) := by
    rintro ⟨-, hlt⟩
    have hgt := (Nat.div_lt_iff_lt_mul hclasses).mp hlt
    rw [Nat.mul_comm] at hgt
    omega
  have hshape : ¬((quantizeRow row).length ≠ m.width ∨ m.qW.data.length ≠ m.classes * m.width ∨
      m.scales.data.length ≠ m.classes ∨ m.b.data.length ≠ m.classes) := by
    rw [quantizeRow, List.length_map, hwidth, NdArray.length_data m.shape_qW, length_scales,
      length_b]
    simp
  rw [linearI8, if_neg (by simp [hscale.1, hscale.2]), if_neg hfits, if_neg hshape,
    mapM_eq_ok fun p hp b => linearEntry_eq_ok rfl ?_ ?_ (m.b_finite _ (of_mem_zipIdx hp).2.2),
    map_zipIdx_logit]
  · refine and_congr_left fun _ => ⟨fun h => ⟨fun w hw => ?_, fun s hs => ?_, fun v hv => ?_⟩,
      fun h p hp => ?_⟩
    · rw [rows_qW] at hw
      obtain ⟨i, hi, rfl⟩ := List.mem_map.mp hw
      obtain ⟨s, b, -, hmem⟩ := exists_mem_zipIdx (List.mem_range.mp hi)
      exact (h _ hmem).1
    · obtain ⟨i, hi⟩ := List.mem_iff_getElem?.mp hs
      obtain ⟨hlt, -⟩ := List.getElem?_eq_some_iff.mp hi
      obtain ⟨s', b, hs', hmem⟩ := exists_mem_zipIdx (length_scales ▸ hlt)
      obtain rfl := Option.some.inj (hi.symm.trans hs')
      exact (h _ hmem).2.1
    · rw [← map_zipIdx_logit] at hv
      obtain ⟨p, hp, rfl⟩ := List.mem_map.mp hv
      exact (h p hp).2.2
    · obtain ⟨hi, hs, -⟩ := of_mem_zipIdx hp
      refine ⟨h.accumulators _ (mem_rows_qW hi), h.scales _ hs, h.logits _ ?_⟩
      rw [← map_zipIdx_logit]
      exact List.mem_map_of_mem hp
  all_goals
    have hwlen := NdArray.length_of_mem_rows m.shape_qW (mem_rows_qW (of_mem_zipIdx hp).1)
  · rw [quantizeRow, List.length_map, hwidth, hwlen]
  · rw [hwlen]
    omega

theorem notPositive_finite {s : ℚ} (h : 0 < s) : notPositive (finite s) = false := by
  have hlt : ¬s < 0 := not_lt.mpr h.le
  have heq : ¬s = 0 := h.ne'
  simp [notPositive, PyNum.le, PyNum.lt, PyNum.eq, rat?, hlt, heq]

/-- The scale of a row of finite values is one that the native function takes. -/
theorem xscale_pos (hrow : FiniteRow row) :
    (xscale row).isfinite = true ∧ notPositive (xscale row) = false := by
  obtain ⟨s, hs, hlow, -⟩ := rat_xscale hrow
  rw [hs]
  exact ⟨rfl, notPositive_finite ((two_zpow_pos _).trans_le hlow)⟩

/-- On an accepted input the native function returns the logits of the model, or throws because
something leaves its range. -/
theorem nativeLogits_eq_ok (m : DynamicInt8Model) (x x' : NdArray PyFloat)
    (hx : m.checkInput x = .ok x') (hsize : m.classes * m.width ≤ sizeMax)
    (out : List (List PyFloat)) :
    m.nativeLogits x' = .ok out ↔ m.logits x = .ok out ∧ ∀ row ∈ x'.rows, m.RowInRange row := by
  obtain ⟨r, hr⟩ := checkInput_eq_ok hx
  have hlogits : m.logits x = .ok (x'.rows.map m.logitsRow) := by
    rw [logits, hx, ok_bind, rescale_accum]
    rfl
  rw [nativeLogits, hlogits, mapM_eq_ok fun row hrow b => linearI8_eq_ok
    (NdArray.length_of_mem_rows hr hrow) hsize (xscale_pos (finiteRow_of_checkInput hx hrow))]
  constructor
  · rintro ⟨hall, rfl⟩
    exact ⟨rfl, hall⟩
  · rintro ⟨hout, hall⟩
    exact ⟨hall, (Except.ok.inj hout).symm⟩

namespace Sample

/-- A model of one row. -/
def model : DynamicInt8Model where
  qW := NdArray.ofRow [127, -64]
  scales := NdArray.ofList [finite 1]
  b := NdArray.ofList [finite 0]
  classes := 1
  width := 2
  shape_qW := rfl
  shape_pos := by decide
  shape_scales := rfl
  shape_b := rfl
  scales_pos := by decide +kernel
  b_finite := by decide +kernel
  width_le := by decide +kernel

def input : NdArray PyFloat := NdArray.ofRow (signRow [127, -64])

end Sample

theorem nativeLogits_eq_ok_sample :
    Sample.model.nativeLogits Sample.input = .ok [[finite 191]] ↔
      Sample.model.logits Sample.input = .ok [[finite 191]] ∧
        ∀ row ∈ Sample.input.rows, Sample.model.RowInRange row :=
  nativeLogits_eq_ok Sample.model Sample.input Sample.input (checkInput_signRow (by decide +kernel))
    (by decide +kernel) [[finite 191]]

end DynamicInt8Model

end EdgeFort
