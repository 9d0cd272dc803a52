/-
`quantize_weights` and `quantize_dynamic` (`quantization.py`), and what the dynamic model's integer
arithmetic stands for.

A product of two quantized values, times the two scales, differs from the product of the values by
the error of one times the size of the other, twice.  Both errors are half a step and both sizes
127 steps, so a dot product is off by at most about 127 for each column, in units of the scales.
-/
import EdgeFort.Model.Construction
import EdgeFort.Quantization.Native
import EdgeFort.Quantization.Quantizer
import Mathlib.Algebra.BigOperators.Ring.Finset
import Mathlib.Algebra.BigOperators.Ring.List
import Mathlib.Tactic.GCongr

namespace EdgeFort

/-! ## Sums that differ entry by entry -/

section Sums

variable {α β : Type} {f g : α → β → ℚ} {a : List α} {b : List β}

theorem abs_sum_zipWith_sub_le {c : β → ℚ} (hc : ∀ y ∈ b, 0 ≤ c y)
    (h : ∀ x ∈ a, ∀ y ∈ b, |f x y - g x y| ≤ c y) :
    |(List.zipWith f a b).sum - (List.zipWith g a b).sum| ≤ (b.map c).sum := by
  induction a generalizing b with
  | nil =>
    rw [List.zipWith_nil_left, List.zipWith_nil_left, List.sum_nil, sub_self, abs_zero]
    exact List.sum_nonneg (List.forall_mem_map.mpr hc)
  | cons x a ih =>
    cases b with
    | nil => simp
    | cons y b =>
      have hhead := h x List.mem_cons_self y List.mem_cons_self
      have htail := ih (fun z hz => hc z (List.mem_cons_of_mem y hz)) fun u hu z hz =>
        h u (List.mem_cons_of_mem x hu) z (List.mem_cons_of_mem y hz)
      rw [List.zipWith_cons_cons, List.zipWith_cons_cons, List.sum_cons, List.sum_cons,
        List.map_cons, List.sum_cons, add_sub_add_comm]
      exact (abs_add_le _ _).trans (add_le_add hhead htail)

theorem mul_sum_zipWith (k : ℚ) :
    k * (List.zipWith f a b).sum = (List.zipWith (fun x y => k * f x y) a b).sum := by
  have hsum := List.sum_map_mul_left (f := id) (l := List.zipWith f a b) (r := k)
  rw [List.map_zipWith, List.map_id] at hsum
  exact hsum.symm

end Sums

open PyFloat Effect

/-! ## Exact products -/

/-- The value of a finite float. -/
def value (x : PyFloat) : ℚ := x.rat?.getD 0

/-- The dot product of the values. -/
def exactDot (row v : List PyFloat) : ℚ :=
  (List.zipWith (fun x y => value x * value y) row v).sum

/-- The dot product of values and quantized weights. -/
def mixedDot (row : List PyFloat) (w : List Int8) : ℚ :=
  (List.zipWith (fun x q => value x * q.toInt) row w).sum

theorem dot_quantizeRow (row : List PyFloat) (w : List Int8) :
    (dot (quantizeRow row) w : ℚ) =
      (List.zipWith (fun x q => ((quantizeValue (xscale row) x).toInt : ℚ) * q.toInt) row w).sum := by
  rw [dot, quantizeRow, List.zipWith_map_left, Int.cast_list_sum, List.map_zipWith]
  simp only [Int.cast_mul]

/-- The scale of a row of finite values, and how far its values are from the quantized ones. -/
theorem FiniteRow.quantizes {row : List PyFloat} (hrow : FiniteRow row) : ∃ s,
    xscale row = finite s ∧ 2 ^ (-40 : Int) ≤ s ∧ ∀ x ∈ row,
      |value x| ≤ 127 * (1 + 1 / 2 ^ 23) * s ∧
        |s * (quantizeValue (xscale row) x).toInt - value x| ≤ (1 / 2 + 1 / 2 ^ 16) * s := by
  obtain ⟨s, hs, hlow, hall⟩ := rat_xscale hrow
  refine ⟨s, hs, hlow, fun x hx => ?_⟩
  obtain ⟨r, hr⟩ := Option.isSome_iff_exists.mp (hrow x hx).2
  have hle := hall x hx r hr
  rw [value, hr, Option.getD_some, hs, mul_comm s]
  exact ⟨hle, abs_quantizeValue_sub_le hr ((two_zpow_pos _).trans_le hlow) hle⟩

/-- The accumulator of a row, times its scale, and the product of its values with the weights. -/
theorem abs_accumulator_sub_le {row : List PyFloat} (hrow : FiniteRow row) : ∃ s,
    xscale row = finite s ∧ ∀ w : List Int8,
      |s * dot (quantizeRow row) w - mixedDot row w| ≤ (1 / 2 + 1 / 2 ^ 16) * s * weight w := by
  obtain ⟨s, hs, hlow, hall⟩ := hrow.quantizes
  have hpos : 0 < s := (two_zpow_pos _).trans_le hlow
  refine ⟨s, hs, fun w => ?_⟩
  rw [dot_quantizeRow, mul_sum_zipWith]
  have hweight : ((w.map fun q => (1 / 2 + 1 / 2 ^ 16) * s * |(q.toInt : ℚ)|)).sum =
      (1 / 2 + 1 / 2 ^ 16) * s * weight w := by
    rw [List.sum_map_mul_left, weight, Int.cast_list_sum, List.map_map]
    simp only [Function.comp_def, Int.cast_abs]
  rw [← hweight]
  refine abs_sum_zipWith_sub_le (fun q _ => by positivity) fun x hx q _ => ?_
  rw [← mul_assoc, ← sub_mul, abs_mul]
  exact mul_le_mul_of_nonneg_right (hall x hx).2 (abs_nonneg _)

/-- The product of two quantized rows, times both scales, and the product of their values. -/
theorem abs_product_sub_le {row v : List PyFloat} (hrow : FiniteRow row) (hv : FiniteRow v) :
    ∃ s t, xscale row = finite s ∧ 2 ^ (-40 : Int) ≤ s ∧ xscale v = finite t ∧
      2 ^ (-40 : Int) ≤ t ∧ |s * t * dot (quantizeRow row) (quantizeRow v) - exactDot row v| ≤
        12701 / 100 * v.length * (s * t) := by
  obtain ⟨s, hs, hslow, hrowall⟩ := hrow.quantizes
  obtain ⟨t, ht, htlow, hvall⟩ := hv.quantizes
  have hspos : 0 < s := (two_zpow_pos _).trans_le hslow
  have htpos : 0 < t := (two_zpow_pos _).trans_le htlow
  refine ⟨s, t, hs, hslow, ht, htlow, ?_⟩
  have hconst : (v.map fun _ => 12701 / 100 * (s * t)).sum = 12701 / 100 * v.length * (s * t) := by
    rw [List.map_const', List.sum_replicate, nsmul_eq_mul]
    ring
  rw [dot_quantizeRow, mul_sum_zipWith, quantizeRow, List.zipWith_map_right, ← hconst]
  refine abs_sum_zipWith_sub_le (fun y _ => by positivity) fun x hx y hy => ?_
  obtain ⟨hxle, hxclose⟩ := hrowall x hx
  obtain ⟨-, hyclose⟩ := hvall y hy
  have hq : |((quantizeValue (xscale v) y).toInt : ℚ)| ≤ 127 := by
    exact_mod_cast abs_quantizeValue (xscale v) y
  generalize ((quantizeValue (xscale row) x).toInt : ℚ) = p at *
  generalize ((quantizeValue (xscale v) y).toInt : ℚ) = q at *
  calc |s * t * (p * q) - value x * value y|
      = |(s * p - value x) * (t * q) + value x * (t * q - value y)| := by ring_nf
    _ ≤ |s * p - value x| * |t * q| + |value x| * |t * q - value y| := by
      rw [← abs_mul, ← abs_mul]
      exact abs_add_le _ _
    _ ≤ (1 / 2 + 1 / 2 ^ 16) * s * (t * 127) +
        127 * (1 + 1 / 2 ^ 23) * s * ((1 / 2 + 1 / 2 ^ 16) * t) := by
      rw [abs_mul t, abs_of_pos htpos]
      gcongr
    _ = (1 / 2 + 1 / 2 ^ 16) * 127 * (2 + 1 / 2 ^ 23) * (s * t) := by ring
    _ ≤ 12701 / 100 * (s * t) := by
      gcongr
      norm_num

/-- Where it fits in int32, the accumulator of any dynamic model times the scale of the input is
close to the product of the input with the weights. -/
theorem DynamicInt8Model.accumulator_close (m : DynamicInt8Model) (x x' : NdArray PyFloat)
    (hx : m.checkInput x = .ok x') : ∀ row ∈ x'.rows, ∃ s, xscale row = finite s ∧
      ∀ w ∈ m.qW.rows, fitsInt32 (dot (quantizeRow row) w) →
        |s * (dotInt32 (quantizeRow row) w).toInt - mixedDot row w| ≤
          (1 / 2 + 1 / 2 ^ 16) * s * weight w := by
  intro row hrow
  obtain ⟨s, hs, hclose⟩ := abs_accumulator_sub_le (finiteRow_of_checkInput hx hrow)
  refine ⟨s, hs, fun w _ hfits => ?_⟩
  rw [toInt_dotInt32_eq.mpr hfits]
  exact hclose w

theorem DynamicInt8Model.accumulator_close_sample : ∃ row ∈ Sample.input.rows, ∃ s,
    xscale row = finite s ∧ ∀ w ∈ Sample.model.qW.rows, fitsInt32 (dot (quantizeRow row) w) →
      |s * (dotInt32 (quantizeRow row) w).toInt - mixedDot row w| ≤
        (1 / 2 + 1 / 2 ^ 16) * s * weight w :=
  have hrow : signRow [127, -64] ∈ Sample.input.rows := List.mem_singleton.mpr rfl
  ⟨_, hrow, accumulator_close Sample.model Sample.input Sample.input
    (checkInput_signRow (by decide +kernel)) _ hrow⟩

/-! ## The rounding of a logit -/

/-- The errors of the conversions and the products of a logit. -/
theorem abs_mul_sub_mul_le {a u n A P : ℚ} (hn : 1 ≤ n) (hu : 0 < u) (ha : |a| ≤ 16129 * n)
    (hA : |A - a| ≤ n / 1030) (hP : |P - u| ≤ u / 2 ^ 23) : |A * P - a * u| ≤ n * u / 340 := by
  have hP' : |P| ≤ u * (1 + 1 / 2 ^ 23) := by
    have habs := abs_sub_abs_le_abs_sub P u
    rw [abs_of_pos hu] at habs
    linarith
  calc |A * P - a * u| = |(A - a) * P + a * (P - u)| := by ring_nf
    _ ≤ |A - a| * |P| + |a| * |P - u| := by
      rw [← abs_mul, ← abs_mul]
      exact abs_add_le _ _
    _ ≤ n / 1030 * (u * (1 + 1 / 2 ^ 23)) + 16129 * n * (u / 2 ^ 23) := by
      gcongr
    _ = n * u * (1 / 1030 * (1 + 1 / 2 ^ 23) + 16129 / 2 ^ 23) := by ring
    _ ≤ n * u * (1 / 340) := by
      gcongr
      norm_num
    _ = n * u / 340 := by ring

/-- A number of at least the product of two scales is large beside the least subnormals. -/
theorem least_le_of_scales {s t : ℚ} (hs : 2 ^ (-40 : Int) ≤ s) (ht : 2 ^ (-40 : Int) ≤ t) :
    (1 : ℚ) / 2 ^ 150 ≤ s * t / 2 ^ 60 := by
  have hu : (2 : ℚ) ^ (-80 : Int) ≤ s * t := by
    calc (2 : ℚ) ^ (-80 : Int) = 2 ^ (-40 : Int) * 2 ^ (-40 : Int) := by norm_num
      _ ≤ s * t := by gcongr
  rw [le_div_iff₀ (by norm_num)]
  exact le_trans (by norm_num) hu

/-- The rounded accumulator times the rounded product of the scales. -/
theorem abs_rounded_product_le {a s t n : ℚ} (hs : 2 ^ (-40 : Int) ≤ s) (ht : 2 ^ (-40 : Int) ≤ t)
    (hn : 1 ≤ n) (ha : |a| ≤ 16129 * n) :
    |Binary32.nearest a * Binary32.nearest (s * t) - a * (s * t)| ≤ n * (s * t) / 340 := by
  have hsmall := least_le_of_scales hs ht
  have hpos : 0 < s * t := mul_pos ((two_zpow_pos _).trans_le hs) ((two_zpow_pos _).trans_le ht)
  have hA : |Binary32.nearest a - a| ≤ n / 1030 := by
    have h := Binary32.abs_nearest_sub_le_add a
    norm_num at h ⊢
    linarith
  have hP : |Binary32.nearest (s * t) - s * t| ≤ s * t / 2 ^ 23 := by
    have h := Binary32.abs_nearest_sub_le_add (s * t)
    rw [abs_of_pos hpos] at h
    norm_num at h hsmall ⊢
    linarith
  exact abs_mul_sub_mul_le hn hpos ha hA hP

/-- An accumulator times the product of the scales. -/
theorem abs_scaled_le {a u n : ℚ} (hu : 0 < u) (ha : |a| ≤ 16129 * n) :
    |a * u| ≤ 16129 * (n * u) := by
  rw [abs_mul, abs_of_pos hu, ← mul_assoc]
  exact mul_le_mul_of_nonneg_right ha hu.le

/-- A finite logit before its bias is added. -/
theorem product_close {entry : Int32} {s t n C : ℚ} (hs : 2 ^ (-40 : Int) ≤ s)
    (ht : 2 ^ (-40 : Int) ≤ t) (hn : 1 ≤ n) (ha : |(entry.toInt : ℚ)| ≤ 16129 * n)
    (hC : (Binary32.mul (Binary32.round entry.toInt)
      (Binary32.mul (finite s) (finite t))).rat? = some C) :
    |C - entry.toInt * (s * t)| ≤ n * (s * t) / 255 := by
  have hsmall := least_le_of_scales hs ht
  have hpos : 0 < s * t := mul_pos ((two_zpow_pos _).trans_le hs) ((two_zpow_pos _).trans_le ht)
  have hunit : s * t ≤ n * (s * t) := le_mul_of_one_le_left hpos.le hn
  have hau := abs_scaled_le hpos ha
  have hproduct := abs_rounded_product_le hs ht hn ha
  obtain ⟨A, P, hA, hP, rfl⟩ := Binary32.nearest_of_rat_mul hC
  obtain ⟨rfl, -⟩ := Binary32.rat_round_eq_some.mp hA
  obtain ⟨_, _, hs', ht', rfl⟩ := Binary32.nearest_of_rat_mul hP
  obtain rfl := Option.some.inj hs'
  obtain rfl := Option.some.inj ht'
  generalize Binary32.nearest entry.toInt * Binary32.nearest (s * t) = D at *
  generalize (entry.toInt : ℚ) * (s * t) = p at *
  have h := Binary32.abs_nearest_sub_le_add D
  have hsum := abs_sub_le (Binary32.nearest D) D p
  have habs := abs_sub_abs_le_abs_sub D p
  norm_num at h hsmall hproduct hsum habs ⊢
  linarith

/-- A finite logit, from its accumulator. -/
theorem logit_close {entry : Int32} {s t c n out : ℚ} {b : PyFloat} (hs : 2 ^ (-40 : Int) ≤ s)
    (ht : 2 ^ (-40 : Int) ≤ t) (hb : b.rat? = some c) (hn : 1 ≤ n)
    (ha : |(entry.toInt : ℚ)| ≤ 16129 * n)
    (hout : (DynamicInt8Model.logit (finite s) entry (finite t, b)).rat? = some out) :
    |out - (entry.toInt * (s * t) + c)| ≤
      n * (s * t) / 250 + |entry.toInt * (s * t) + c| / 2 ^ 24 := by
  have hsmall := least_le_of_scales hs ht
  have hpos : 0 < s * t := mul_pos ((two_zpow_pos _).trans_le hs) ((two_zpow_pos _).trans_le ht)
  have hunit : s * t ≤ n * (s * t) := le_mul_of_one_le_left hpos.le hn
  obtain ⟨C, _, hC, hc, rfl⟩ := Binary32.nearest_of_rat_add hout
  obtain rfl := Option.some.inj (hc.symm.trans hb)
  have hCclose := product_close hs ht hn ha hC
  generalize (entry.toInt : ℚ) * (s * t) = p at hCclose ⊢
  generalize s * t = u at *
  rename_i c
  have hCc : |C + c| ≤ |p + c| + n * u / 255 := by
    have h := abs_add_le (p + c) (C - p)
    have hterms : p + c + (C - p) = C + c := by ring
    rw [hterms] at h
    linarith
  have h := Binary32.abs_nearest_sub_le_add (C + c)
  have hsum := abs_sub_le (Binary32.nearest (C + c)) (C + c) (p + c)
  rw [add_sub_add_right_eq_sub C p c] at hsum
  norm_num at h hsmall hsum hCc ⊢
  linarith

/-- Far enough from the largest number, a logit is finite. -/
theorem exists_logit {entry : Int32} {s t c n : ℚ} {b : PyFloat} (hs : 2 ^ (-40 : Int) ≤ s)
    (ht : 2 ^ (-40 : Int) ≤ t) (hb : b.rat? = some c) (hn : 1 ≤ n)
    (ha : |(entry.toInt : ℚ)| ≤ 16129 * n) (hle : 16384 * n * (s * t) + |c| ≤ 2 ^ (127 : Int)) :
    ∃ out, (DynamicInt8Model.logit (finite s) entry (finite t, b)).rat? = some out := by
  have hc := abs_nonneg c
  have hpos : 0 < s * t := mul_pos ((two_zpow_pos _).trans_le hs) ((two_zpow_pos _).trans_le ht)
  have hunit : s * t ≤ n * (s * t) := le_mul_of_one_le_left hpos.le hn
  have hau := abs_scaled_le hpos ha
  have hproduct := abs_rounded_product_le hs ht hn ha
  have hrange : |(entry.toInt : ℚ)| ≤ 2 ^ (127 : Int) := by
    have hlow : (-2147483648 : ℚ) ≤ entry.toInt := by exact_mod_cast entry.le_toInt
    have hhigh : (entry.toInt : ℚ) < 2147483648 := by exact_mod_cast entry.toInt_lt
    rw [abs_le]
    norm_num
    constructor <;> linarith
  have hP : (Binary32.mul (finite s) (finite t)).rat? = some (Binary32.nearest (s * t)) := by
    refine Binary32.rat_mul rfl rfl ?_
    rw [abs_of_pos hpos]
    linarith
  have hAP : |Binary32.nearest entry.toInt * Binary32.nearest (s * t)| ≤ 2 ^ (127 : Int) := by
    have h := abs_sub_abs_le_abs_sub (Binary32.nearest entry.toInt * Binary32.nearest (s * t))
      (entry.toInt * (s * t))
    linarith
  have hC := Binary32.rat_mul (Binary32.rat_round hrange) hP hAP
  have hCclose := product_close hs ht hn ha hC
  refine ⟨_, Binary32.rat_add hC hb ?_⟩
  generalize Binary32.nearest (Binary32.nearest entry.toInt * Binary32.nearest (s * t)) = C at *
  generalize (entry.toInt : ℚ) * (s * t) = p at *
  have hsum := abs_add_le C c
  have habs := abs_sub_abs_le_abs_sub C p
  linarith

/-! ## The quantizers -/

/-- `np.maximum(np.max(np.abs(W), axis=1) / 127.0, 1e-12).astype(np.float32)` -/
def LinearModel.scales (m : LinearModel) : NdArray PyFloat := NdArray.ofList (m.W.rows.map xscale)

theorem length_quantizeRow (row : List PyFloat) : (quantizeRow row).length = row.length :=
  List.length_map ..

/-- `np.clip(np.rint(W / scales[:, None]), -127, 127).astype(np.int8)` -/
def LinearModel.qweights (m : LinearModel) : NdArray Int8 :=
  m.W.mapRows quantizeRow length_quantizeRow m.shape_W

def quantizeWeights (m : LinearModel) : Except PyError WeightOnlyInt8Model :=
  WeightOnlyInt8Model.init m.qweights m.scales m.b

def quantizeDynamic (m : LinearModel) : Except PyError DynamicInt8Model :=
  DynamicInt8Model.init m.qweights m.scales m.b

/-- The constructor accepts a positive scale and a finite bias for each class. -/
theorem WeightOnlyInt8Model.exists_init {q : NdArray Int8} {scales b : NdArray PyFloat}
    {classes width : Nat} (hW : q.shape = [classes, width]) (hpos : 1 ≤ classes ∧ 1 ≤ width)
    (hs : scales.shape = [classes]) (hb : b.shape = [classes])
    (hscales : ∀ s ∈ (scales.map Binary32.ofFloat).data,
      s.isfinite = true ∧ (PyNum.le (.float s) (.int 0)) = false)
    (hbias : ∀ x ∈ (b.map Binary32.ofFloat).data, x.isfinite = true) :
    ∃ m, WeightOnlyInt8Model.init q scales b = .ok m ∧ m.qW = q ∧
      m.scales = scales.map Binary32.ofFloat ∧ m.b = b.map Binary32.ofFloat ∧ m.width = width := by
  refine ⟨⟨q, scales.map Binary32.ofFloat, b.map Binary32.ofFloat, classes, width, hW, hpos, hs,
    hb, hscales, hbias⟩, ?_, rfl, rfl, rfl, rfl⟩
  unfold WeightOnlyInt8Model.init
  dsimp only
  split
  · rename_i c w hW'
    obtain ⟨rfl, hw⟩ := List.cons.inj (hW'.symm.trans hW)
    obtain ⟨rfl, -⟩ := List.cons.inj hw
    rw [dif_pos ⟨hpos, hs, hb⟩, dif_pos hscales, dif_pos hbias]
  · rename_i hno
    exact absurd hW (hno _ _)

namespace LinearModel

/-- The values of the arrays are float32s, as their type has them. -/
structure Float32 (m : LinearModel) : Prop where
  W : ∀ x ∈ m.W.data, Binary32.IsFloat32 x
  b : ∀ x ∈ m.b.data, Binary32.IsFloat32 x

variable {m : LinearModel}

theorem Float32.finiteRow (hm : m.Float32) {row : List PyFloat} (hrow : row ∈ m.W.rows) :
    FiniteRow row := fun x hx =>
  ⟨hm.W x (NdArray.mem_data_of_mem_rows hrow hx),
    m.finite.1 x (NdArray.mem_data_of_mem_rows hrow hx)⟩

theorem isFloat32_xscale (row : List PyFloat) : Binary32.IsFloat32 (xscale row) :=
  Binary32.isFloat32_maximum (Binary32.isFloat32_div _ _) (Binary32.isFloat32_round _)

theorem map_ofFloat {a : NdArray PyFloat} (h : ∀ x ∈ a.data, Binary32.IsFloat32 x) :
    a.map Binary32.ofFloat = a := by
  obtain ⟨shape, data, hsize⟩ := a
  have hdata : data.map Binary32.ofFloat = data :=
    (List.map_congr_left fun x hx => (h x hx).ofFloat_eq).trans (List.map_id data)
  simp only [NdArray.map, hdata]

/-- The constructor takes what the quantizers give it as it is. -/
theorem Float32.quantizeWeights_eq (hm : m.Float32) : ∃ q, quantizeWeights m = .ok q ∧
    q.qW = m.qweights ∧ q.scales = m.scales ∧ q.b = m.b ∧ q.width = m.width := by
  have hfloat : ∀ s ∈ m.scales.data, Binary32.IsFloat32 s := by
    intro s hs
    obtain ⟨row, -, rfl⟩ := List.mem_map.mp hs
    exact isFloat32_xscale row
  have hpos : ∀ s ∈ m.scales.data, s.isfinite = true ∧ (PyNum.le (.float s) (.int 0)) = false := by
    intro s hs
    obtain ⟨row, hrow, rfl⟩ := List.mem_map.mp hs
    exact DynamicInt8Model.xscale_pos (hm.finiteRow hrow)
  have hshape : m.scales.shape = [m.classes] :=
    congrArg (fun n => [n]) ((List.length_map _).trans (NdArray.length_rows m.shape_W))
  have hinit := WeightOnlyInt8Model.exists_init (q := m.qweights) rfl m.shape_pos hshape m.shape_b
  rw [map_ofFloat hfloat, map_ofFloat hm.b] at hinit
  exact hinit hpos m.finite.2

/-- The dynamic quantizer refuses only rows that are too long. -/
theorem Float32.quantizeDynamic_eq (hm : m.Float32) :
    if m.width ≤ maxSafeInt32Dot then ∃ d, quantizeDynamic m = .ok d ∧ d.qW = m.qweights ∧
      d.scales = m.scales ∧ d.b = m.b ∧ d.width = m.width
    else quantizeDynamic m = .error (raise .validationError (py "dynamic int8 input dimension " ++
      py "exceeds safe int32 " ++ py "accumulation bound 133144")) := by
  obtain ⟨q, hq, hW, hs, hb, hwidth⟩ := hm.quantizeWeights_eq
  have hdynamic : quantizeDynamic m = (if h : q.width ≤ maxSafeInt32Dot then
      return { q with width_le := h }
    else .error (raise .validationError (py "dynamic int8 input dimension " ++
      py "exceeds safe int32 " ++ py "accumulation bound 133144"))) := by
    show (quantizeWeights m >>= _) = _
    rw [hq]
    rfl
  rw [hdynamic]
  split_ifs with hle hle' hle'
  · exact ⟨_, rfl, hW, hs, hb, hwidth⟩
  · exact absurd (hwidth ▸ hle) hle'
  · exact absurd (hwidth ▸ hle') hle
  · rfl

/-- A logit of the quantized model. -/
def quantizedLogit (row v : List PyFloat) (b : PyFloat) : PyFloat :=
  DynamicInt8Model.logit (xscale row) (dotInt32 (quantizeRow row) (quantizeRow v)) (xscale v, b)

variable (m) in
/-- What a dynamic model makes of the inputs it accepts, where it stands for `m`: its accumulator
is exact, and every logit is that of `m` but for the error of quantization and of the last
rounding, unless it leaves the range of float32, which it does not far enough from the largest
number. -/
structure QuantizedBy (d : DynamicInt8Model) (x x' : NdArray PyFloat) : Prop where
  exact : d.AccumulatesExactly x'
  logits : d.logits x =
    .ok (x'.rows.map fun row => List.zipWith (quantizedLogit row) m.W.rows m.b.data)
  close : ∀ row ∈ x'.rows, ∀ v ∈ m.W.rows, ∀ b ∈ m.b.data, ∃ s t c, xscale row = .finite s ∧
    xscale v = .finite t ∧ b.rat? = some c ∧
      (∀ out, (quantizedLogit row v b).rat? = some out → |out - (exactDot row v + c)| ≤
        128 * m.width * (s * t) + |exactDot row v + c| / 2 ^ 24) ∧
      (16384 * m.width * (s * t) + |c| ≤ 2 ^ (127 : Int) →
        ∃ out, (quantizedLogit row v b).rat? = some out)

theorem weight_le {w : List Int8} (hw : ∀ q ∈ w, |q.toInt| ≤ 127) : weight w ≤ 127 * w.length := by
  have hsum := List.sum_le_card_nsmul (w.map fun y => |y.toInt|) 127 (List.forall_mem_map.mpr hw)
  rw [List.length_map, nsmul_eq_mul, mul_comm] at hsum
  exact hsum

/-- Quantized weights are within 127 of zero, so a dot product is within the bound on the width. -/
theorem abs_dot_quantized_le (row v : List PyFloat) :
    |dot (quantizeRow row) (quantizeRow v)| ≤ 16129 * v.length := by
  have hdot := abs_dot_le (by norm_num) (abs_quantizeRow row) (quantizeRow v)
  have hweight := weight_le (abs_quantizeRow v)
  rw [length_quantizeRow] at hweight
  omega

theorem zipWith_zip_map {α β γ δ ε : Type} (f : β → γ × δ → ε) (g : α → β) (h : α → γ) (l : List α)
    (l' : List δ) : List.zipWith f (l.map g) ((l.map h).zip l') =
      List.zipWith (fun a d => f (g a) (h a, d)) l l' := by
  induction l generalizing l' with
  | nil => rfl
  | cons a l ih =>
    cases l' with
    | nil => rfl
    | cons d l' =>
      rw [List.map_cons, List.map_cons, List.zip_cons_cons, List.zipWith_cons_cons, ih]
      rfl

theorem close_of_fits {row v : List PyFloat} {b : PyFloat} (hrow : FiniteRow row)
    (hv : FiniteRow v) (hpos : 1 ≤ v.length) (hb : b.isfinite = true)
    (hfits : fitsInt32 (dot (quantizeRow row) (quantizeRow v))) : ∃ s t c, xscale row = .finite s ∧
      xscale v = .finite t ∧ b.rat? = some c ∧
        (∀ out, (quantizedLogit row v b).rat? = some out → |out - (exactDot row v + c)| ≤
          128 * v.length * (s * t) + |exactDot row v + c| / 2 ^ 24) ∧
        (16384 * v.length * (s * t) + |c| ≤ 2 ^ (127 : Int) →
          ∃ out, (quantizedLogit row v b).rat? = some out) := by
  obtain ⟨s, t, hs, hslow, ht, htlow, hclose⟩ := abs_product_sub_le hrow hv
  obtain ⟨c, hc⟩ := Option.isSome_iff_exists.mp hb
  have hentry := toInt_dotInt32_eq.mpr hfits
  have hlength : (1 : ℚ) ≤ v.length := by exact_mod_cast hpos
  have hbound : |((dotInt32 (quantizeRow row) (quantizeRow v)).toInt : ℚ)| ≤ 16129 * v.length := by
    rw [hentry]
    exact_mod_cast abs_dot_quantized_le row v
  rw [quantizedLogit, hs, ht]
  refine ⟨s, t, c, rfl, rfl, hc, fun out hout => ?_, exists_logit hslow htlow hc hlength hbound⟩
  have herror := logit_close hslow htlow hc hlength hbound hout
  rw [hentry, mul_comm _ (s * t)] at herror
  generalize s * t * dot (quantizeRow row) (quantizeRow v) = a at hclose herror
  have hunits : 0 ≤ v.length * (s * t) := by positivity
  have hsum := abs_sub_le out (a + c) (exactDot row v + c)
  have hsize := abs_add_le (a - exactDot row v) (exactDot row v + c)
  rw [add_sub_add_right_eq_sub] at hsum
  rw [← add_assoc, sub_add_cancel] at hsize
  norm_num at herror hsize ⊢
  linarith

/-- The dynamic quantizer refuses only rows that are too long, and its model stands for the one it
was made from. -/
theorem quantizeDynamic_correct (m : LinearModel) (hm : m.Float32) :
    if m.width ≤ maxSafeInt32Dot then ∃ d, quantizeDynamic m = .ok d ∧
      ∀ x x', d.checkInput x = .ok x' → m.QuantizedBy d x x'
    else quantizeDynamic m = .error (raise .validationError (py "dynamic int8 input dimension " ++
      py "exceeds safe int32 " ++ py "accumulation bound 133144")) := by
  have heq := hm.quantizeDynamic_eq
  split_ifs at heq ⊢ with hwidth
  · obtain ⟨d, hd, hW, hs, hb, hdwidth⟩ := heq
    have hrows : d.qW.rows = m.W.rows.map quantizeRow := by
      rw [hW, qweights, NdArray.rows_mapRows]
    have hfits : ∀ row, ∀ v ∈ m.W.rows, fitsInt32 (dot (quantizeRow row) (quantizeRow v)) := by
      intro row v hv
      have hle : m.width ≤ 133144 := hwidth
      have hdot := abs_le.mp (abs_dot_quantized_le row v)
      rw [NdArray.length_of_mem_rows m.shape_W hv] at hdot
      exact ⟨by omega, by omega⟩
    refine ⟨d, hd, fun x x' hx => ⟨?_, ?_, ?_⟩⟩
    · refine (DynamicInt8Model.accumulatesExactly_iff
        (DynamicInt8Model.checkInput_eq_ok hx)).mpr fun row _ w hw => ?_
      rw [hrows] at hw
      obtain ⟨v, hv, rfl⟩ := List.mem_map.mp hw
      exact hfits row v hv
    · rw [DynamicInt8Model.logits, hx, ok_bind, DynamicInt8Model.rescale_accum]
      refine congrArg Except.ok (List.map_congr_left fun row _ => ?_)
      rw [DynamicInt8Model.logitsRow, hrows, hs, hb, List.map_map]
      exact zipWith_zip_map _ _ _ _ _
    · intro row hrow v hv b hb
      have hlength := NdArray.length_of_mem_rows m.shape_W hv
      have hclose := close_of_fits (finiteRow_of_checkInput hx hrow) (hm.finiteRow hv)
        (hlength ▸ m.shape_pos.2) (m.finite.2 b hb) (hfits row v hv)
      rwa [hlength] at hclose
  · exact heq

namespace Sample

/-- A model of one class. -/
def linear : LinearModel where
  W := NdArray.ofRow [.finite 1, .finite (-1 / 2), .finite 0]
  b := NdArray.ofList [.finite (-1 / 2)]
  classes := 1
  width := 3
  shape_W := rfl
  shape_b := rfl
  shape_pos := by decide
  finite := by decide +kernel

theorem linear_float32 : linear.Float32 := by
  have hone : Binary32.ofFloat (.finite 1) = .finite 1 := by decide +kernel
  have hhalf : Binary32.ofFloat (.finite (-1 / 2)) = .finite (-1 / 2) := by decide +kernel
  have hzero : Binary32.ofFloat (.finite 0) = .finite 0 := by decide +kernel
  exact ⟨List.forall_mem_cons.mpr ⟨⟨_, hone⟩, List.forall_mem_cons.mpr ⟨⟨_, hhalf⟩,
    List.forall_mem_singleton.mpr ⟨_, hzero⟩⟩⟩, List.forall_mem_singleton.mpr ⟨_, hhalf⟩⟩

end Sample

theorem quantizeDynamic_correct_sample : ∃ d, quantizeDynamic Sample.linear = .ok d ∧
    ∀ x x', d.checkInput x = .ok x' → Sample.linear.QuantizedBy d x x' :=
  (if_pos (by decide : Sample.linear.width ≤ maxSafeInt32Dot)).mp
    (quantizeDynamic_correct Sample.linear Sample.linear_float32)

end LinearModel

end EdgeFort
