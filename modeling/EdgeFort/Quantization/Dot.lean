/-
Integer dot products in registers: NumPy's int32 matrix product, which wraps, and
`dot_i8` (`int8_linear.cpp`), which accumulates in 64 bits and checks the result.

A wrapping sum is the exact sum modulo the register's size, whatever the partial
sums did on the way.  So both are exact when the exact sum fits.
-/
import Mathlib.Algebra.Order.BigOperators.Group.List
import Mathlib.Algebra.Order.Ring.Abs
import Mathlib.Algebra.Order.Ring.Int
import Mathlib.Tactic.Linarith
import Mathlib.Tactic.NormNum
import Mathlib.Tactic.Ring

namespace EdgeFort

/-- What the native library throws. -/
inductive NativeError where
  | invalidArgument (what : String)
  | overflowError (what : String)
  deriving DecidableEq, Repr

/-- The exact dot product of two vectors. -/
def dot (a b : List Int8) : Int := (List.zipWith (fun x y => x.toInt * y.toInt) a b).sum

/-- An entry of `a.astype(np.int32) @ b.astype(np.int32).T`. -/
def dotInt32 (a b : List Int8) : Int32 :=
  (List.zipWith (fun x y => x.toInt32 * y.toInt32) a b).foldl (· + ·) 0

/-- `acc` of `dot_i8` after its loop. -/
def accumulate64 (a b : List Int8) : Int64 :=
  (List.zipWith (fun x y => (x.toInt32 * y.toInt32).toInt64) a b).foldl (· + ·) 0

def dotI8 (a b : List Int8) : Except NativeError Int32 :=
  if a.length ≠ b.length then .error (.invalidArgument "dot_i8 shape mismatch")
  else
    let acc := accumulate64 a b
    if acc < Int32.minValue.toInt64 ∨ Int32.maxValue.toInt64 < acc then
      .error (.overflowError "int8 accumulator overflow")
    else .ok acc.toInt32

/-- Whether an integer is one of int32. -/
def fitsInt32 (n : Int) : Prop := -2147483648 ≤ n ∧ n ≤ 2147483647

instance (n : Int) : Decidable (fitsInt32 n) := inferInstanceAs (Decidable (_ ∧ _))

/-! ## Sums in a register -/

/-- A sum in a register that wraps at `n` is the exact sum modulo `n`. -/
theorem toInt_foldl_add {R : Type} [Add R] {toInt : R → Int} {n : Nat}
    (hadd : ∀ a b : R, toInt (a + b) = (toInt a + toInt b).bmod n) (xs : List R) :
    ∀ acc : R, (toInt acc).bmod n = toInt acc →
      toInt (xs.foldl (· + ·) acc) = (toInt acc + (xs.map toInt).sum).bmod n := by
  induction xs with
  | nil =>
    intro acc hacc
    simp [hacc]
  | cons x xs ih =>
    intro acc hacc
    rw [List.foldl_cons, ih _ (by rw [hadd, Int.bmod_bmod]), hadd, Int.bmod_add_bmod,
      List.map_cons, List.sum_cons, add_assoc]

theorem toInt_mul_int8 (x y : Int8) : (x.toInt32 * y.toInt32).toInt = x.toInt * y.toInt := by
  have hx := x.toInt_lt
  have hx' := x.le_toInt
  have hy := y.toInt_lt
  have hy' := y.le_toInt
  rw [Int32.toInt_mul, Int8.toInt_toInt32, Int8.toInt_toInt32]
  refine Int.bmod_eq_of_le_mul_two ?_ ?_
  · norm_num
    nlinarith
  · norm_num
    nlinarith

theorem toInt_dotInt32 (a b : List Int8) : (dotInt32 a b).toInt = (dot a b).bmod (2 ^ 32) := by
  have hzip : (List.zipWith (fun x y : Int8 => x.toInt32 * y.toInt32) a b).map Int32.toInt =
      List.zipWith (fun x y => x.toInt * y.toInt) a b := by
    simp only [List.map_zipWith, toInt_mul_int8]
  have hsum := toInt_foldl_add Int32.toInt_add
    (List.zipWith (fun x y : Int8 => x.toInt32 * y.toInt32) a b) 0 rfl
  rw [hzip, Int32.toInt_zero, zero_add] at hsum
  exact hsum

theorem toInt_accumulate64 (a b : List Int8) :
    (accumulate64 a b).toInt = (dot a b).bmod (2 ^ 64) := by
  have hzip : (List.zipWith (fun x y : Int8 => (x.toInt32 * y.toInt32).toInt64) a b).map
      Int64.toInt = List.zipWith (fun x y => x.toInt * y.toInt) a b := by
    simp only [List.map_zipWith, Int32.toInt_toInt64, toInt_mul_int8]
  have hsum := toInt_foldl_add Int64.toInt_add
    (List.zipWith (fun x y : Int8 => (x.toInt32 * y.toInt32).toInt64) a b) 0 rfl
  rw [hzip, Int64.toInt_zero, zero_add] at hsum
  exact hsum

/-- The int32 product is exact where the exact product fits, and nowhere else. -/
theorem toInt_dotInt32_eq {a b : List Int8} :
    (dotInt32 a b).toInt = dot a b ↔ fitsInt32 (dot a b) := by
  rw [toInt_dotInt32]
  constructor
  · intro h
    have hlo := Int.le_bmod (x := dot a b) (m := 2 ^ 32) (by decide)
    have hhi := Int.bmod_lt (x := dot a b) (m := 2 ^ 32) (by decide)
    rw [h] at hlo hhi
    exact ⟨by simpa using hlo, by simpa using Int.le_sub_one_of_lt hhi⟩
  · rintro ⟨hlo, hhi⟩
    exact Int.bmod_eq_of_le_mul_two (by norm_num; omega) (by norm_num; omega)

/-! ## How large a dot product is -/

/-- The sum of the magnitudes of a vector. -/
def weight (b : List Int8) : Int := (b.map fun y => |y.toInt|).sum

theorem weight_nonneg (b : List Int8) : 0 ≤ weight b := by
  refine List.sum_nonneg fun x hx => ?_
  obtain ⟨y, -, rfl⟩ := List.mem_map.mp hx
  exact abs_nonneg _

/-- A factor whose entries are at most `n` gives at most `n` times the weight of
the other. -/
theorem abs_dot_le {n : Int} (hn : 0 ≤ n) {a : List Int8} (ha : ∀ x ∈ a, |x.toInt| ≤ n)
    (b : List Int8) : |dot a b| ≤ n * weight b := by
  induction a generalizing b with
  | nil =>
    have hw := weight_nonneg b
    simpa [dot] using Int.mul_nonneg hn hw
  | cons x a ih =>
    cases b with
    | nil => simp [dot, weight]
    | cons y b =>
      obtain ⟨hx, ha⟩ := List.forall_mem_cons.mp ha
      have htail := ih ha b
      have hhead : |x.toInt * y.toInt| ≤ n * |y.toInt| := by
        rw [abs_mul]
        exact mul_le_mul_of_nonneg_right hx (abs_nonneg _)
      have hdot : dot (x :: a) (y :: b) = x.toInt * y.toInt + dot a b := by simp [dot]
      have hweight : weight (y :: b) = |y.toInt| + weight b := by simp [weight]
      rw [hdot, hweight, mul_add]
      exact (abs_add_le _ _).trans (add_le_add hhead htail)

/-- A factor with the signs of the other and all its entries of one magnitude
attains the bound. -/
theorem dot_signs {n : Int} {f : Int8 → Int8}
    (hf : ∀ y, (f y).toInt = if y.toInt < 0 then -n else n) (b : List Int8) :
    dot (b.map f) b = n * weight b := by
  induction b with
  | nil => simp [dot, weight]
  | cons y b ih =>
    have hhead : (f y).toInt * y.toInt = n * |y.toInt| := by
      rw [hf y]
      split_ifs with h
      · rw [abs_of_neg h]
        ring
      · rw [abs_of_nonneg (not_lt.mp h)]
    have hdot : dot ((y :: b).map f) (y :: b) = (f y).toInt * y.toInt + dot (b.map f) b := by
      simp [dot]
    have hweight : weight (y :: b) = |y.toInt| + weight b := by simp [weight]
    rw [hdot, hweight, ih, hhead, mul_add]

theorem weight_le (b : List Int8) : weight b ≤ 128 * b.length := by
  induction b with
  | nil => simp [weight]
  | cons y b ih =>
    have hy := y.toInt_lt
    have hy' := y.le_toInt
    have habs : |y.toInt| ≤ 128 := abs_le.mpr ⟨by omega, by omega⟩
    have hweight : weight (y :: b) = |y.toInt| + weight b := by simp [weight]
    rw [hweight, List.length_cons]
    push_cast
    omega

/-! ## The native dot product -/

/-- With fewer than `2 ^ 49` elements the 64-bit sum is exact. -/
theorem toInt_accumulate64_eq {a b : List Int8} (hb : b.length < 2 ^ 49) :
    (accumulate64 a b).toInt = dot a b := by
  have ha : ∀ x ∈ a, |x.toInt| ≤ 128 := by
    intro x _
    have hx := x.toInt_lt
    have hx' := x.le_toInt
    exact abs_le.mpr ⟨by omega, by omega⟩
  have hbound := abs_le.mp (abs_dot_le (by norm_num) ha b)
  have hweight := weight_le b
  rw [toInt_accumulate64]
  refine Int.bmod_eq_of_le_mul_two ?_ ?_
  · norm_num
    omega
  · norm_num
    omega

/-- On vectors of one length the native product is the int32 product where the
exact product fits, and its overflow error elsewhere. -/
theorem dotI8_eq {a b : List Int8} (hlen : a.length = b.length) (hb : b.length < 2 ^ 49) :
    dotI8 a b = if fitsInt32 (dot a b) then .ok (dotInt32 a b)
      else .error (.overflowError "int8 accumulator overflow") := by
  have hacc : (accumulate64 a b).toInt = dot a b := toInt_accumulate64_eq hb
  have hrange : (accumulate64 a b < Int32.minValue.toInt64 ∨
      Int32.maxValue.toInt64 < accumulate64 a b) ↔ ¬fitsInt32 (dot a b) := by
    rw [Int64.lt_iff_toInt_lt, Int64.lt_iff_toInt_lt, hacc]
    show (dot a b < -2147483648 ∨ 2147483647 < dot a b) ↔ _
    unfold fitsInt32
    omega
  unfold dotI8
  rw [if_neg (not_not.mpr hlen)]
  by_cases hfits : fitsInt32 (dot a b)
  · have hsame : (accumulate64 a b).toInt32 = dotInt32 a b := by
      refine Int32.toInt_inj.mp ?_
      rw [Int64.toInt_toInt32, hacc, toInt_dotInt32]
    rw [if_pos hfits]
    show (if _ then _ else _) = _
    rw [if_neg (fun h => hrange.mp h hfits), hsame]
  · rw [if_neg hfits]
    exact if_pos (hrange.mpr hfits)

end EdgeFort
