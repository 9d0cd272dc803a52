/-
Rounding to the nearest number of `p + 1` significant bits, ties to even, with one grid for
all numbers below a smallest exponent.

A number and the grid point next to it differ by at most half a step, and a step is at most the
number's share of `2 ^ p`, or the smallest step.
-/
import EdgeFort.Python.Rounding
import Mathlib.Tactic.FieldSimp
import Mathlib.Tactic.NormNum
import Mathlib.Tactic.Ring

namespace EdgeFort
namespace Grid

open PyFloat

variable {p : Nat} {emin k : Int} {a b : ℚ}

/-- The distance between the grid's numbers around `a`. -/
def step (p : Nat) (emin : Int) (a : ℚ) : ℚ := 2 ^ (max (exponent a) emin - p)

/-- The grid's number nearest to a positive number. -/
def nearest (p : Nat) (emin : Int) (a : ℚ) : ℚ := roundHalfEven (a / step p emin a) * step p emin a

theorem step_pos : 0 < step p emin a := two_zpow_pos _

theorem abs_roundHalfEven_sub_le (q : ℚ) : |(roundHalfEven q : ℚ) - q| ≤ 1 / 2 := by
  have hlo := Rat.floor_le q
  have hhi := Rat.lt_floor_add_one q
  push_cast at hhi
  rw [abs_le]
  simp only [roundHalfEven]
  split_ifs with hlt hgt heven
  · constructor <;> linarith
  · push_cast
    constructor <;> linarith
  · constructor <;> linarith
  · push_cast
    constructor <;> linarith

/-- Rounding moves a number by at most half a step. -/
theorem abs_nearest_sub_le : |nearest p emin a - a| ≤ step p emin a / 2 := by
  have hstep : 0 < step p emin a := step_pos
  have hscaled : nearest p emin a - a =
      (roundHalfEven (a / step p emin a) - a / step p emin a) * step p emin a := by
    rw [nearest, sub_mul, div_mul_cancel₀ _ hstep.ne']
  rw [hscaled, abs_mul, abs_of_pos hstep]
  calc |(roundHalfEven (a / step p emin a) : ℚ) - a / step p emin a| * step p emin a
      ≤ 1 / 2 * step p emin a :=
        mul_le_mul_of_nonneg_right (abs_roundHalfEven_sub_le _) hstep.le
    _ = step p emin a / 2 := by ring

theorem step_le (ha : 0 < a) : step p emin a ≤ max (a / 2 ^ p) (2 ^ (emin - p)) := by
  rw [step]
  rcases le_total (exponent a) emin with h | h
  · rw [max_eq_right h]
    exact le_max_right _ _
  · rw [max_eq_left h, sub_eq_add_neg, two_zpow_add, zpow_neg, zpow_natCast, ← div_eq_mul_inv]
    exact (div_le_div_of_nonneg_right (exponent_spec ha).1 (by positivity)).trans (le_max_left _ _)

theorem nearest_nonneg (ha : 0 ≤ a) : 0 ≤ nearest p emin a := by
  have hscaled : 0 ≤ a / step p emin a := div_nonneg ha step_pos.le
  have hrounded := roundHalfEven_mono hscaled
  rw [← Int.cast_zero, roundHalfEven_intCast] at hrounded
  exact mul_nonneg (by exact_mod_cast hrounded) step_pos.le

/-- A power of two on the grid bounds what rounds below it. -/
theorem nearest_le_two_zpow (ha : 0 < a) (hk : emin ≤ k) (hle : a ≤ 2 ^ k) :
    nearest p emin a ≤ 2 ^ k := by
  have hexponent : exponent a ≤ k := by
    have hlt := (exponent_spec ha).1.trans hle
    exact (zpow_le_zpow_iff_right₀ (by norm_num : (1 : ℚ) < 2)).mp hlt
  obtain ⟨n, hn⟩ : ∃ n : Nat, k = max (exponent a) emin - p + n := by
    refine ⟨(k - (max (exponent a) emin - p)).toNat, ?_⟩
    omega
  have hscaled : a / step p emin a ≤ ((2 ^ n : Int) : ℚ) := by
    rw [div_le_iff₀ step_pos]
    push_cast
    rw [step, ← zpow_natCast, ← two_zpow_add, add_comm, ← hn]
    exact hle
  have hrounded := roundHalfEven_mono hscaled
  rw [roundHalfEven_intCast] at hrounded
  calc nearest p emin a ≤ ((2 ^ n : Int) : ℚ) * step p emin a :=
        mul_le_mul_of_nonneg_right (by exact_mod_cast hrounded) step_pos.le
    _ = 2 ^ k := by
      push_cast
      rw [step, ← zpow_natCast, ← two_zpow_add, add_comm, ← hn]

/-- A multiple of a power of two that is no finer than the grid around it is on the grid. -/
theorem nearest_of_multiple {n : Int} (ha : a = n * 2 ^ k) (hk : max (exponent a) emin - p ≤ k) :
    nearest p emin a = a := by
  obtain ⟨d, hd⟩ : ∃ d : Nat, k = max (exponent a) emin - p + d :=
    ⟨(k - (max (exponent a) emin - p)).toNat, by omega⟩
  have hscaled : a / step p emin a = ((n * 2 ^ d : Int) : ℚ) := by
    rw [div_eq_iff step_pos.ne', step]
    push_cast
    rw [mul_assoc, ← zpow_natCast, ← two_zpow_add, add_comm, ← hd]
    exact ha
  rw [nearest, hscaled, roundHalfEven_intCast, ← hscaled, div_mul_cancel₀ _ step_pos.ne']

/-- What has been rounded is rounded to itself. -/
theorem nearest_nearest (ha : 0 < a) : nearest p emin (nearest p emin a) = nearest p emin a := by
  have hle : nearest p emin a ≤ 2 ^ (max (exponent a) emin + 1) := by
    refine nearest_le_two_zpow ha (by omega) ((exponent_spec ha).2.le.trans (two_zpow_le ?_))
    omega
  have hnonneg : 0 ≤ nearest p emin a := nearest_nonneg ha.le
  rcases hnonneg.eq_or_lt with hzero | hpos
  · rw [← hzero]
    have hmultiple : (0 : ℚ) = ((0 : Int) : ℚ) * 2 ^ (max (exponent 0) emin - p) := by
      rw [Int.cast_zero, zero_mul]
    exact nearest_of_multiple hmultiple (le_refl _)
  rcases hle.lt_or_eq with hlt | heq
  · have hexponent : exponent (nearest p emin a) < max (exponent a) emin + 1 :=
      (zpow_lt_zpow_iff_right₀ (by norm_num : (1 : ℚ) < 2)).mp
        ((exponent_spec hpos).1.trans_lt hlt)
    exact nearest_of_multiple (n := roundHalfEven (a / step p emin a)) rfl (by omega)
  · have hexponent : exponent (nearest p emin a) ≤ max (exponent a) emin + 1 :=
      (zpow_le_zpow_iff_right₀ (by norm_num : (1 : ℚ) < 2)).mp ((exponent_spec hpos).1.trans hle)
    have hmultiple : nearest p emin a = ((1 : Int) : ℚ) * 2 ^ (max (exponent a) emin + 1) := by
      rw [heq, Int.cast_one, one_mul]
    exact nearest_of_multiple hmultiple (by omega)

end Grid
end EdgeFort
