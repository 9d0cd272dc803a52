/-
How far binary32 arithmetic is from exact arithmetic.
-/
import EdgeFort.Numpy.Float32
import EdgeFort.Python.Grid

namespace EdgeFort
namespace Binary32

open PyFloat

variable {x y : PyFloat} {q r s : ℚ} {k : Int}

/-- The binary32 number nearest to `q`, below the largest. -/
def nearest (q : ℚ) : ℚ :=
  if q < 0 then -Grid.nearest 23 (-126) (-q) else Grid.nearest 23 (-126) q

theorem nearest_zero : nearest 0 = 0 := by decide +kernel

theorem nearest_neg (h : 0 < q) : nearest (-q) = -nearest q := by
  rw [nearest, if_pos (neg_lt_zero.mpr h), neg_neg, nearest, if_neg (not_lt.mpr h.le)]

theorem nearest_of_pos (h : 0 < q) : nearest q = Grid.nearest 23 (-126) q := by
  rw [nearest, if_neg (not_lt.mpr h.le)]

/-- A property of a number and its neighbour that does not depend on signs. -/
theorem nearest_cases {P : ℚ → ℚ → Prop} (hzero : P 0 0)
    (hpos : ∀ q, 0 < q → P q (Grid.nearest 23 (-126) q))
    (hneg : ∀ a b, 0 < a → P a b → P (-a) (-b)) (q : ℚ) : P q (nearest q) := by
  rcases lt_trichotomy q 0 with hq | rfl | hq
  · have hlt := neg_pos.mpr hq
    have h := hneg _ _ hlt (hpos _ hlt)
    rwa [neg_neg, ← nearest_of_pos hlt, ← nearest_neg hlt, neg_neg] at h
  · rwa [nearest_zero]
  · rw [nearest_of_pos hq]
    exact hpos q hq

/-- Rounding moves a number by at most its share of `2 ^ 24`, or half the smallest step. -/
theorem abs_nearest_sub_le (q : ℚ) : |nearest q - q| ≤ max (|q| / 2 ^ 24) (2 ^ (-150 : Int)) := by
  refine nearest_cases (P := fun q v => |v - q| ≤ max (|q| / 2 ^ 24) (2 ^ (-150 : Int))) ?_ ?_ ?_ q
  · rw [sub_zero, abs_zero]
    exact le_max_of_le_right (two_zpow_pos _).le
  · intro q hq
    have hstep : Grid.step 23 (-126) q ≤ max (q / 2 ^ 23) (2 ^ (-126 - (23 : Nat) : Int)) :=
      Grid.step_le hq
    have hhalf : max (q / 2 ^ 24) (2 ^ (-150 : Int)) =
        max (q / 2 ^ 23) (2 ^ (-126 - (23 : Nat) : Int)) / 2 := by
      rw [← max_div_div_right (by norm_num : (0 : ℚ) ≤ 2)]
      congr 1
      · rw [div_div]
        norm_num
      · norm_num
    rw [abs_of_pos hq, hhalf]
    exact Grid.abs_nearest_sub_le.trans (div_le_div_of_nonneg_right hstep (by norm_num))
  · intro a b _ h
    rwa [neg_sub_neg, abs_sub_comm, abs_neg]

theorem abs_nearest_sub_le_add (q : ℚ) : |nearest q - q| ≤ |q| / 2 ^ 24 + 1 / 2 ^ 150 := by
  have hnonneg : 0 ≤ |q| / 2 ^ 24 := div_nonneg (abs_nonneg q) (by norm_num)
  refine (abs_nearest_sub_le q).trans (max_le ?_ ?_)
  · exact le_add_of_nonneg_right (by norm_num)
  · norm_num at hnonneg ⊢
    linarith

theorem rat_zero (negative : Bool) : (zero negative).rat? = some 0 := by
  cases negative <;> rfl

theorem round_eq (hq : q ≠ 0) : round q =
    if Grid.nearest 23 (-126) |q| = 0 then zero (q < 0)
    else if (2 : ℚ) ^ (128 : Int) ≤ Grid.nearest 23 (-126) |q| then inf (q < 0)
    else finite (if q < 0 then -Grid.nearest 23 (-126) |q| else Grid.nearest 23 (-126) |q|) := by
  have habs : |q| = if q < 0 then -q else q := by
    split_ifs with hneg
    · exact abs_of_neg hneg
    · exact abs_of_nonneg (not_lt.mp hneg)
  rw [round, if_neg hq, habs]
  rfl

theorem nearest_eq (q : ℚ) : nearest q =
    if q < 0 then -Grid.nearest 23 (-126) |q| else Grid.nearest 23 (-126) |q| := by
  unfold nearest
  split_ifs with hneg
  · rw [abs_of_neg hneg]
  · rw [abs_of_nonneg (not_lt.mp hneg)]

/-- Rounding is to the nearest number, if that is not beyond the largest. -/
theorem rat_round_eq_some :
    (round q).rat? = some r ↔ nearest q = r ∧ |nearest q| < 2 ^ (128 : Int) := by
  by_cases hq : q = 0
  · rw [hq, round, if_pos rfl, nearest_zero, abs_zero]
    exact ⟨fun h => ⟨Option.some.inj h, by norm_num⟩, fun h => congrArg some h.1⟩
  have habs : |nearest q| = Grid.nearest 23 (-126) |q| := by
    have hnonneg : 0 ≤ Grid.nearest 23 (-126) |q| := Grid.nearest_nonneg (abs_nonneg q)
    rw [nearest_eq]
    split_ifs
    · rw [abs_neg, abs_of_nonneg hnonneg]
    · exact abs_of_nonneg hnonneg
  rw [habs, round_eq hq, nearest_eq]
  by_cases hv : Grid.nearest 23 (-126) |q| = 0
  · rw [if_pos hv, rat_zero, hv, neg_zero, ite_self]
    exact ⟨fun h => ⟨Option.some.inj h, by norm_num⟩, fun h => congrArg some h.1⟩
  rw [if_neg hv]
  by_cases hmax : (2 : ℚ) ^ (128 : Int) ≤ Grid.nearest 23 (-126) |q|
  · rw [if_pos hmax]
    exact iff_of_false nofun fun h => absurd hmax (not_le.mpr h.2)
  · rw [if_neg hmax]
    exact ⟨fun h => ⟨Option.some.inj h, not_le.mp hmax⟩, fun h => congrArg some h.1⟩

/-- A finite result is below the largest number. -/
theorem abs_lt_of_rat_round (h : (round q).rat? = some r) : |r| < 2 ^ (128 : Int) := by
  obtain ⟨rfl, hlt⟩ := rat_round_eq_some.mp h
  exact hlt

/-- Far enough from the largest number, rounding is to the nearest number. -/
theorem rat_round (h : |q| ≤ 2 ^ (127 : Int)) : (round q).rat? = some (nearest q) := by
  refine rat_round_eq_some.mpr ⟨rfl, ?_⟩
  have htop : (2 : ℚ) ^ (127 : Int) < 2 ^ (128 : Int) := by norm_num
  have hpos : ∀ a : ℚ, 0 < a → |a| ≤ 2 ^ (127 : Int) →
      |Grid.nearest 23 (-126) a| < 2 ^ (128 : Int) := by
    intro a ha hle
    rw [abs_of_pos ha] at hle
    rw [abs_of_nonneg (Grid.nearest_nonneg ha.le)]
    exact (Grid.nearest_le_two_zpow ha (by norm_num) hle).trans_lt htop
  refine nearest_cases (P := fun q v => |q| ≤ 2 ^ (127 : Int) → |v| < 2 ^ (128 : Int)) ?_ hpos ?_ q h
  · intro _
    norm_num
  · intro a b _ hb hle
    rw [abs_neg] at hle ⊢
    exact hb hle

/-- Division of finite floats by one that is not zero. -/
theorem rat_div (hx : x.rat? = some r) (hy : y.rat? = some s) (hs : s ≠ 0)
    (h : |r / s| ≤ 2 ^ (127 : Int)) : (div x y).rat? = some (nearest (r / s)) := by
  have hquotient : (if r / s = 0 then zero (x.signbit ^^ y.signbit) else round (r / s)).rat? =
      some (nearest (r / s)) := by
    split_ifs with hzero
    · rw [hzero, nearest_zero, rat_zero]
    · exact rat_round h
  match x, y, hx, hy with
  | negZero, negZero, _, rfl | finite _, negZero, _, rfl => exact absurd rfl hs
  | negZero, finite _, rfl, rfl | finite _, finite _, rfl, rfl =>
    refine Eq.trans ?_ hquotient
    simp [div, rat?, hs]

/-- Multiplication of finite floats. -/
theorem rat_mul (hx : x.rat? = some r) (hy : y.rat? = some s) (h : |r * s| ≤ 2 ^ (127 : Int)) :
    (mul x y).rat? = some (nearest (r * s)) := by
  have hproduct : (if r * s = 0 then zero (x.signbit ^^ y.signbit) else round (r * s)).rat? =
      some (nearest (r * s)) := by
    split_ifs with hzero
    · rw [hzero, nearest_zero, rat_zero]
    · exact rat_round h
  match x, y, hx, hy with
  | negZero, negZero, rfl, rfl | finite _, negZero, rfl, rfl | negZero, finite _, rfl, rfl
  | finite _, finite _, rfl, rfl => exact hproduct

/-- Addition of finite floats. -/
theorem rat_add (hx : x.rat? = some r) (hy : y.rat? = some s) (h : |r + s| ≤ 2 ^ (127 : Int)) :
    (add x y).rat? = some (nearest (r + s)) := by
  match x, y, hx, hy with
  | negZero, negZero, rfl, rfl =>
    rw [zero_add, nearest_zero]
    rfl
  | finite _, negZero, rfl, rfl | negZero, finite _, rfl, rfl | finite _, finite _, rfl, rfl =>
    exact rat_round h

/-- A finite product is the rounded product of two finite factors. -/
theorem nearest_of_rat_mul (h : (mul x y).rat? = some q) :
    ∃ r s, x.rat? = some r ∧ y.rat? = some s ∧ nearest (r * s) = q := by
  have hproduct : ∀ {r s : ℚ} {negative : Bool},
      (if r * s = 0 then zero negative else round (r * s)).rat? = some q → nearest (r * s) = q := by
    intro r s negative hq
    split_ifs at hq with hzero
    · rw [rat_zero] at hq
      rw [hzero, nearest_zero]
      exact Option.some.inj hq
    · exact (rat_round_eq_some.mp hq).1
  have hinf : ∀ (z : PyFloat) (negative : Bool),
      (if z.rat? = some 0 then nan else inf negative).rat? ≠ some q := by
    intro z negative
    split_ifs <;> nofun
  match x, y, h with
  | inf a, inf b, h => exact absurd h (hinf (inf b) (a ^^ b))
  | inf a, negZero, h => exact absurd h (hinf negZero (a ^^ true))
  | inf a, finite r, h => exact absurd h (hinf (finite r) (a ^^ (finite r).signbit))
  | negZero, inf b, h => exact absurd h (hinf negZero (true ^^ b))
  | finite r, inf b, h => exact absurd h (hinf (finite r) ((finite r).signbit ^^ b))
  | negZero, negZero, h | negZero, finite _, h | finite _, negZero, h | finite _, finite _, h =>
    exact ⟨_, _, rfl, rfl, hproduct h⟩

/-- A finite sum is the rounded sum of two finite terms. -/
theorem nearest_of_rat_add (h : (add x y).rat? = some q) :
    ∃ r s, x.rat? = some r ∧ y.rat? = some s ∧ nearest (r + s) = q := by
  match x, y, h with
  | inf a, inf b, h =>
    have hsum : (if a = b then inf a else nan).rat? = some q := h
    split_ifs at hsum
    · cases hsum
    · cases hsum
  | negZero, negZero, h =>
    refine ⟨0, 0, rfl, rfl, ?_⟩
    rw [zero_add, nearest_zero]
    exact Option.some.inj h
  | negZero, finite _, h | finite _, negZero, h | finite _, finite _, h =>
    exact ⟨_, _, rfl, rfl, (rat_round_eq_some.mp h).1⟩

/-! ## Float32s -/

/-- A float32, finite or not. -/
def IsFloat32 (x : PyFloat) : Prop := x ∈ Set.range ofFloat

theorem isFloat32_round (q : ℚ) : IsFloat32 (round q) := ⟨finite q, rfl⟩

theorem isFloat32_zero (negative : Bool) : IsFloat32 (zero negative) := by
  cases negative with
  | false => exact ⟨finite 0, rfl⟩
  | true => exact ⟨negZero, rfl⟩

theorem isFloat32_div (x y : PyFloat) : IsFloat32 (div x y) := by
  have hinf : ∀ negative : Bool, IsFloat32 (inf negative) := fun negative => ⟨inf negative, rfl⟩
  have hnan : IsFloat32 nan := ⟨nan, rfl⟩
  unfold div
  dsimp only
  split
  · exact hnan
  · exact hnan
  · exact hnan
  · exact hinf _
  · exact isFloat32_zero _
  · split_ifs
    · exact hnan
    · exact hinf _
    · exact isFloat32_zero _
    · exact isFloat32_round _

theorem isFloat32_maximum (hx : IsFloat32 x) (hy : IsFloat32 y) : IsFloat32 (maximum x y) := by
  unfold maximum
  split
  · exact ⟨nan, rfl⟩
  · exact ⟨nan, rfl⟩
  · split_ifs
    · exact hy
    · exact hx

/-- A float32 is converted to itself. -/
theorem IsFloat32.ofFloat_eq (h : IsFloat32 x) : ofFloat x = x := by
  obtain ⟨y, rfl⟩ := h
  match y with
  | nan | inf _ | negZero => rfl
  | finite q =>
    show ofFloat (round q) = round q
    by_cases hq : q = 0
    · rw [hq]
      decide +kernel
    rw [round_eq hq]
    by_cases hv : Grid.nearest 23 (-126) |q| = 0
    · rw [if_pos hv]
      cases decide (q < 0) <;> rfl
    rw [if_neg hv]
    by_cases hmax : (2 : ℚ) ^ (128 : Int) ≤ Grid.nearest 23 (-126) |q|
    · rw [if_pos hmax]
      rfl
    rw [if_neg hmax]
    have hpos : 0 < Grid.nearest 23 (-126) |q| :=
      (Grid.nearest_nonneg (abs_nonneg q)).lt_of_ne (Ne.symm hv)
    have hidem : Grid.nearest 23 (-126) (Grid.nearest 23 (-126) |q|) = Grid.nearest 23 (-126) |q| :=
      Grid.nearest_nearest (abs_pos.mpr hq)
    generalize Grid.nearest 23 (-126) |q| = v at *
    by_cases hneg : q < 0
    · have hnegv : -v < 0 := neg_lt_zero.mpr hpos
      rw [if_pos hneg, ofFloat, round_eq hnegv.ne, abs_neg, abs_of_pos hpos, hidem, if_neg hv,
        if_neg hmax, if_pos hnegv]
    · rw [if_neg hneg, ofFloat, round_eq hv, abs_of_pos hpos, hidem, if_neg hv, if_neg hmax,
        if_neg (not_lt.mpr hpos.le)]

end Binary32
end EdgeFort
