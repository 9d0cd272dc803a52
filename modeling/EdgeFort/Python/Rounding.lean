/-
Order and rounding of binary64 floats.

A float's place in the order is its exact value, an infinity beyond all of them; a
NaN has none and compares false with everything.  Rounding to the nearest float
keeps the order: where two numbers have the same exponent they are rounded on one
grid, and a power of two between them is a number of both grids.
-/
import EdgeFort.Python.Number
import Mathlib.Algebra.Order.Field.Basic
import Mathlib.Algebra.Order.Field.Power
import Mathlib.Algebra.Order.Ring.Rat
import Mathlib.Data.Rat.Floor
import Mathlib.Order.WithBot
import Mathlib.Tactic.Linarith
import Mathlib.Tactic.SplitIfs

namespace EdgeFort
namespace PyFloat

/-! ## Integers -/

theorem roundHalfEven_mem (q : ℚ) : q.floor ≤ roundHalfEven q ∧ roundHalfEven q ≤ q.floor + 1 := by
  simp only [roundHalfEven]
  split_ifs <;> omega

theorem roundHalfEven_mono {p q : ℚ} (h : p ≤ q) : roundHalfEven p ≤ roundHalfEven q := by
  have hfloor : p.floor ≤ q.floor := Rat.floor_monotone h
  rcases hfloor.eq_or_lt with heq | hlt
  · have hrest : p - (q.floor : ℚ) ≤ q - q.floor := sub_le_sub_right h _
    simp only [roundHalfEven, heq]
    split_ifs <;> first | omega | linarith
  · have hp := (roundHalfEven_mem p).2
    have hq := (roundHalfEven_mem q).1
    omega

theorem roundHalfEven_intCast (n : Int) : roundHalfEven n = n := by
  simp [roundHalfEven]

/-! ## Exponents -/

theorem two_zpow_pos (e : Int) : (0 : ℚ) < (2 : ℚ) ^ e := zpow_pos (by norm_num) e

theorem two_zpow_add (d e : Int) : (2 : ℚ) ^ (d + e) = 2 ^ d * 2 ^ e :=
  zpow_add₀ (by norm_num) d e

theorem two_zpow_le {d e : Int} (h : d ≤ e) : (2 : ℚ) ^ d ≤ 2 ^ e :=
  zpow_le_zpow_right₀ (by norm_num) h

/-- A number lies between two powers of two. -/
theorem log2_bounds {n : Nat} (hn : n ≠ 0) :
    (2 : ℚ) ^ (Nat.log2 n : Int) ≤ n ∧ (n : ℚ) < (2 : ℚ) ^ ((Nat.log2 n : Int) + 1) := by
  constructor
  · have hle := Nat.log2_self_le hn
    rw [zpow_natCast]
    exact_mod_cast hle
  · have hlt := @Nat.lt_log2_self n
    rw [← Nat.cast_add_one, zpow_natCast]
    exact_mod_cast hlt

theorem exponent_spec {a : ℚ} (ha : 0 < a) :
    (2 : ℚ) ^ exponent a ≤ a ∧ a < (2 : ℚ) ^ (exponent a + 1) := by
  have hnum : 0 < a.num := Rat.num_pos.mpr ha
  obtain ⟨hnlo, hnhi⟩ := log2_bounds (Int.natAbs_ne_zero.mpr hnum.ne')
  obtain ⟨hdlo, hdhi⟩ := log2_bounds a.den_nz
  have hden : (0 : ℚ) < a.den := by exact_mod_cast a.den_pos
  have hfraction : a * a.den = a.num.natAbs := by
    rw [Nat.cast_natAbs, abs_of_pos hnum, Rat.mul_den_eq_num]
  simp only [exponent]
  generalize (Nat.log2 a.num.natAbs : Int) = n at *
  generalize (Nat.log2 a.den : Int) = d at *
  have hupper : a < (2 : ℚ) ^ (n - d + 1) := by
    rw [← mul_lt_mul_iff_left₀ hden, hfraction]
    calc (a.num.natAbs : ℚ) < 2 ^ (n + 1) := hnhi
      _ = 2 ^ (n - d + 1) * 2 ^ d := by
        rw [← two_zpow_add]
        congr 1
        omega
      _ ≤ 2 ^ (n - d + 1) * a.den := mul_le_mul_of_nonneg_left hdlo (two_zpow_pos _).le
  have hlower : (2 : ℚ) ^ (n - d - 1) ≤ a := by
    rw [← mul_le_mul_iff_left₀ hden, hfraction]
    calc (2 : ℚ) ^ (n - d - 1) * a.den ≤ 2 ^ (n - d - 1) * 2 ^ (d + 1) :=
          mul_le_mul_of_nonneg_left hdhi.le (two_zpow_pos _).le
      _ = 2 ^ n := by
        rw [← two_zpow_add]
        congr 1
        omega
      _ ≤ a.num.natAbs := hnlo
  by_cases hsmall : a < (2 : ℚ) ^ (n - d)
  · rw [if_pos hsmall]
    exact ⟨hlower, by rwa [sub_add_cancel]⟩
  · rw [if_neg hsmall]
    exact ⟨not_lt.mp hsmall, hupper⟩

/-- The exponent of the grid that a positive number is rounded on. -/
def gridExponent (a : ℚ) : Int := max (exponent a) (-1022)

theorem gridExponent_mono {a b : ℚ} (ha : 0 < a) (h : a ≤ b) :
    gridExponent a ≤ gridExponent b := by
  have hlt : (2 : ℚ) ^ exponent a < 2 ^ (exponent b + 1) :=
    (exponent_spec ha).1.trans_lt (h.trans_lt (exponent_spec (ha.trans_le h)).2)
  have hexponent := (zpow_lt_zpow_iff_right₀ (by norm_num : (1 : ℚ) < 2)).mp hlt
  simp only [gridExponent]
  omega

/-! ## Magnitudes -/

/-- The number of the grid of exponent `e` nearest to `a`. -/
def onGrid (e : Int) (a : ℚ) : ℚ :=
  (roundHalfEven (a / 2 ^ (e - 52)) : ℚ) * 2 ^ (e - 52)

/-- The magnitude that `round` gives a positive number, before it checks for an
overflow. -/
def magnitude (a : ℚ) : ℚ := onGrid (gridExponent a) a

theorem onGrid_mono (e : Int) {a b : ℚ} (h : a ≤ b) : onGrid e a ≤ onGrid e b := by
  have hscaled : a / 2 ^ (e - 52) ≤ b / 2 ^ (e - 52) :=
    div_le_div_of_nonneg_right h (two_zpow_pos _).le
  have hrounded : (roundHalfEven (a / 2 ^ (e - 52)) : ℚ) ≤ roundHalfEven (b / 2 ^ (e - 52)) := by
    exact_mod_cast roundHalfEven_mono hscaled
  exact mul_le_mul_of_nonneg_right hrounded (two_zpow_pos _).le

/-- A power of two from the grid's step on is a number of the grid. -/
theorem onGrid_two_zpow {e : Int} (k : Nat) :
    onGrid e (2 ^ (e - 52 + k)) = 2 ^ (e - 52 + k) := by
  have hscaled : (2 : ℚ) ^ (e - 52 + k) / 2 ^ (e - 52) = ((2 ^ k : Int) : ℚ) := by
    rw [two_zpow_add, mul_div_cancel_left₀ _ (two_zpow_pos _).ne']
    push_cast
    exact zpow_natCast 2 k
  rw [onGrid, hscaled, roundHalfEven_intCast, ← hscaled,
    div_mul_cancel₀ _ (two_zpow_pos _).ne']

theorem magnitude_nonneg {a : ℚ} (ha : 0 ≤ a) : 0 ≤ magnitude a := by
  have hrounded := roundHalfEven_mono (div_nonneg ha (two_zpow_pos (gridExponent a - 52)).le)
  rw [← Int.cast_zero, roundHalfEven_intCast] at hrounded
  exact mul_nonneg (by exact_mod_cast hrounded) (two_zpow_pos _).le

theorem magnitude_zero : magnitude 0 = 0 := by
  have hrounded := roundHalfEven_intCast 0
  rw [Int.cast_zero] at hrounded
  rw [magnitude, onGrid, zero_div, hrounded, Int.cast_zero, zero_mul]

theorem magnitude_mono {a b : ℚ} (ha : 0 < a) (h : a ≤ b) : magnitude a ≤ magnitude b := by
  rcases (gridExponent_mono ha h).eq_or_lt with heq | hlt
  · rw [magnitude, heq]
    exact onGrid_mono _ h
  · have hb := exponent_spec (ha.trans_le h)
    have ha' := (exponent_spec ha).2
    have hgrid : gridExponent b = exponent b := by
      simp only [gridExponent] at hlt ⊢
      omega
    have hbelow : a ≤ 2 ^ (gridExponent a - 52 + (53 : Nat)) :=
      ha'.le.trans (two_zpow_le (by simp only [gridExponent]; omega))
    have habove : (2 : ℚ) ^ (gridExponent b - 52 + (52 : Nat)) ≤ b := by
      rw [hgrid]
      exact (two_zpow_le (by omega)).trans hb.1
    calc magnitude a ≤ 2 ^ (gridExponent a - 52 + (53 : Nat)) :=
          (onGrid_mono _ hbelow).trans (onGrid_two_zpow 53).le
      _ ≤ 2 ^ (gridExponent b - 52 + (52 : Nat)) := two_zpow_le (by omega)
      _ ≤ magnitude b := (onGrid_two_zpow 52).symm.le.trans (onGrid_mono _ habove)

/-! ## Order -/

/-- A float's place among the rationals and the infinities; that of a NaN is not used. -/
def place : PyFloat → WithBot (WithTop ℚ)
  | nan => ⊥
  | inf s => if s then ⊥ else ((⊤ : WithTop ℚ) : WithBot (WithTop ℚ))
  | negZero => ((0 : ℚ) : WithTop ℚ)
  | finite q => (q : WithTop ℚ)

/-- Python's `<=` of two floats. -/
def le (x y : PyFloat) : Bool := (PyNum.float x).le (.float y)

theorem le_finite (p q : ℚ) : (finite p).le (finite q) = true ↔ p ≤ q := by
  change (decide (p < q) || decide (p = q)) = true ↔ p ≤ q
  rw [Bool.or_eq_true, decide_eq_true_eq, decide_eq_true_eq, le_iff_lt_or_eq]

theorem le_iff_place {x y : PyFloat} (hx : x ≠ nan) (hy : y ≠ nan) :
    x.le y = true ↔ x.place ≤ y.place := by
  have hfinite : ∀ p q : ℚ, (finite p).le (finite q) = true ↔
      (finite p).place ≤ (finite q).place := by
    intro p q
    rw [le_finite, place, place, WithBot.coe_le_coe, WithTop.coe_le_coe]
  match x, y with
  | nan, _ => exact absurd rfl hx
  | _, nan => exact absurd rfl hy
  | inf s, inf t => cases s <;> cases t <;> simp [le, PyNum.le, PyNum.lt, PyNum.eq, place]
  | inf s, negZero | inf s, finite q =>
    cases s <;> simp [-WithTop.coe_zero, le, PyNum.le, PyNum.lt, PyNum.eq, place]
  | negZero, inf s | finite p, inf s =>
    cases s <;> simp [le, PyNum.le, PyNum.lt, PyNum.eq, place]
  | negZero, negZero => exact hfinite 0 0
  | negZero, finite q => exact hfinite 0 q
  | finite p, negZero => exact hfinite p 0
  | finite p, finite q => exact hfinite p q

/-- Where a rounded magnitude falls, past the largest float on an infinity. -/
def placeOf (v : ℚ) : WithBot (WithTop ℚ) :=
  if (2 : ℚ) ^ (1024 : Int) ≤ v then ((⊤ : WithTop ℚ) : WithBot (WithTop ℚ))
  else if v ≤ -(2 : ℚ) ^ (1024 : Int) then ⊥
  else (v : WithTop ℚ)

theorem placeOf_mono {v w : ℚ} (h : v ≤ w) : placeOf v ≤ placeOf w := by
  simp only [placeOf]
  by_cases hw : (2 : ℚ) ^ (1024 : Int) ≤ w
  · rw [if_pos hw]
    exact le_top
  · rw [if_neg hw, if_neg (not_le.mpr (h.trans_lt (not_le.mp hw)))]
    by_cases hv : v ≤ -(2 : ℚ) ^ (1024 : Int)
    · rw [if_pos hv]
      exact bot_le
    · rw [if_neg hv, if_neg (not_le.mpr ((not_le.mp hv).trans_le h)), WithBot.coe_le_coe,
        WithTop.coe_le_coe]
      exact h

/-- The rounded number with its sign. -/
def nearest (q : ℚ) : ℚ := if q < 0 then -magnitude (-q) else magnitude q

theorem nearest_mono {p q : ℚ} (h : p ≤ q) : nearest p ≤ nearest q := by
  simp only [nearest]
  by_cases hp : p < 0
  · rw [if_pos hp]
    by_cases hq : q < 0
    · rw [if_pos hq]
      exact neg_le_neg (magnitude_mono (neg_pos.mpr hq) (neg_le_neg h))
    · rw [if_neg hq]
      have hleft := magnitude_nonneg (neg_nonneg.mpr hp.le)
      have hright := magnitude_nonneg (not_lt.mp hq)
      exact (neg_nonpos.mpr hleft).trans hright
  · rw [if_neg hp, if_neg (not_lt.mpr ((not_lt.mp hp).trans h))]
    rcases (not_lt.mp hp).eq_or_lt with rfl | hpos
    · rw [magnitude_zero]
      exact magnitude_nonneg h
    · exact magnitude_mono hpos h

theorem place_round (q : ℚ) : (round q).place = placeOf (nearest q) := by
  have hpos := two_zpow_pos 1024
  have hzero : placeOf 0 = (finite 0).place := by
    rw [placeOf, if_neg (not_le.mpr hpos), if_neg (not_le.mpr (neg_lt_zero.mpr hpos))]
    rfl
  by_cases hq : q = 0
  · rw [hq, round, if_pos rfl, nearest, if_neg (lt_irrefl 0), magnitude_zero, hzero]
  have hround : round q = if magnitude (if q < 0 then -q else q) = 0
      then (if q < 0 then negZero else finite 0)
      else if (2 : ℚ) ^ (1024 : Int) ≤ magnitude (if q < 0 then -q else q) then inf (q < 0)
      else finite (if q < 0 then -magnitude (if q < 0 then -q else q)
        else magnitude (if q < 0 then -q else q)) := by
    rw [round, if_neg hq]
    rfl
  rw [hround, nearest]
  unfold placeOf at hzero ⊢
  generalize (2 : ℚ) ^ (1024 : Int) = top at *
  by_cases hneg : q < 0
  · have hmagnitude := magnitude_nonneg (neg_nonneg.mpr hneg.le)
    simp only [if_pos hneg, decide_eq_true hneg]
    by_cases hv : magnitude (-q) = 0
    · rw [if_pos hv, hv, neg_zero, hzero]
      rfl
    · rw [if_neg hv]
      split_ifs <;> first | rfl | (exfalso; linarith)
  · have hmagnitude := magnitude_nonneg (not_lt.mp hneg)
    simp only [if_neg hneg, decide_eq_false hneg]
    by_cases hv : magnitude q = 0
    · rw [if_pos hv, hv, hzero]
    · rw [if_neg hv]
      split_ifs <;> first | rfl | (exfalso; linarith)

/-- The nearest floats to two numbers are in the numbers' order. -/
theorem place_round_mono {p q : ℚ} (h : p ≤ q) : (round p).place ≤ (round q).place := by
  rw [place_round, place_round]
  exact placeOf_mono (nearest_mono h)

/-! ## Subtraction -/

theorem finite_ne_nan (q : ℚ) : finite q ≠ nan := PyFloat.noConfusion

/-- A float other than a NaN is an infinity or has an exact value, which is its place. -/
theorem inf_or_rat {x : PyFloat} (hx : x ≠ nan) :
    (∃ s, x = inf s) ∨ ∃ p : ℚ, x.rat? = some p ∧ x.place = (p : WithTop ℚ) := by
  match x with
  | nan => exact absurd rfl hx
  | inf s => exact Or.inl ⟨s, rfl⟩
  | negZero => exact Or.inr ⟨0, rfl, rfl⟩
  | finite q => exact Or.inr ⟨q, rfl, rfl⟩

theorem inf_sub {w : PyFloat} (hw : w.isfinite = true) (s : Bool) : (inf s).sub w = inf s := by
  match w with
  | nan | inf _ => cases hw
  | negZero | finite _ => rfl

/-- The difference of two finite floats is the float nearest to their values'; a zero
may differ in its sign. -/
theorem sub_finite {x w : PyFloat} {p r : ℚ} (hx : x.rat? = some p) (hw : w.rat? = some r) :
    x.sub w = round (p - r) ∨ x.sub w = negZero ∧ p - r = 0 := by
  match x, w, hx, hw with
  | negZero, negZero, rfl, rfl | finite _, negZero, rfl, rfl | finite _, finite _, rfl, rfl =>
    exact Or.inl rfl
  | negZero, finite r, rfl, rfl =>
    by_cases hr : r = 0
    · rw [hr]
      exact Or.inr ⟨rfl, sub_zero 0⟩
    · exact Or.inl (by simp [sub, rat?, hr])

theorem place_sub {x w : PyFloat} {p r : ℚ} (hx : x.rat? = some p) (hw : w.rat? = some r) :
    (x.sub w).place = (round (p - r)).place := by
  rcases sub_finite hx hw with heq | ⟨heq, hzero⟩
  · rw [heq]
  · rw [heq, hzero, round, if_pos rfl]
    rfl

/-- Less a finite float every float but a NaN is one. -/
theorem sub_ne_nan {x w : PyFloat} (hx : x ≠ nan) (hw : w.isfinite = true) : x.sub w ≠ nan := by
  obtain ⟨r, hr⟩ := Option.isSome_iff_exists.mp hw
  rcases inf_or_rat hx with ⟨s, rfl⟩ | ⟨p, hp, -⟩
  · rw [inf_sub hw]
    exact nofun
  · rcases sub_finite hp hr with heq | ⟨heq, -⟩
    · rw [heq]
      exact round_ne_nan _
    · rw [heq]
      exact nofun

/-- Subtraction of a finite float keeps the order, whichever way it rounds. -/
theorem sub_mono {x y w : PyFloat} (hx : x ≠ nan) (hy : y ≠ nan) (hw : w.isfinite = true)
    (h : x.place ≤ y.place) : (x.sub w).place ≤ (y.sub w).place := by
  obtain ⟨r, hr⟩ := Option.isSome_iff_exists.mp hw
  rcases inf_or_rat hx with ⟨s, rfl⟩ | ⟨p, hp, hplace⟩
  · rw [inf_sub hw]
    cases s with
    | true => exact bot_le
    | false =>
      rcases inf_or_rat hy with ⟨t, rfl⟩ | ⟨q, -, hplace⟩
      · rwa [inf_sub hw]
      · rw [hplace, place, if_neg Bool.false_ne_true, WithBot.coe_le_coe] at h
        exact absurd h (not_le.mpr (WithTop.coe_lt_top q))
  · rcases inf_or_rat hy with ⟨t, rfl⟩ | ⟨q, hq, hplace'⟩
    · cases t with
      | true =>
        rw [hplace] at h
        exact absurd h (not_le.mpr (WithBot.bot_lt_coe _))
      | false =>
        rw [inf_sub hw]
        exact le_top
    · rw [hplace, hplace', WithBot.coe_le_coe, WithTop.coe_le_coe] at h
      rw [place_sub hp hr, place_sub hq hr]
      exact place_round_mono (sub_le_sub_right h r)

end PyFloat
end EdgeFort
