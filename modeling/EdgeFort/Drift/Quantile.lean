/-
Quantiles by linear interpolation, as `np.quantile` computes them over exact numbers.

The quantile of `p` stands at the place `p * (n - 1)` of the sorted values, between the
values on both sides of it.  It lies strictly inside the range of the values just when the
value below its place is not the largest and the one above not the smallest.
-/
import Mathlib.Algebra.Order.Field.Basic
import Mathlib.Algebra.Order.Floor.Semiring
import Mathlib.Data.List.GetD
import Mathlib.Data.List.Sort
import Mathlib.Tactic.Linarith
import Mathlib.Tactic.Ring

namespace Quantile

variable {K : Type} [Field K]

/-- The place of a quantile among `n` values. -/
def place (n : Nat) (p : K) : K := p * ((n - 1 : Nat) : K)

/-- The smallest and the largest of sorted values. -/
def smallest (s : List K) : K := s.getD 0 0

def largest (s : List K) : K := s.getD (s.length - 1) 0

variable [LinearOrder K]

section Quantile

variable [FloorSemiring K]

/-- The quantile of `p` of sorted values. -/
def quantile (sorted : List K) (p : K) : K :=
  let h := place sorted.length p
  let a := sorted.getD ⌊h⌋₊ 0
  let b := sorted.getD (⌊h⌋₊ + 1) a
  a + (h - ⌊h⌋₊) * (b - a)

/-- How far the place lies past the value below it. -/
def fraction (n : Nat) (p : K) : K := place n p - ⌊place n p⌋₊

end Quantile

theorem getD_mono {s : List K} (hs : s.Pairwise (· ≤ ·)) {i j : Nat} (hij : i ≤ j)
    (hj : j < s.length) : s.getD i 0 ≤ s.getD j 0 := by
  rw [List.getD_eq_getElem _ _ (by omega), List.getD_eq_getElem _ _ hj]
  rcases Nat.eq_or_lt_of_le hij with rfl | hlt
  · exact le_refl _
  · exact List.pairwise_iff_getElem.mp hs i j (by omega) hj hlt

/-! ## Steps between two values -/

variable [IsStrictOrderedRing K] {s : List K} {p : K}

theorem place_nonneg (hp : 0 ≤ p) (n : Nat) : 0 ≤ place n p := mul_nonneg hp (Nat.cast_nonneg _)

theorem place_le (hp : p ≤ 1) (n : Nat) : place n p ≤ ((n - 1 : Nat) : K) := by
  have := mul_le_mul_of_nonneg_right hp (Nat.cast_nonneg (α := K) (n - 1))
  rwa [one_mul] at this

/-- A step from `a` towards `b` that does not reach it. -/
theorem between {a b f lo hi : K} (hab : a ≤ b) (hlo : lo ≤ a) (hhi : b ≤ hi) (hf : 0 ≤ f)
    (hf₁ : f < 1) : lo ≤ a + f * (b - a) ∧ a + f * (b - a) ≤ hi := by
  have hstep : 0 ≤ f * (b - a) := mul_nonneg hf (sub_nonneg.mpr hab)
  have hshort : f * (b - a) ≤ b - a := mul_le_of_le_one_left (sub_nonneg.mpr hab) hf₁.le
  exact ⟨by linarith, by linarith⟩

theorem lt_step_iff {a b f lo : K} (hab : a ≤ b) (hlo : lo ≤ a) (hf : 0 < f) :
    lo < a + f * (b - a) ↔ lo < b := by
  constructor
  · intro h
    by_contra hnot
    have hb : b = a := le_antisymm ((not_lt.mp hnot).trans hlo) hab
    rw [hb, sub_self, mul_zero, add_zero] at h
    exact hnot (hb ▸ h)
  · intro h
    rcases hlo.lt_or_eq with hlt | rfl
    · have := mul_nonneg hf.le (sub_nonneg.mpr hab)
      linarith
    · have := mul_pos hf (sub_pos.mpr h)
      linarith

theorem step_lt_iff {a b f hi : K} (hab : a ≤ b) (hhi : b ≤ hi) (hf : 0 ≤ f) (hf₁ : f < 1) :
    a + f * (b - a) < hi ↔ a < hi := by
  constructor
  · intro h
    have := mul_nonneg hf (sub_nonneg.mpr hab)
    linarith
  · intro h
    rcases hab.lt_or_eq with hlt | rfl
    · have := mul_lt_of_lt_one_left (sub_pos.mpr hlt) hf₁
      linarith
    · rwa [sub_self, mul_zero, add_zero]

/-! ## Quantiles -/

variable [FloorSemiring K]

theorem floor_le (hp : p ≤ 1) (n : Nat) : ⌊place n p⌋₊ ≤ n - 1 :=
  Nat.floor_le_of_le (place_le hp n)

theorem ceil_le (hp : p ≤ 1) (n : Nat) : ⌈place n p⌉₊ ≤ n - 1 := Nat.ceil_le.mpr (place_le hp n)

theorem fraction_nonneg (hp : 0 ≤ p) (n : Nat) : 0 ≤ fraction n p :=
  sub_nonneg.mpr (Nat.floor_le (place_nonneg hp n))

theorem fraction_lt_one (n : Nat) (p : K) : fraction n p < 1 := by
  have := Nat.lt_floor_add_one (place n p)
  rw [fraction]
  linarith

theorem ceil_eq (n : Nat) (p : K) :
    0 < fraction n p ∧ ⌈place n p⌉₊ = ⌊place n p⌋₊ + 1 ∨
      fraction n p ≤ 0 ∧ ⌈place n p⌉₊ ≤ ⌊place n p⌋₊ := by
  rcases lt_or_ge 0 (fraction n p) with hlt | hge
  · refine Or.inl ⟨hlt, ?_⟩
    have hfloor : (⌊place n p⌋₊ : K) < place n p := sub_pos.mp hlt
    have hgt : ⌊place n p⌋₊ < ⌈place n p⌉₊ := Nat.lt_ceil.mpr hfloor
    have hle := Nat.ceil_le_floor_add_one (place n p)
    omega
  · exact Or.inr ⟨hge, Nat.ceil_le.mpr (sub_nonpos.mp hge)⟩

theorem floor_le_ceil (n : Nat) (p : K) : ⌊place n p⌋₊ ≤ ⌈place n p⌉₊ := Nat.floor_le_ceil _

/-- The quantile lies between the values on both sides of its place. -/
theorem quantile_eq (hp : 0 ≤ p) (hp₁ : p ≤ 1) (hs : s ≠ []) :
    quantile s p = s.getD ⌊place s.length p⌋₊ 0 + fraction s.length p *
      (s.getD ⌈place s.length p⌉₊ 0 - s.getD ⌊place s.length p⌋₊ 0) := by
  have hlen : 0 < s.length := List.length_pos_of_ne_nil hs
  have hceil := ceil_le hp₁ s.length
  simp only [quantile]
  rcases ceil_eq s.length p with ⟨-, hnext⟩ | ⟨hzero, -⟩
  · rw [hnext, fraction, List.getD_eq_getElem _ _ (by omega),
      List.getD_eq_getElem _ _ (by omega), List.getD_eq_getElem _ _ (by omega)]
  · have hfraction : fraction s.length p = 0 := le_antisymm hzero (fraction_nonneg hp _)
    rw [hfraction]
    rw [fraction] at hfraction
    rw [hfraction, zero_mul, zero_mul]

theorem quantile_mem (hsorted : s.Pairwise (· ≤ ·)) (hs : s ≠ []) (hp : 0 ≤ p) (hp₁ : p ≤ 1) :
    smallest s ≤ quantile s p ∧ quantile s p ≤ largest s := by
  have hlen : 0 < s.length := List.length_pos_of_ne_nil hs
  have hceil := ceil_le hp₁ s.length
  have hfloor := floor_le hp₁ s.length
  rw [quantile_eq hp hp₁ hs]
  exact between (getD_mono hsorted (floor_le_ceil _ _) (by omega))
    (getD_mono hsorted (Nat.zero_le _) (by omega)) (getD_mono hsorted hceil (by omega))
    (fraction_nonneg hp _) (fraction_lt_one _ _)

/-- When a quantile lies strictly inside the range. -/
theorem quantile_interior (hsorted : s.Pairwise (· ≤ ·)) (hs : s ≠ []) (hp : 0 ≤ p)
    (hp₁ : p ≤ 1) : (smallest s < quantile s p ∧ quantile s p < largest s) ↔
      smallest s < s.getD ⌈place s.length p⌉₊ 0 ∧ s.getD ⌊place s.length p⌋₊ 0 < largest s := by
  have hlen : 0 < s.length := List.length_pos_of_ne_nil hs
  have hceil := ceil_le hp₁ s.length
  have hfloor := floor_le hp₁ s.length
  have hab := getD_mono hsorted (floor_le_ceil s.length p) (by omega)
  have hlo : smallest s ≤ s.getD ⌊place s.length p⌋₊ 0 :=
    getD_mono hsorted (Nat.zero_le _) (by omega)
  have hhi : s.getD ⌈place s.length p⌉₊ 0 ≤ largest s := getD_mono hsorted hceil (by omega)
  rw [quantile_eq hp hp₁ hs,
    step_lt_iff hab hhi (fraction_nonneg hp _) (fraction_lt_one _ _)]
  refine and_congr_left fun _ => ?_
  rcases ceil_eq s.length p with ⟨hpos, -⟩ | ⟨hzero, hle⟩
  · exact lt_step_iff hab hlo hpos
  · have hfraction : fraction s.length p = 0 := le_antisymm hzero (fraction_nonneg hp _)
    have heq : ⌈place s.length p⌉₊ = ⌊place s.length p⌋₊ :=
      Nat.le_antisymm hle (floor_le_ceil _ _)
    rw [hfraction, zero_mul, add_zero, heq]

theorem quantile_zero (s : List K) : quantile s 0 = smallest s := by
  simp [quantile, place, smallest]

theorem quantile_one (s : List K) : quantile s 1 = largest s := by
  simp [quantile, place, largest]

/-! ## Strictly increasing lists between two bounds -/

variable {α : Type} [LinearOrder α]

/-- A strictly increasing list from `lo` to `hi` is these two with what lies between. -/
theorem ends_of_strict {u : List α} {lo hi : α} (hu : u.Pairwise (· < ·)) (hlo : lo ∈ u)
    (hhi : hi ∈ u) (hne : lo < hi) (hall : ∀ x ∈ u, lo ≤ x ∧ x ≤ hi) :
    ∃ m, u = lo :: (m ++ [hi]) ∧ ∀ x ∈ m, lo < x ∧ x < hi := by
  cases u with
  | nil => cases hlo
  | cons a t =>
    obtain ⟨ha, ht⟩ := List.pairwise_cons.mp hu
    have hfirst : a = lo := by
      rcases List.mem_cons.mp hlo with h | h
      · exact h.symm
      · exact absurd (ha lo h) (not_lt.mpr (hall a List.mem_cons_self).1)
    subst hfirst
    rcases List.eq_nil_or_concat' t with rfl | ⟨m, b, rfl⟩
    · exact absurd (List.mem_singleton.mp hhi) hne.ne'
    · have hpair := List.pairwise_append.mp ht
      have hb : ∀ x ∈ m, x < b := fun x hx => hpair.2.2 x hx b (List.mem_singleton.mpr rfl)
      have hlast : b = hi := by
        rcases List.mem_cons.mp hhi with h | h
        · exact absurd h hne.ne'
        · rcases List.mem_append.mp h with h | h
          · have hle := (hall b (List.mem_cons_of_mem _ (by simp))).2
            exact absurd (hb hi h) (not_lt.mpr hle)
          · exact (List.mem_singleton.mp h).symm
      subst hlast
      exact ⟨m, rfl, fun x hx => ⟨ha x (List.mem_append_left _ hx), hb x hx⟩⟩

end Quantile
