/-
binary32 arithmetic.  An operation gives the float32 nearest to the exact result,
ties to even, or an infinity past the largest.
-/
import EdgeFort.Python.Number
import Mathlib.Algebra.Order.Ring.Rat

namespace EdgeFort

namespace PyFloat

/-- The sign bit. -/
def signbit : PyFloat → Bool
  | nan => false
  | inf s => s
  | negZero => true
  | finite q => q < 0

/-- A zero of a sign. -/
def zero (negative : Bool) : PyFloat := if negative then negZero else finite 0

/-- `np.abs` -/
def abs : PyFloat → PyFloat
  | nan => nan
  | inf _ => inf false
  | negZero => finite 0
  | finite q => finite (if q < 0 then -q else q)

/-- `np.maximum`: a NaN on either side is the result. -/
def maximum : PyFloat → PyFloat → PyFloat
  | nan, _ | _, nan => nan
  | x, y => if (PyNum.float x).lt (.float y) then y else x

/-- `np.rint` -/
def rint : PyFloat → PyFloat
  | finite q =>
    if roundHalfEven q = 0 then zero (q < 0) else finite (roundHalfEven q)
  | x => x

/-- `np.clip(x, lo, hi)` -/
def clip (lo hi : Rat) : PyFloat → PyFloat
  | nan => nan
  | inf s => finite (if s then lo else hi)
  | x =>
    let q := x.rat?.getD 0
    if q < lo then finite lo else if hi < q then finite hi else x

end PyFloat

namespace Binary32

open PyFloat

/-- The float32 nearest to `q`. -/
def round (q : Rat) : PyFloat :=
  if q = 0 then finite 0
  else
    let a := if q < 0 then -q else q
    let ulp : Rat := (2 : Rat) ^ (max (exponent a) (-126) - 23)
    let v := (roundHalfEven (a / ulp) : Rat) * ulp
    if v = 0 then zero (q < 0)
    else if (2 : Rat) ^ (128 : Int) ≤ v then inf (q < 0)
    else finite (if q < 0 then -v else v)

/-- `astype(np.float32)` of a float. -/
def ofFloat : PyFloat → PyFloat
  | finite q => round q
  | x => x

def add : PyFloat → PyFloat → PyFloat
  | nan, _ | _, nan => nan
  | inf s, inf t => if s = t then inf s else nan
  | inf s, _ | _, inf s => inf s
  | negZero, negZero => negZero
  | a, b => round (a.rat?.getD 0 + b.rat?.getD 0)

def mul (a b : PyFloat) : PyFloat :=
  let s := a.signbit ^^ b.signbit
  match a, b with
  | nan, _ | _, nan => nan
  | inf _, y => if y.rat? = some 0 then nan else inf s
  | x, inf _ => if x.rat? = some 0 then nan else inf s
  | x, y =>
    let q := x.rat?.getD 0 * y.rat?.getD 0
    if q = 0 then zero s else round q

def div (a b : PyFloat) : PyFloat :=
  let s := a.signbit ^^ b.signbit
  match a, b with
  | nan, _ | _, nan => nan
  | inf _, inf _ => nan
  | inf _, _ => inf s
  | _, inf _ => zero s
  | x, y =>
    if y.rat? = some 0 then (if x.rat? = some 0 then nan else inf s)
    else
      let q := x.rat?.getD 0 / y.rat?.getD 0
      if q = 0 then zero s else round q

end Binary32

namespace PyFloat

/-- The integer part of a rational, towards zero. -/
def truncate (q : Rat) : Int := if 0 ≤ q then q.floor else q.ceil

/-- A clipped value lies between the bounds. -/
theorem rat_clip {lo hi : Rat} (h : lo ≤ hi) {x : PyFloat} {q : Rat}
    (hq : (clip lo hi x).rat? = some q) : lo ≤ q ∧ q ≤ hi := by
  have hbetween : ∀ y : PyFloat, y.isfinite = true →
      (if y.rat?.getD 0 < lo then finite lo
        else if hi < y.rat?.getD 0 then finite hi else y).rat? = some q → lo ≤ q ∧ q ≤ hi := by
    intro y hy hsome
    split_ifs at hsome with hlo hhi
    · cases hsome
      exact ⟨le_refl lo, h⟩
    · cases hsome
      exact ⟨h, le_refl hi⟩
    · rw [hsome] at hlo hhi
      exact ⟨not_lt.mp hlo, not_lt.mp hhi⟩
  match x with
  | nan => cases hq
  | inf true =>
    cases hq
    exact ⟨le_refl lo, h⟩
  | inf false =>
    cases hq
    exact ⟨h, le_refl hi⟩
  | negZero => exact hbetween negZero rfl hq
  | finite r => exact hbetween (finite r) rfl hq

theorem truncate_mem {lo hi : Int} {q : Rat} (hlo : (lo : Rat) ≤ q) (hhi : q ≤ hi) :
    lo ≤ truncate q ∧ truncate q ≤ hi := by
  have hfloor : lo ≤ q.floor ∧ q.floor ≤ hi :=
    ⟨Rat.le_floor_iff.mpr hlo, Rat.intCast_le_intCast.mp ((Rat.floor_le q).trans hhi)⟩
  have hceil : lo ≤ q.ceil ∧ q.ceil ≤ hi :=
    ⟨Rat.intCast_le_intCast.mp (hlo.trans Rat.le_ceil), Rat.ceil_le_iff.mpr hhi⟩
  unfold truncate
  split_ifs
  · exact hfloor
  · exact hceil

end PyFloat

end EdgeFort
