/-
Python numbers.

`PyFloat` has the values of a binary64 float, a finite one by its exact rational
value.  Comparison between integers and floats is by exact value, as Python
compares them; subtraction rounds to the nearest float, ties to even.
-/
import Mathlib.Data.Rat.Defs
import Mathlib.Tactic.SplitIfs

namespace EdgeFort

/-- A binary64 float.  `negZero` is kept apart because it prints differently. -/
inductive PyFloat where
  | nan
  | inf (negative : Bool)
  | negZero
  | finite (value : Rat)
  deriving DecidableEq, Repr

namespace PyFloat

/-- The exact value of a finite float. -/
def rat? : PyFloat → Option Rat
  | finite q => some q
  | negZero => some 0
  | _ => none

def isfinite (x : PyFloat) : Bool := x.rat?.isSome

/-- The integer nearest to `q`, ties to even. -/
def roundHalfEven (q : Rat) : Int :=
  let n := q.floor
  let r := q - n
  if r < 1 / 2 then n
  else if 1 / 2 < r then n + 1
  else if n % 2 = 0 then n else n + 1

/-- The exponent `e` with `2 ^ e ≤ a < 2 ^ (e + 1)`, for positive `a`. -/
def exponent (a : Rat) : Int :=
  let e : Int := (Nat.log2 a.num.natAbs : Int) - (Nat.log2 a.den : Int)
  if a < (2 : Rat) ^ e then e - 1 else e

/-- The float nearest to `q`. -/
def round (q : Rat) : PyFloat :=
  if q = 0 then finite 0
  else
    let a := if q < 0 then -q else q
    let ulp : Rat := (2 : Rat) ^ (max (exponent a) (-1022) - 52)
    let v := (roundHalfEven (a / ulp) : Rat) * ulp
    if v = 0 then (if q < 0 then negZero else finite 0)
    else if (2 : Rat) ^ (1024 : Int) ≤ v then inf (q < 0)
    else finite (if q < 0 then -v else v)

/-- Whether `x` is a finite value of binary64.  `finite` holds any rational; a Python float
is one that rounding leaves as it is. -/
def isFinite64 : PyFloat → Bool
  | finite q => round q = finite q
  | negZero => true
  | _ => false

theorem round_ne_nan (q : Rat) : round q ≠ nan := by
  unfold round
  simp only
  split_ifs <;> exact PyFloat.noConfusion

def sub : PyFloat → PyFloat → PyFloat
  | nan, _ | _, nan => nan
  | inf s, inf t => if s = t then nan else inf s
  | inf s, _ => inf s
  | _, inf t => inf !t
  | negZero, finite 0 => negZero
  | a, b => round (a.rat?.getD 0 - b.rat?.getD 0)

def add : PyFloat → PyFloat → PyFloat
  | nan, _ | _, nan => nan
  | inf s, inf t => if s = t then inf s else nan
  | inf s, _ | _, inf s => inf s
  | negZero, negZero => negZero
  | a, b => round (a.rat?.getD 0 + b.rat?.getD 0)

theorem sub_self {x : PyFloat} (h : x.isfinite = true) : x.sub x = finite 0 := by
  match x, h with
  | negZero, _ | finite q, _ => simp [sub, rat?, round]

end PyFloat

/-- What Python's arithmetic works on: an integer or a float. -/
inductive PyNum where
  | int (i : Int)
  | float (x : PyFloat)
  deriving DecidableEq, Repr

namespace PyNum

/-- `x < y` by exact value; every comparison with a NaN is false. -/
def lt : PyNum → PyNum → Bool
  | .float .nan, _ | _, .float .nan => false
  | .float (.inf s), .float (.inf t) => s && !t
  | .float (.inf s), _ => s
  | _, .float (.inf t) => !t
  | .int a, .int b => a < b
  | .int a, .float y => (a : Rat) < y.rat?.getD 0
  | .float x, .int b => x.rat?.getD 0 < (b : Rat)
  | .float x, .float y => x.rat?.getD 0 < y.rat?.getD 0

def eq : PyNum → PyNum → Bool
  | .float .nan, _ | _, .float .nan => false
  | .float (.inf s), .float (.inf t) => s = t
  | .float (.inf _), _ | _, .float (.inf _) => false
  | .int a, .int b => a = b
  | .int a, .float y => (a : Rat) = y.rat?.getD 0
  | .float x, .int b => x.rat?.getD 0 = (b : Rat)
  | .float x, .float y => x.rat?.getD 0 = y.rat?.getD 0

def le (x y : PyNum) : Bool := x.lt y || x.eq y

theorem eq_refl {x : PyNum} (h : x ≠ .float .nan) : x.eq x = true := by
  match x, h with
  | .int _, _ => simp [eq]
  | .float (.inf _), _ => simp [eq]
  | .float .negZero, _ => simp [eq]
  | .float (.finite _), _ => simp [eq]

/-- The float of a number; `none` is the `OverflowError` of an integer no float
can hold. -/
def toFloat? : PyNum → Option PyFloat
  | .float x => some x
  | .int i => match PyFloat.round i with
    | .inf _ => none
    | x => some x

end PyNum

end EdgeFort
