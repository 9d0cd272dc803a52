/-
Values of a configuration file and the checks of single values.

A check takes any value.  What it accepts is a set of values: integers that are no
booleans, or numbers whose exact value is in a range.
-/
import EdgeFort.Python.Utf8
import EdgeFort.Registry.ManifestErrors
import Mathlib.Data.Int.ConditionallyCompleteOrder
import Mathlib.Data.Set.Insert
import Mathlib.Order.Interval.Set.Defs

namespace EdgeFort

/-- What `yaml.SafeLoader` makes of a node. -/
inductive Yaml where
  | null
  | bool (b : Bool)
  | int (i : Int)
  | float (x : PyFloat)
  | str (s : PyStr)
  | bytes (b : Bytes)
  | date (iso : PyStr)
  | datetime (iso : PyStr)
  | list (items : List Yaml)
  | dict (items : List (Yaml × Yaml))
  | set (items : List Yaml)
  deriving Repr

/-- What the program gets from the interpreter and from NumPy. -/
structure Host where
  /-- `repr(v)` -/
  repr : Yaml → PyStr
  /-- `bool(np.isfinite(v))` -/
  isfinite : Yaml → Except PyError Bool

/-- The integers of NumPy's int64 and uint64. -/
def numpyInts : Set ℤ := Set.Ico (-9223372036854775808) 18446744073709551616

/-- `np.isfinite` on numbers.  An integer past 64 bits becomes an object, on which it
raises. -/
structure Host.Lawful (H : Host) : Prop where
  isfinite_bool : ∀ b, H.isfinite (.bool b) = .ok true
  isfinite_float : ∀ x, H.isfinite (.float x) = .ok x.isfinite
  isfinite_int : ∀ i ∈ numpyInts, H.isfinite (.int i) = .ok true
  isfinite_object : ∀ i ∉ numpyInts, ∃ e, H.isfinite (.int i) = .error e

open Effect

/-! ## Numbers by exact value -/

namespace PyNum

def rat? : PyNum → Option Rat
  | int i => some i
  | float x => x.rat?

variable {m n : PyNum} {a b : Rat}

theorem lt_eq_decide (hm : m.rat? = some a) (hn : n.rat? = some b) : m.lt n = decide (a < b) := by
  rcases m with i | (_ | _ | _ | p) <;> rcases n with j | (_ | _ | _ | q) <;>
    simp_all [rat?, PyFloat.rat?, lt]
  rw [← hm, ← hn, Int.cast_lt]

theorem eq_eq_decide (hm : m.rat? = some a) (hn : n.rat? = some b) : m.eq n = decide (a = b) := by
  rcases m with i | (_ | _ | _ | p) <;> rcases n with j | (_ | _ | _ | q) <;>
    simp_all [rat?, PyFloat.rat?, eq]
  rw [← hm, ← hn, Int.cast_inj]

theorem le_iff (hm : m.rat? = some a) (hn : n.rat? = some b) : m.le n = true ↔ a ≤ b := by
  rw [le, lt_eq_decide hm hn, eq_eq_decide hm hn, Bool.or_eq_true, decide_eq_true_eq,
    decide_eq_true_eq, ← le_iff_lt_or_eq]

theorem lt_iff (hm : m.rat? = some a) (hn : n.rat? = some b) : m.lt n = true ↔ a < b := by
  rw [lt_eq_decide hm hn, decide_eq_true_eq]

end PyNum

namespace Yaml

/-- The type of a value in an error text. -/
def typeName : Yaml → PyStr
  | null => "NoneType"
  | bool _ => "bool"
  | int _ => "int"
  | float _ => "float"
  | str _ => "str"
  | bytes _ => "bytes"
  | date _ => "datetime.date"
  | datetime _ => "datetime.datetime"
  | list _ => "list"
  | dict _ => "dict"
  | set _ => "set"

/-- The number a value counts as in a comparison. -/
def num? : Yaml → Option PyNum
  | bool b => some (.int (if b then 1 else 0))
  | int i => some (.int i)
  | float x => some (.float x)
  | _ => none

/-- The number, if the value is one and no boolean. -/
def number? : Yaml → Option PyNum
  | int i => some (.int i)
  | float x => some (.float x)
  | _ => none

def int? : Yaml → Option Int
  | int i => some i
  | _ => none

/-! ## Sets of values -/

/-- Numbers with a value in a range. -/
def numbers (s : Set Rat) : Set Yaml := {v | ∃ n q, v.number? = some n ∧ n.rat? = some q ∧ q ∈ s}

/-- Numbers with a value in a range that convert to a float. -/
def floats (s : Set Rat) : Set Yaml :=
  {v | ∃ n q x, v.number? = some n ∧ n.toFloat? = some x ∧ n.rat? = some q ∧ q ∈ s}

/-- What NumPy finds finite and counts as a number in a range.  A boolean is 0 or 1. -/
def numpyNumbers (s : Set Rat) : Set Yaml :=
  {v | (∀ i, v = .int i → i ∈ numpyInts) ∧ ∃ n q, v.num? = some n ∧ n.rat? = some q ∧ q ∈ s}

def orNull (r : Set Yaml) : Set Yaml := insert .null r

end Yaml

/-! ## The checks -/

section Checks

variable {α β : Type}

/-- The call returns. -/
def Accepts (x : Except PyError α) : Prop := ∃ a, x = .ok a

theorem accepts_ok {a : α} : Accepts (.ok a) := ⟨a, rfl⟩

theorem accepts_pure {a : α} : Accepts (pure a) := ⟨a, rfl⟩

theorem accepts_bind {x : Except PyError α} {f : α → Except PyError β} (hx : Accepts x)
    (hf : ∀ a, Accepts (f a)) : Accepts (x >>= f) := by
  obtain ⟨a, rfl⟩ := hx
  exact hf a

/-- A check, and then others that do not depend on its result. -/
theorem accepts_bind_iff {x : Except PyError α} {f : α → Except PyError β} {P : Prop}
    (hf : ∀ a, Accepts (f a) ↔ P) : Accepts (x >>= f) ↔ Accepts x ∧ P := by
  cases x with
  | error e => exact ⟨fun ⟨_, h⟩ => (error_ne_ok h).elim, fun ⟨⟨_, h⟩, _⟩ => (error_ne_ok h).elim⟩
  | ok a => exact ⟨fun h => ⟨accepts_ok, (hf a).mp h⟩, fun h => (hf a).mpr h.2⟩

theorem accepts_seq {x : Except PyError α} {y : Except PyError β} :
    Accepts (x >>= fun _ => y) ↔ Accepts x ∧ Accepts y :=
  accepts_bind_iff fun _ => Iff.rfl

theorem accepts_pure_iff {a : α} : Accepts (pure a) ↔ True := iff_true_intro accepts_pure

theorem accepts_raiseIf {c : Prop} [Decidable c] {e : PyError} : Accepts (raiseIf c e) ↔ ¬c :=
  ⟨fun ⟨_, h⟩ => raiseIf_eq_ok.mp h, fun h => ⟨(), raiseIf_neg h⟩⟩

/-- `isinstance(v, bool) or not isinstance(v, int)`, or out of range -/
def checkedInt (p : Int → Prop) [DecidablePred p] (e : PyError) (v : Yaml) :
    Except PyError {i : Int // p i} :=
  match v.int? with
  | none => .error e
  | some i => if h : p i then .ok ⟨i, h⟩ else .error e

/-- A number and `float` of it. -/
structure FiniteNumber where
  number : PyNum
  float : PyFloat
  converts : number.toFloat? = some float
  finite : float.isfinite = true

/-- `isinstance(v, bool) or not isinstance(v, (int, float))`, or not finite, or refused -/
def checkedNumber (refused : PyNum → Bool) (e : PyError) (v : Yaml) :
    Except PyError FiniteNumber :=
  match v.number? with
  | none => .error e
  | some n =>
    match hx : n.toFloat? with
    | none => .error (raise .overflowError "int too large to convert to float")
    | some x => if h : x.isfinite = true ∧ refused n = false then .ok ⟨n, x, hx, h.1⟩ else .error e

/-- `v is not None and …` -/
def optional (check : Yaml → Except PyError α) : Yaml → Except PyError (Option α)
  | .null => .ok none
  | v => do
    let a ← check v
    return some a

/-- What an optional check gives is none for `None` alone. -/
theorem optional_isNone {check : Yaml → Except PyError α} {v : Yaml} {a : Option α}
    (h : optional check v = .ok a) : a.isNone = true ↔ v = .null := by
  cases v with
  | null =>
    obtain rfl := Except.ok.inj h
    exact ⟨fun _ => rfl, fun _ => rfl⟩
  | _ =>
    obtain ⟨b, -, hb⟩ := bind_eq_ok.mp h
    obtain rfl := Except.ok.inj hb
    exact ⟨nofun, nofun⟩

/-- `Enum(v)`, for a class whose values are strings. -/
def enumMember (H : Host) (cls : PyStr) (members : List (PyStr × α)) (v : Yaml) :
    Except PyError α :=
  match v with
  | .str s =>
    match members.lookup s with
    | some a => .ok a
    | none => .error (raise .valueError (H.repr v ++ " is not a valid " ++ cls))
  | v => .error (raise .valueError (H.repr v ++ " is not a valid " ++ cls))

variable {p : Int → Prop} [DecidablePred p] {refused : PyNum → Bool} {e : PyError} {v : Yaml}

theorem accepts_checkedInt {s : Set ℤ} (hp : ∀ i, p i ↔ i ∈ s) :
    Accepts (checkedInt p e v) ↔ v ∈ Yaml.int '' s := by
  constructor
  · rintro ⟨a, h⟩
    cases v with
    | int i =>
      by_cases hi : p i
      · exact ⟨i, (hp i).mp hi, rfl⟩
      · simp [checkedInt, Yaml.int?, hi] at h
    | _ => exact (error_ne_ok h).elim
  · rintro ⟨i, hi, rfl⟩
    exact ⟨⟨i, (hp i).mpr hi⟩, dif_pos ((hp i).mpr hi)⟩

theorem accepts_range {lo hi : Int} :
    Accepts (checkedInt (fun i => lo ≤ i ∧ i ≤ hi) e v) ↔ v ∈ Yaml.int '' Set.Icc lo hi :=
  accepts_checkedInt fun _ => Iff.rfl

theorem accepts_min {lo : Int} :
    Accepts (checkedInt (fun i => lo ≤ i) e v) ↔ v ∈ Yaml.int '' Set.Ici lo :=
  accepts_checkedInt fun _ => Iff.rfl

theorem rat?_of_isfinite {n : PyNum} {x : PyFloat} (hx : n.toFloat? = some x)
    (hfinite : x.isfinite = true) : ∃ q, n.rat? = some q := by
  cases n with
  | int i => exact ⟨i, rfl⟩
  | float y =>
    obtain rfl := Option.some.inj hx
    exact Option.isSome_iff_exists.mp hfinite

theorem isfinite_of_rat? {n : PyNum} {x : PyFloat} {q : Rat} (hx : n.toFloat? = some x)
    (hq : n.rat? = some q) : x.isfinite = true := by
  have hfinite : n.Finite := by
    cases n with
    | int i => trivial
    | float y => exact Option.isSome_iff_exists.mpr ⟨q, hq⟩
  obtain hnone | ⟨f, hf, hfin⟩ := hfinite.toFloat
  · rw [hnone] at hx
    cases hx
  · rw [hf] at hx
    exact Option.some.inj hx ▸ hfin

theorem accepts_checkedNumber {s : Set Rat}
    (hs : ∀ n q, n.rat? = some q → (refused n = false ↔ q ∈ s)) :
    Accepts (checkedNumber refused e v) ↔ v ∈ Yaml.floats s := by
  constructor
  · rintro ⟨x, h⟩
    unfold checkedNumber at h
    split at h
    · cases h
    · rename_i n hn
      split at h
      · cases h
      · rename_i y hy
        by_cases hok : y.isfinite = true ∧ refused n = false
        · obtain ⟨q, hq⟩ := rat?_of_isfinite hy hok.1
          exact ⟨n, q, y, hn, hy, hq, (hs n q hq).mp hok.2⟩
        · rw [dif_neg hok] at h
          cases h
  · rintro ⟨n, q, x, hn, hx, hq, hmem⟩
    refine ⟨⟨n, x, hx, isfinite_of_rat? hx hq⟩, ?_⟩
    unfold checkedNumber
    split
    · simp_all
    · rename_i m hm
      obtain rfl := Option.some.inj (hn.symm.trans hm)
      split
      · simp_all
      · rename_i y hy
        obtain rfl := Option.some.inj (hx.symm.trans hy)
        rw [dif_pos ⟨isfinite_of_rat? hx hq, (hs n q hq).mpr hmem⟩]

theorem refused_le_zero {n : PyNum} {q : Rat} (hq : n.rat? = some q) :
    n.le (.int 0) = false ↔ q ∈ Set.Ioi 0 := by
  rw [← Bool.not_eq_true, PyNum.le_iff hq (show (PyNum.int 0).rat? = some 0 from rfl), not_le,
    Set.mem_Ioi]

theorem refused_lt_zero {n : PyNum} {q : Rat} (hq : n.rat? = some q) :
    n.lt (.int 0) = false ↔ q ∈ Set.Ici 0 := by
  rw [← Bool.not_eq_true, PyNum.lt_iff hq (show (PyNum.int 0).rat? = some 0 from rfl), not_lt,
    Set.mem_Ici]

theorem optional_of_ne {check : Yaml → Except PyError α} (hv : v ≠ .null) :
    optional check v = check v >>= fun a => .ok (some a) := by
  cases v with
  | null => exact absurd rfl hv
  | _ => rfl

theorem accepts_optional {check : Yaml → Except PyError α} {r : Set Yaml}
    (hr : Accepts (check v) ↔ v ∈ r) : Accepts (optional check v) ↔ v ∈ Yaml.orNull r := by
  by_cases hv : v = .null
  · subst hv
    exact ⟨fun _ => Set.mem_insert _ _, fun _ => accepts_ok⟩
  · rw [optional_of_ne hv, Yaml.orNull, Set.mem_insert_iff, ← hr]
    constructor
    · rintro ⟨a, h⟩
      obtain ⟨b, hb, -⟩ := bind_eq_ok.mp h
      exact Or.inr ⟨b, hb⟩
    · rintro (hnull | haccepts)
      · exact absurd hnull hv
      · exact accepts_bind haccepts fun _ => accepts_ok

/-- An optional check, and then others that depend on whether there is a value. -/
theorem accepts_optional_bind {check : Yaml → Except PyError α}
    {f : Option α → Except PyError β} {P : Prop → Prop}
    (hf : ∀ a, Accepts (f a) ↔ P (a.isNone = true)) :
    Accepts (optional check v >>= f) ↔ Accepts (optional check v) ∧ P (v = .null) := by
  constructor
  · rintro ⟨b, h⟩
    obtain ⟨a, ha, hb⟩ := bind_eq_ok.mp h
    rw [← propext (optional_isNone ha)]
    exact ⟨⟨a, ha⟩, (hf a).mp ⟨b, hb⟩⟩
  · rintro ⟨⟨a, ha⟩, hP⟩
    rw [← propext (optional_isNone ha)] at hP
    rw [ha]
    exact (hf a).mpr hP

/-- A member is found by its value alone. -/
theorem enumMember_ok {H : Host} {cls : PyStr} {members : List (PyStr × α)} {value : α → PyStr}
    {a : α} (hvalue : ∀ f ∈ members, f.1 = value f.2) (h : enumMember H cls members v = .ok a) :
    v = .str (value a) := by
  cases v with
  | str s =>
    simp only [enumMember] at h
    cases hs : members.lookup s with
    | none =>
      rw [hs] at h
      cases h
    | some b =>
      rw [hs] at h
      obtain rfl := Except.ok.inj h
      obtain ⟨l₁, l₂, rfl, -⟩ := List.lookup_eq_some_iff.mp hs
      exact congrArg Yaml.str (hvalue (s, b) (List.mem_append_right _ List.mem_cons_self))
  | _ => cases h

end Checks

end EdgeFort
