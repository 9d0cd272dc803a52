/-
`MemoryRollbackAnchor` (`rollback_anchor.py`).

As a sequential object it is made by the first construction and keeps its value through the
later ones, which only check their argument.
-/
import EdgeFort.Effect.Linearizable
import EdgeFort.Python.Object
import EdgeFort.Registry.Version

namespace EdgeFort
namespace Anchor

open Effect

/-- The values `_validate` lets through. -/
abbrev Floor := {i : Int // -1 ≤ i ∧ i ≤ maxReleaseSequence}

def invalidValue : PyError :=
  raise .valueError (py "rollback anchor value must be an integer in [-1, " ++
    Json.intRepr maxReleaseSequence ++ py "]")

/-- The integer an argument is, if it is one and no boolean. -/
def argument? : PyObject → Option Int
  | .int i => some i
  | _ => none

/-- `_validate` -/
def validate : Option Int → Except PyError Floor
  | some i => if h : -1 ≤ i ∧ i ≤ maxReleaseSequence then .ok ⟨i, h⟩ else .error invalidValue
  | none => .error invalidValue

def cannotDecrease : PyError := raise .deploymentError "rollback anchor cannot decrease"

structure MemoryRollbackAnchor where
  value : Floor

namespace MemoryRollbackAnchor

/-- `MemoryRollbackAnchor(initial)` -/
def init (initial : PyObject) : Except PyError MemoryRollbackAnchor := do
  let value ← validate (argument? initial)
  return ⟨value⟩

def readFloor (A : MemoryRollbackAnchor) : Int := A.value

def advanceTo (A : MemoryRollbackAnchor) (releaseSequence : PyObject) :
    Except PyError Int × MemoryRollbackAnchor :=
  match validate (argument? releaseSequence) with
  | .error e => (.error e, A)
  | .ok r => if r.val < A.value.val then (.error cannotDecrease, A) else (.ok r.val, ⟨r⟩)

end MemoryRollbackAnchor

/-- A construction or a method call.  `ι` are the instances. -/
inductive AnchorCall (ι : Type) where
  | construct (i : ι) (initial : PyObject)
  | readFloor (i : ι)
  | advanceTo (i : ι) (releaseSequence : PyObject)

variable {ι : Type}

abbrev Object (ι : Type) :=
  SeqObject (AnchorCall ι) (Except PyError (Option Int)) (Option MemoryRollbackAnchor)

/-- One anchor for all calls.  A method answers with the floor, a construction with nothing. -/
def memoryAnchor : Object ι where
  step
    | none, .construct _ initial =>
      match MemoryRollbackAnchor.init initial with
      | .ok A => (.ok none, some A)
      | .error e => (.error e, none)
    | some A, .construct _ initial =>
      ((MemoryRollbackAnchor.init initial).map fun _ => none, some A)
    | some A, .readFloor _ => (.ok (some A.readFloor), some A)
    | some A, .advanceTo _ releaseSequence =>
      let (answer, A') := A.advanceTo releaseSequence
      (answer.map some, some A')
    | none, _ => (.error (raise .valueError "no rollback anchor"), none)

/-- The floor of an anchor that is made is at least that of one before. -/
def Below : Option MemoryRollbackAnchor → Option MemoryRollbackAnchor → Prop
  | none, _ => True
  | some _, none => False
  | some A, some B => A.value.val ≤ B.value.val

theorem Below.refl (v : Option MemoryRollbackAnchor) : Below v v := by
  cases v with
  | none => trivial
  | some A => exact le_refl A.value.val

theorem Below.trans {a b c : Option MemoryRollbackAnchor} (hab : Below a b) (hbc : Below b c) :
    Below a c := by
  rcases a with _ | A <;> rcases b with _ | B <;> rcases c with _ | C
  case some.some.some => exact le_trans hab hbc
  all_goals trivial

theorem below_step (v : Option MemoryRollbackAnchor) (a : AnchorCall ι) :
    Below v (memoryAnchor.step v a).2 := by
  cases v with
  | none => trivial
  | some A =>
    cases a with
    | construct i initial => exact Below.refl _
    | readFloor i => exact Below.refl _
    | advanceTo i r =>
      simp only [memoryAnchor, MemoryRollbackAnchor.advanceTo]
      cases validate (argument? r) with
      | error e => exact le_refl A.value.val
      | ok r =>
        simp only
        split_ifs with hlt
        · exact le_refl A.value.val
        · exact not_lt.mp hlt

/-- The anchor never decreases. -/
theorem below_replays {v v' : Option MemoryRollbackAnchor}
    {lin : List (Effected (AnchorCall ι) (Except PyError (Option Int)))}
    (h : memoryAnchor.Replays v lin v') : Below v v' :=
  h.rel Below.refl Below.trans below_step

/-- What an advance that succeeds leaves. -/
theorem value_advanceTo {v : Option MemoryRollbackAnchor} {i : ι} {r : Int} {x : Option Int}
    (h : (memoryAnchor.step v (.advanceTo i (.int r))).1 = .ok x) :
    ∃ A, (memoryAnchor.step v (.advanceTo i (.int r))).2 = some A ∧ A.value.val = r := by
  cases v with
  | none => cases h
  | some A =>
    simp only [memoryAnchor, MemoryRollbackAnchor.advanceTo, argument?, validate] at h ⊢
    split_ifs at h ⊢ with hr
    · simp only at h ⊢
      split_ifs at h ⊢ with hlt
      · simp [Except.map] at h
      · exact ⟨⟨⟨r, hr⟩⟩, rfl, rfl⟩
    · simp [Except.map] at h

/-- What a read answers. -/
theorem value_readFloor {v : Option MemoryRollbackAnchor} {i : ι} {n : Int}
    (h : (memoryAnchor.step v (.readFloor i)).1 = .ok (some n)) :
    ∃ A, v = some A ∧ A.value.val = n := by
  cases v with
  | none => cases h
  | some A => exact ⟨A, rfl, by simpa [memoryAnchor, MemoryRollbackAnchor.readFloor] using h⟩

end Anchor
end EdgeFort
