/-
Python strings, exceptions and the values of `json`.
-/
import EdgeFort.Effect.Except
import EdgeFort.Python.Number

namespace EdgeFort

/-! ## Strings -/

/-- A code point of a Python string.  Surrogates are code points of their own. -/
abbrev CodePoint := Fin 0x110000

abbrev PyStr := List CodePoint

instance : LawfulBEq PyStr := inferInstance

/-- `chr(n)` -/
def chr (n : Nat) : CodePoint := Fin.ofNat 0x110000 n

/-- The string a literal of the source denotes. -/
def py (s : String) : PyStr := s.toList.map fun c => chr c.toNat

instance : Coe String PyStr := ⟨py⟩

def isSurrogate (c : CodePoint) : Bool := 0xD800 ≤ c.val && c.val ≤ 0xDFFF

/-- Whether `str.encode("utf-8")` succeeds. -/
def utf8Encodable (s : PyStr) : Bool := s.all fun c => !isSurrogate c

/-! ## Exceptions -/

/-- The exception classes the program raises or catches. -/
inductive ErrClass where
  | validationError | artifactIntegrityError | signatureError | registryError
  | deploymentError | rollbackRejected | healthGateError
  | queueFull | queueDropped | deadlineExceeded | executorClosed
  | executionDeadlineExceeded | backendProcessError | ipcProtocolError
  | valueError | typeError | overflowError | recursionError | unicodeEncodeError
  | unicodeDecodeError | jsonDecodeError | timeoutError | eofError | osError
  | fileNotFoundError | fileExistsError | notADirectoryError
  | keyError | badZipFile | largeZipFile | runtimeError
  deriving DecidableEq, Repr

/-- `type(e).__name__` -/
def ErrClass.name : ErrClass → String
  | validationError => "ValidationError"
  | artifactIntegrityError => "ArtifactIntegrityError"
  | signatureError => "SignatureError"
  | registryError => "RegistryError"
  | deploymentError => "DeploymentError"
  | rollbackRejected => "RollbackRejected"
  | healthGateError => "HealthGateError"
  | queueFull => "QueueFull"
  | queueDropped => "QueueDropped"
  | deadlineExceeded => "DeadlineExceeded"
  | executorClosed => "ExecutorClosed"
  | executionDeadlineExceeded => "ExecutionDeadlineExceeded"
  | backendProcessError => "BackendProcessError"
  | ipcProtocolError => "IPCProtocolError"
  | valueError => "ValueError"
  | typeError => "TypeError"
  | overflowError => "OverflowError"
  | recursionError => "RecursionError"
  | unicodeEncodeError => "UnicodeEncodeError"
  | unicodeDecodeError => "UnicodeDecodeError"
  | jsonDecodeError => "JSONDecodeError"
  | timeoutError => "TimeoutError"
  | eofError => "EOFError"
  | osError => "OSError"
  | fileNotFoundError => "FileNotFoundError"
  | fileExistsError => "FileExistsError"
  | notADirectoryError => "NotADirectoryError"
  | keyError => "KeyError"
  | badZipFile => "BadZipFile"
  | largeZipFile => "LargeZipFile"
  | runtimeError => "RuntimeError"

/-- An exception: its class and `str(e)`. -/
structure PyError where
  cls : ErrClass
  text : PyStr
  deriving DecidableEq, Repr

def raise (cls : ErrClass) (text : PyStr) : PyError := ⟨cls, text⟩

/-- `if c: raise e` -/
def raiseIf (c : Prop) [Decidable c] (e : PyError) : Except PyError Unit :=
  if c then .error e else .ok ()

@[simp] theorem raiseIf_eq_ok {c : Prop} [Decidable c] {e : PyError} {u : Unit} :
    raiseIf c e = .ok u ↔ ¬c := by
  by_cases h : c <;> simp [raiseIf, h]

theorem raiseIf_neg {c : Prop} [Decidable c] {e : PyError} (h : ¬c) : raiseIf c e = .ok () :=
  raiseIf_eq_ok.mpr h

theorem raiseIf_pos {c : Prop} [Decidable c] {e : PyError} (h : c) : raiseIf c e = .error e :=
  if_pos h

theorem raisesOnly_raiseIf {P : PyError → Prop} {c : Prop} [Decidable c] {e : PyError} (h : P e) :
    Effect.RaisesOnly P (raiseIf c e) := by
  by_cases hc : c
  · rw [raiseIf_pos hc]
    exact Effect.raisesOnly_error.mpr h
  · rw [raiseIf_neg hc]
    exact Effect.raisesOnly_ok

/-- `isinstance(e, DeploymentError)` -/
def PyError.isDeploymentError (e : PyError) : Bool :=
  e.cls matches .deploymentError | .rollbackRejected | .healthGateError

/-! ## JSON values -/

/-- A value `json` reads or writes.  An object is its list of items in order. -/
inductive Json where
  | null
  | bool (b : Bool)
  | int (i : Int)
  | float (x : PyFloat)
  | str (s : PyStr)
  | arr (items : List Json)
  | obj (fields : List (PyStr × Json))
  deriving Repr

namespace Json

/-- `d[key]`, for a key the caller has checked to be there. -/
def item (fields : List (PyStr × Json)) (key : PyStr) : Json :=
  (fields.lookup key).getD .null

/-- `set(d) == keys` -/
def keysAre (fields : List (PyStr × Json)) (keys : List PyStr) : Bool :=
  fields.all (fun f => keys.contains f.1) && keys.all fun k => (fields.lookup k).isSome

/-- The number a value counts as in `==`: a boolean is the integer 0 or 1. -/
def num? : Json → Option PyNum
  | bool b => some (.int (if b then 1 else 0))
  | int i => some (.int i)
  | float x => some (.float x)
  | _ => none

/-- `==` between a number and any value. -/
def scalarEq (x y : Json) : Bool :=
  match x.num?, y.num? with
  | some a, some b => a.eq b
  | _, _ => false

mutual
/-- Python's `==`. -/
def pyEq : Json → Json → Bool
  | null, null => true
  | str s, str t => s = t
  | arr xs, arr ys => xs.length = ys.length && itemsEq xs ys
  | obj xs, obj ys => xs.length = ys.length && fieldsEq xs ys
  | bool b, y => scalarEq (bool b) y
  | int i, y => scalarEq (int i) y
  | float x, y => scalarEq (float x) y
  | _, _ => false

def itemsEq : List Json → List Json → Bool
  | [], _ => true
  | _ :: _, [] => false
  | x :: xs, y :: ys => pyEq x y && itemsEq xs ys

def fieldsEq : List (PyStr × Json) → List (PyStr × Json) → Bool
  | [], _ => true
  | (k, x) :: xs, ys =>
    (match ys.lookup k with
      | some y => pyEq x y
      | none => false) && fieldsEq xs ys
end

mutual
/-- A value `strict_json_loads` can return: no key twice in an object, no NaN. -/
def strict : Json → Bool
  | float x => x ≠ .nan
  | arr xs => strictItems xs
  | obj xs => (xs.map Prod.fst).Nodup && strictFields xs
  | _ => true

def strictItems : List Json → Bool
  | [] => true
  | x :: xs => x.strict && strictItems xs

def strictFields : List (PyStr × Json) → Bool
  | [] => true
  | (_, x) :: xs => x.strict && strictFields xs
end

mutual
/-- Whether `canonical_json_bytes` succeeds: `allow_nan=False` refuses infinities
and NaN, and the UTF-8 encoder refuses surrogates. -/
def encodable : Json → Bool
  | float x => x.isFinite64
  | str s => utf8Encodable s
  | arr xs => encodableItems xs
  | obj xs => encodableFields xs
  | _ => true

def encodableItems : List Json → Bool
  | [] => true
  | x :: xs => x.encodable && encodableItems xs

def encodableFields : List (PyStr × Json) → Bool
  | [] => true
  | (k, x) :: xs => utf8Encodable k && x.encodable && encodableFields xs
end

theorem lookup_of_nodup {β : Type} {fields : List (PyStr × β)}
    (h : (fields.map Prod.fst).Nodup) {k : PyStr} {x : β} (hk : (k, x) ∈ fields) :
    fields.lookup k = some x := by
  induction fields with
  | nil => cases hk
  | cons f fields ih =>
    obtain ⟨k', x'⟩ := f
    rw [List.map_cons, List.nodup_cons] at h
    rcases List.mem_cons.mp hk with heq | hmem
    · cases heq
      exact List.lookup_cons_self
    · have hne : k ≠ k' := fun e => h.1 (List.mem_map.mpr ⟨(k, x), hmem, e⟩)
      rw [List.lookup_cons]
      simp only [beq_eq_false_iff_ne.mpr hne, ih h.2 hmem]

mutual
/-- A strict value equals itself.  (A NaN would not, and an object that repeats a
key would compare the repeated value with the first.) -/
theorem pyEq_refl : ∀ x : Json, x.strict = true → x.pyEq x = true
  | null, _ => by simp [pyEq]
  | bool b, _ => by simp [pyEq, scalarEq, num?, PyNum.eq]
  | int i, _ => by simp [pyEq, scalarEq, num?, PyNum.eq]
  | float x, h => by
    have hx : PyNum.float x ≠ .float .nan := by simpa [strict] using h
    simp [pyEq, scalarEq, num?, PyNum.eq_refl hx]
  | str s, _ => by simp [pyEq]
  | arr xs, h => by simpa [pyEq] using itemsEq_refl xs (by simpa [strict] using h)
  | obj xs, h => by
    simp only [strict, Bool.and_eq_true, decide_eq_true_eq] at h
    simpa [pyEq] using fieldsEq_refl xs h.2 xs fun f hf => lookup_of_nodup h.1 hf

theorem itemsEq_refl : ∀ xs : List Json, strictItems xs = true → itemsEq xs xs = true
  | [], _ => rfl
  | x :: xs, h => by
    simp only [strictItems, Bool.and_eq_true] at h
    simp [itemsEq, pyEq_refl x h.1, itemsEq_refl xs h.2]

theorem fieldsEq_refl : ∀ xs : List (PyStr × Json), strictFields xs = true →
    ∀ ys : List (PyStr × Json), (∀ f ∈ xs, ys.lookup f.1 = some f.2) → fieldsEq xs ys = true
  | [], _, _, _ => rfl
  | (k, x) :: xs, h, ys, hys => by
    simp only [strictFields, Bool.and_eq_true] at h
    have hk : ys.lookup k = some x := hys (k, x) List.mem_cons_self
    simp [fieldsEq, hk, pyEq_refl x h.1,
      fieldsEq_refl xs h.2 ys fun g hg => hys g (List.mem_cons_of_mem _ hg)]
end

end Json

end EdgeFort
