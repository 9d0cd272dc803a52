/-
The checks of what a configuration is passed to: the health policy, the qualification
limits, the engine, the executor and the application.

Each constructor checks its own arguments again and accepts the values in its own ranges.
-/
import EdgeFort.Config.Values
import EdgeFort.Deploy.Health
import EdgeFort.Ipc.Qualification
import EdgeFort.Runtime.Queue

namespace EdgeFort
namespace Config

open Effect

def valueError (text : PyStr) : PyError := raise .valueError text

/-! ## `HealthPolicy` -/

/-- `all(np.isfinite(v) for v in vals)` -/
def allFinite (H : Host) : List Yaml → Except PyError Bool
  | [] => .ok true
  | v :: vs => do
    let finite ← H.isfinite v
    if finite then allFinite H vs else return false

/-- `<=` between values that have no order. -/
def unorderable (left right : PyStr) : PyError :=
  raise .typeError (py "'<=' not supported between instances of '" ++ left ++ py "' and '" ++
    right ++ py "'")

/-- `if not 0 <= v <= 1` -/
def unitInterval (name : PyStr) (v : Yaml) : Except PyError PyNum :=
  match v.num? with
  | none => .error (unorderable "int" v.typeName)
  | some n => do
    raiseIf (¬((PyNum.int 0).le n = true ∧ n.le (.int 1) = true))
      (valueError (name ++ py " outside [0,1]"))
    return n

/-- One of the two tests of `if v <= 0 or …` -/
def resourceLimit (v : Yaml) : Except PyError PyNum :=
  match v.num? with
  | none => .error (unorderable v.typeName "int")
  | some n => do
    raiseIf (n.le (.int 0) = true) (valueError "resource limits must be positive")
    return n

/-- `HealthPolicy.__post_init__` -/
def healthPolicy (H : Host) (minAccuracy maxAccuracyDrop maxEce maxP95LatencyMs maxRssMb : Yaml) :
    Except PyError HealthPolicy := do
  let finite ← allFinite H [minAccuracy, maxAccuracyDrop, maxEce, maxP95LatencyMs, maxRssMb]
  raiseIf (finite = false) (valueError "health policy must be finite")
  let minAccuracy ← unitInterval "min_accuracy" minAccuracy
  let maxAccuracyDrop ← unitInterval "max_accuracy_drop" maxAccuracyDrop
  let maxEce ← unitInterval "max_ece" maxEce
  let maxP95LatencyMs ← resourceLimit maxP95LatencyMs
  let maxRssMb ← resourceLimit maxRssMb
  return {
    minAccuracy := minAccuracy
    maxAccuracyDrop := maxAccuracyDrop
    maxEce := maxEce
    maxP95LatencyMs := maxP95LatencyMs
    maxRssMb := maxRssMb }

section Health

variable {H : Host} {v : Yaml} {n : PyNum}

theorem allFinite_eq_true {vs : List Yaml} :
    allFinite H vs = .ok true ↔ ∀ v ∈ vs, H.isfinite v = .ok true := by
  induction vs with
  | nil => exact ⟨fun _ => nofun, fun _ => rfl⟩
  | cons v vs ih =>
    rw [List.forall_mem_cons, ← ih, allFinite]
    cases hv : H.isfinite v with
    | error e => exact ⟨fun h => (error_ne_ok h).elim, fun h => (error_ne_ok h.1).elim⟩
    | ok finite => cases finite <;> simp [ok_bind, pure, Except.pure]

/-- NumPy finds a number finite if it has an exact value and, as an integer, 64 bits. -/
theorem isfinite_iff (hH : H.Lawful) (hn : v.num? = some n) :
    H.isfinite v = .ok true ↔ (∀ i, v = .int i → i ∈ numpyInts) ∧ ∃ q, n.rat? = some q := by
  cases v with
  | bool b =>
    obtain rfl := Option.some.inj hn
    exact ⟨fun _ => ⟨nofun, _, rfl⟩, fun _ => hH.isfinite_bool b⟩
  | int i =>
    obtain rfl := Option.some.inj hn
    constructor
    · intro h
      refine ⟨?_, i, rfl⟩
      rintro j ⟨⟩
      by_contra hi
      obtain ⟨e, he⟩ := hH.isfinite_object i hi
      rw [he] at h
      cases h
    · exact fun h => hH.isfinite_int i (h.1 i rfl)
  | float x =>
    obtain rfl := Option.some.inj hn
    rw [hH.isfinite_float, Except.ok.injEq]
    exact ⟨fun h => ⟨nofun, Option.isSome_iff_exists.mp h⟩,
      fun h => Option.isSome_iff_exists.mpr h.2⟩
  | _ => cases hn

/-- A test after NumPy's: it raises for what is no number. -/
theorem mem_numpyNumbers (hH : H.Lawful) {s : Set Rat} {test : Except PyError PyNum}
    (hnone : v.num? = none → ¬Accepts test)
    (htest : ∀ n q, v.num? = some n → n.rat? = some q → (Accepts test ↔ q ∈ s)) :
    H.isfinite v = .ok true ∧ Accepts test ↔ v ∈ Yaml.numpyNumbers s := by
  constructor
  · rintro ⟨hfinite, haccepts⟩
    cases hn : v.num? with
    | none => exact absurd haccepts (hnone hn)
    | some n =>
      obtain ⟨hint, q, hq⟩ := (isfinite_iff hH hn).mp hfinite
      exact ⟨hint, n, q, hn, hq, (htest n q hn hq).mp haccepts⟩
  · rintro ⟨hint, n, q, hn, hq, hmem⟩
    exact ⟨(isfinite_iff hH hn).mpr ⟨hint, q, hq⟩, (htest n q hn hq).mpr hmem⟩

theorem mem_unitInterval (hH : H.Lawful) (name : PyStr) :
    H.isfinite v = .ok true ∧ Accepts (unitInterval name v) ↔
      v ∈ Yaml.numpyNumbers (Set.Icc 0 1) := by
  refine mem_numpyNumbers hH ?_ ?_
  · rintro hn ⟨n, h⟩
    simp [unitInterval, hn] at h
  · intro n q hn hq
    rw [unitInterval]
    simp only [hn]
    rw [accepts_bind_iff fun _ => accepts_pure_iff, and_true, accepts_raiseIf, not_not,
      PyNum.le_iff (show (PyNum.int 0).rat? = some 0 from rfl) hq,
      PyNum.le_iff hq (show (PyNum.int 1).rat? = some 1 from rfl), Set.mem_Icc]

theorem mem_resourceLimit (hH : H.Lawful) :
    H.isfinite v = .ok true ∧ Accepts (resourceLimit v) ↔
      v ∈ Yaml.numpyNumbers (Set.Ioi 0) := by
  refine mem_numpyNumbers hH ?_ ?_
  · rintro hn ⟨n, h⟩
    simp [resourceLimit, hn] at h
  · intro n q hn hq
    rw [resourceLimit]
    simp only [hn]
    rw [accepts_bind_iff fun _ => accepts_pure_iff, and_true, accepts_raiseIf, Bool.not_eq_true]
    exact refused_le_zero hq

/-- The test of all numbers, and then others. -/
theorem accepts_finite {β : Type} {x : Except PyError Bool} {e : PyError} {y : Except PyError β} :
    Accepts (x >>= fun finite => raiseIf (finite = false) e >>= fun _ => y) ↔
      x = .ok true ∧ Accepts y := by
  cases x with
  | error e => exact ⟨fun ⟨_, h⟩ => (error_ne_ok h).elim, fun h => (error_ne_ok h.1).elim⟩
  | ok finite =>
    rw [ok_bind, accepts_bind_iff fun _ => Iff.rfl, accepts_raiseIf, Bool.not_eq_false,
      Except.ok.injEq]

variable {a b c d e : Yaml}

/-- The policy takes what NumPy counts as a number in range, booleans too. -/
theorem accepts_healthPolicy (hH : H.Lawful) :
    Accepts (healthPolicy H a b c d e) ↔
      a ∈ Yaml.numpyNumbers (Set.Icc 0 1) ∧ b ∈ Yaml.numpyNumbers (Set.Icc 0 1) ∧
        c ∈ Yaml.numpyNumbers (Set.Icc 0 1) ∧ d ∈ Yaml.numpyNumbers (Set.Ioi 0) ∧
          e ∈ Yaml.numpyNumbers (Set.Ioi 0) := by
  rw [healthPolicy, accepts_finite, allFinite_eq_true,
    accepts_bind_iff fun _ => accepts_bind_iff fun _ => accepts_bind_iff fun _ =>
      accepts_bind_iff fun _ => accepts_bind_iff fun _ => accepts_pure_iff,
    ← mem_unitInterval hH "min_accuracy", ← mem_unitInterval hH "max_accuracy_drop",
    ← mem_unitInterval hH "max_ece", ← mem_resourceLimit hH, ← mem_resourceLimit hH]
  simp only [List.forall_mem_cons, List.not_mem_nil, false_implies, implies_true, and_true]
  tauto

end Health

/-! ## `QualificationLimits` -/

structure QualificationArgs where
  timeoutS : Yaml
  memoryLimitMb : Yaml
  maxValidationRows : Yaml
  maxValidationFeatures : Yaml
  maxValidationValues : Yaml
  iterations : Yaml
  batch : Yaml
  nofileLimit : Yaml

/-- The check of one field in the loop. -/
def qualificationInt (name : PyStr) (maximum : Int) :
    Yaml → Except PyError {i : Int // 1 ≤ i ∧ i ≤ maximum} :=
  checkedInt _ (valueError (py "invalid qualification " ++ name))

/-- `QualificationLimits(…).validate()` -/
def QualificationArgs.validate (A : QualificationArgs) :
    Except PyError Ipc.QualificationLimits := do
  let timeout ← checkedNumber (fun n => n.le (.int 0))
    (valueError "qualification timeout must be finite and > 0") A.timeoutS
  let memory ← optional (checkedInt (fun i => 64 ≤ i ∧ i ≤ 1048576)
    (valueError "qualification memory limit must be an integer in [64,1048576]")) A.memoryLimitMb
  let rows ← qualificationInt "max_validation_rows" 10000000 A.maxValidationRows
  let features ← qualificationInt "max_validation_features" 10000000 A.maxValidationFeatures
  let values ← qualificationInt "max_validation_values" 1000000000 A.maxValidationValues
  let iterations ← qualificationInt "iterations" 100000 A.iterations
  let batch ← qualificationInt "batch" 10000000 A.batch
  let nofile ← checkedInt (fun i => 16 ≤ i ∧ i ≤ 1048576)
    (valueError "invalid qualification nofile_limit") A.nofileLimit
  return {
    timeoutS := timeout.number
    memoryLimitMb := memory.map Subtype.val
    maxValidationRows := rows.val
    maxValidationFeatures := features.val
    maxValidationValues := values.val
    iterations := iterations.val
    batch := batch.val
    nofileLimit := nofile.val }

theorem accepts_qualificationInt {name : PyStr} {maximum : Int} {v : Yaml} :
    Accepts (qualificationInt name maximum v) ↔ v ∈ Yaml.int '' Set.Icc 1 maximum :=
  accepts_checkedInt fun _ => Iff.rfl

theorem accepts_qualification {A : QualificationArgs} :
    Accepts A.validate ↔ A.timeoutS ∈ Yaml.floats (Set.Ioi 0) ∧
      A.memoryLimitMb ∈ Yaml.orNull (Yaml.int '' Set.Icc 64 1048576) ∧
      A.maxValidationRows ∈ Yaml.int '' Set.Icc 1 10000000 ∧
      A.maxValidationFeatures ∈ Yaml.int '' Set.Icc 1 10000000 ∧
      A.maxValidationValues ∈ Yaml.int '' Set.Icc 1 1000000000 ∧
      A.iterations ∈ Yaml.int '' Set.Icc 1 100000 ∧ A.batch ∈ Yaml.int '' Set.Icc 1 10000000 ∧
      A.nofileLimit ∈ Yaml.int '' Set.Icc 16 1048576 := by
  rw [QualificationArgs.validate,
    accepts_bind_iff fun _ => accepts_bind_iff fun _ => accepts_bind_iff fun _ =>
      accepts_bind_iff fun _ => accepts_bind_iff fun _ => accepts_bind_iff fun _ =>
        accepts_bind_iff fun _ => accepts_bind_iff fun _ => accepts_pure_iff,
    accepts_checkedNumber fun _ _ => refused_le_zero,
    accepts_optional accepts_range, accepts_qualificationInt, accepts_qualificationInt,
    accepts_qualificationInt, accepts_qualificationInt, accepts_qualificationInt, accepts_range,
    and_true]

/-! ## `InferenceEngine` -/

/-- The limits of an engine, and the one of its deployer that a process needs. -/
structure InferenceEngine where
  maxModelUncompressedBytes : {i : Int // 1024 ≤ i}
  maxBatch : {i : Int // 1 ≤ i}
  maxInputFeatures : {i : Int // 1 ≤ i}
  maxInputValues : {i : Int // 1 ≤ i}
  maxOutputClasses : {i : Int // 1 ≤ i}
  maxOutputValues : {i : Int // 1 ≤ i}

/-- The check of the deployer on the size of a model. -/
def modelBytesLimit : Yaml → Except PyError {i : Int // 1024 ≤ i} :=
  checkedInt _ (valueError "max_model_uncompressed_bytes must be an integer >= 1024")

def positiveInteger (name : PyStr) : Yaml → Except PyError {i : Int // 1 ≤ i} :=
  checkedInt _ (valueError (name ++ py " must be a positive integer"))

/-- `InferenceEngine(deployer, …)` -/
def inferenceEngine (modelBytes : {i : Int // 1024 ≤ i}) (maxBatch maxInputFeatures maxInputValues
    maxOutputClasses maxOutputValues : Yaml) : Except PyError InferenceEngine := do
  let maxBatch ← positiveInteger "max_batch" maxBatch
  let maxInputFeatures ← positiveInteger "max_input_features" maxInputFeatures
  let maxInputValues ← positiveInteger "max_input_values" maxInputValues
  let maxOutputClasses ← positiveInteger "max_output_classes" maxOutputClasses
  let maxOutputValues ← positiveInteger "max_output_values" maxOutputValues
  return {
    maxModelUncompressedBytes := modelBytes
    maxBatch := maxBatch
    maxInputFeatures := maxInputFeatures
    maxInputValues := maxInputValues
    maxOutputClasses := maxOutputClasses
    maxOutputValues := maxOutputValues }

/-- `isolation_limits` -/
def InferenceEngine.isolationLimits (E : InferenceEngine) : List (PyStr × Int) :=
  [("max_batch", E.maxBatch), ("max_input_features", E.maxInputFeatures),
    ("max_input_values", E.maxInputValues), ("max_output_classes", E.maxOutputClasses),
    ("max_output_values", E.maxOutputValues),
    ("max_model_transfer_bytes", E.maxModelUncompressedBytes)]

theorem accepts_positiveInteger {name : PyStr} {v : Yaml} (hv : v ∈ Yaml.int '' Set.Ici 1) :
    Accepts (positiveInteger name v) :=
  accepts_min.mpr hv

/-! ## `BoundedInferenceExecutor` -/

inductive ExecutionMode where
  | thread
  | process
  deriving DecidableEq, Repr

def ExecutionMode.value : ExecutionMode → PyStr
  | thread => "thread"
  | process => "process"

def policyValue : Runtime.OverflowPolicy → PyStr
  | .dropOldest => "drop_oldest"
  | .dropNewest => "drop_newest"
  | .reject => "reject"

/-- `OverflowPolicy(v)` -/
def overflowPolicy (H : Host) : Yaml → Except PyError Runtime.OverflowPolicy :=
  enumMember H "OverflowPolicy"
    [("drop_oldest", .dropOldest), ("drop_newest", .dropNewest), ("reject", .reject)]

/-- `ExecutionMode(v)` -/
def executionMode (H : Host) : Yaml → Except PyError ExecutionMode :=
  enumMember H "ExecutionMode" [("thread", .thread), ("process", .process)]

structure ExecutorArgs where
  capacity : Yaml
  policy : Yaml
  workers : Yaml
  executionMode : Yaml
  executionTimeoutS : Yaml
  processControlTimeoutS : Yaml
  processMemoryLimitMb : Yaml
  processNofileLimit : Yaml
  processRestartLimit : Yaml
  processRestartWindowS : Yaml

structure BoundedInferenceExecutor where
  capacity : {i : Int // 1 ≤ i}
  policy : Runtime.OverflowPolicy
  workers : {i : Int // 1 ≤ i ∧ i ≤ 64}
  executionMode : ExecutionMode
  executionTimeoutS : Option PyFloat
  processControlTimeoutS : PyFloat
  processMemoryLimitBytes : Option Int
  processNofileLimit : {i : Int // 16 ≤ i ∧ i ≤ 1048576}
  processRestartLimit : {i : Int // 1 ≤ i ∧ i ≤ 10000}
  processRestartWindowS : PyFloat
  isolationLimits : Option (List (PyStr × Int))

def executionTimeout : Yaml → Except PyError (Option FiniteNumber) :=
  optional (checkedNumber (fun n => n.le (.int 0))
    (valueError "execution_timeout_s must be finite and > 0"))

def processControlTimeout : Yaml → Except PyError FiniteNumber :=
  checkedNumber (fun n => n.le (.int 0))
    (valueError "process_control_timeout_s must be finite and > 0")

/-- The two checks that a timeout goes with isolation. -/
def timeoutMatches (mode : ExecutionMode) (timeout : Option FiniteNumber) :
    Except PyError Unit := do
  raiseIf (mode = .process ∧ timeout.isNone = true)
    (valueError "process execution mode requires execution_timeout_s")
  raiseIf (mode = .thread ∧ timeout.isSome = true)
    (valueError "execution_timeout_s requires process execution mode")

def processMemoryLimit : Yaml → Except PyError (Option {i : Int // 64 ≤ i ∧ i ≤ 1048576}) :=
  optional (checkedInt _ (valueError "process_memory_limit_mb must be an integer in [64,1048576]"))

def memoryMatches (mode : ExecutionMode) (memory : Option {i : Int // 64 ≤ i ∧ i ≤ 1048576}) :
    Except PyError Unit :=
  raiseIf (mode = .thread ∧ memory.isSome = true)
    (valueError "process_memory_limit_mb requires process execution mode")

def processNofileLimit : Yaml → Except PyError {i : Int // 16 ≤ i ∧ i ≤ 1048576} :=
  checkedInt _ (valueError "process_nofile_limit must be an integer in [16,1048576]")

def processRestartLimit : Yaml → Except PyError {i : Int // 1 ≤ i ∧ i ≤ 10000} :=
  checkedInt _ (valueError "process_restart_limit must be an integer in [1,10000]")

def processRestartWindow : Yaml → Except PyError FiniteNumber :=
  checkedNumber (fun n => n.le (.int 0) || (PyNum.int 86400).lt n)
    (valueError "process_restart_window_s must be finite and in (0,86400]")

def requiredLimits : List PyStr :=
  ["max_batch", "max_input_features", "max_input_values", "max_output_classes",
    "max_output_values", "max_model_transfer_bytes"]

/-- The check of what the engine answers. -/
def checkIsolationLimits (limits : List (PyStr × Int)) : Except PyError Unit :=
  raiseIf (¬((∀ l ∈ limits, l.1 ∈ requiredLimits) ∧
      ∀ name ∈ requiredLimits, ∃ l ∈ limits, l.1 = name ∧ 1 ≤ l.2))
    (valueError "engine returned invalid process-isolation limits")

/-- `BoundedInferenceExecutor(engine, …)`.  The engine has the methods that isolation
needs. -/
def executor (H : Host) (E : InferenceEngine) (A : ExecutorArgs) :
    Except PyError BoundedInferenceExecutor := do
  let workers ← checkedInt (fun i => 1 ≤ i ∧ i ≤ 64)
    (valueError "workers must be an integer in [1,64]") A.workers
  let capacity ← positiveInteger "capacity" A.capacity
  let policy ← overflowPolicy H A.policy
  let mode ← executionMode H A.executionMode
  let timeout ← executionTimeout A.executionTimeoutS
  let control ← processControlTimeout A.processControlTimeoutS
  timeoutMatches mode timeout
  let memory ← processMemoryLimit A.processMemoryLimitMb
  memoryMatches mode memory
  let nofile ← processNofileLimit A.processNofileLimit
  let restartLimit ← processRestartLimit A.processRestartLimit
  let window ← processRestartWindow A.processRestartWindowS
  let limits ←
    match mode with
    | .thread => pure none
    | .process => do
      checkIsolationLimits E.isolationLimits
      pure (some E.isolationLimits)
  return {
    capacity := capacity
    policy := policy
    workers := workers
    executionMode := mode
    executionTimeoutS := timeout.map FiniteNumber.float
    processControlTimeoutS := control.float
    processMemoryLimitBytes := memory.map fun mb => mb.val * 1024 * 1024
    processNofileLimit := nofile
    processRestartLimit := restartLimit
    processRestartWindowS := window.float
    isolationLimits := limits }

section Executor

variable {H : Host} {E : InferenceEngine} {A : ExecutorArgs} {v : Yaml} {mode : ExecutionMode}
  {policy : Runtime.OverflowPolicy}

theorem overflowPolicy_eq_ok :
    overflowPolicy H v = .ok policy ↔ v = .str (policyValue policy) := by
  constructor
  · exact enumMember_ok (by simp only [List.forall_mem_cons]; exact ⟨rfl, rfl, rfl, nofun⟩)
  · rintro rfl
    cases policy <;> rfl

theorem executionMode_eq_ok : executionMode H v = .ok mode ↔ v = .str mode.value := by
  constructor
  · exact enumMember_ok (by simp only [List.forall_mem_cons]; exact ⟨rfl, rfl, nofun⟩)
  · rintro rfl
    cases mode <;> rfl

theorem accepts_executionTimeout :
    Accepts (executionTimeout v) ↔ v ∈ Yaml.orNull (Yaml.floats (Set.Ioi 0)) :=
  accepts_optional (accepts_checkedNumber fun _ _ => refused_le_zero)

theorem accepts_processControlTimeout :
    Accepts (processControlTimeout v) ↔ v ∈ Yaml.floats (Set.Ioi 0) :=
  accepts_checkedNumber fun _ _ => refused_le_zero

theorem accepts_processMemoryLimit :
    Accepts (processMemoryLimit v) ↔ v ∈ Yaml.orNull (Yaml.int '' Set.Icc 64 1048576) :=
  accepts_optional accepts_range

theorem accepts_processRestartWindow :
    Accepts (processRestartWindow v) ↔ v ∈ Yaml.floats (Set.Ioc 0 86400) := by
  refine accepts_checkedNumber fun n q hq => ?_
  rw [Bool.or_eq_false_iff, refused_le_zero hq, ← Bool.not_eq_true,
    PyNum.lt_iff (show (PyNum.int 86400).rat? = some 86400 from rfl) hq, not_lt]
  rfl

/-- The limits an engine answers with pass the check. -/
theorem accepts_isolationLimits : Accepts (checkIsolationLimits E.isolationLimits) := by
  refine accepts_raiseIf.mpr (not_not.mpr ⟨?_, ?_⟩)
  · simp [InferenceEngine.isolationLimits, requiredLimits]
  · simp only [requiredLimits, List.forall_mem_cons, List.not_mem_nil, false_implies, implies_true,
      and_true]
    exact ⟨⟨_, List.mem_of_getElem? (i := 0) rfl, rfl, E.maxBatch.2⟩,
      ⟨_, List.mem_of_getElem? (i := 1) rfl, rfl, E.maxInputFeatures.2⟩,
      ⟨_, List.mem_of_getElem? (i := 2) rfl, rfl, E.maxInputValues.2⟩,
      ⟨_, List.mem_of_getElem? (i := 3) rfl, rfl, E.maxOutputClasses.2⟩,
      ⟨_, List.mem_of_getElem? (i := 4) rfl, rfl, E.maxOutputValues.2⟩,
      ⟨_, List.mem_of_getElem? (i := 5) rfl, rfl,
        (by decide : (1 : Int) ≤ 1024).trans E.maxModelUncompressedBytes.2⟩⟩

/-- The arguments are in the ranges of the executor, and isolation comes with a timeout and
alone with a memory limit. -/
structure ExecutorArgs.InRange (A : ExecutorArgs) (mode : ExecutionMode) : Prop where
  capacity : A.capacity ∈ Yaml.int '' Set.Ici 1
  workers : A.workers ∈ Yaml.int '' Set.Icc 1 64
  executionTimeoutS : A.executionTimeoutS ∈ Yaml.orNull (Yaml.floats (Set.Ioi 0))
  processControlTimeoutS : A.processControlTimeoutS ∈ Yaml.floats (Set.Ioi 0)
  processMemoryLimitMb : A.processMemoryLimitMb ∈ Yaml.orNull (Yaml.int '' Set.Icc 64 1048576)
  processNofileLimit : A.processNofileLimit ∈ Yaml.int '' Set.Icc 16 1048576
  processRestartLimit : A.processRestartLimit ∈ Yaml.int '' Set.Icc 1 10000
  processRestartWindowS : A.processRestartWindowS ∈ Yaml.floats (Set.Ioc 0 86400)
  timeout_iff : A.executionTimeoutS = .null ↔ mode = .thread
  memory_process : A.processMemoryLimitMb ≠ .null → mode = .process

/-- The two checks on the execution timeout. -/
theorem ExecutorArgs.InRange.timeout (h : A.InRange mode) :
    ∃ t, executionTimeout A.executionTimeoutS = .ok t ∧ Accepts (timeoutMatches mode t) := by
  obtain ⟨t, ht⟩ := accepts_executionTimeout.mpr h.executionTimeoutS
  have hnone := (optional_isNone ht).trans h.timeout_iff
  refine ⟨t, ht, (accepts_bind_iff fun _ => accepts_raiseIf).mpr ⟨accepts_raiseIf.mpr ?_, ?_⟩⟩
  · rintro ⟨rfl, ht⟩
    cases hnone.mp ht
  · rintro ⟨rfl, ht⟩
    rw [Option.isNone_iff_eq_none.mp (hnone.mpr rfl)] at ht
    cases ht

/-- The two checks on the memory limit. -/
theorem ExecutorArgs.InRange.memory (h : A.InRange mode) :
    ∃ m, processMemoryLimit A.processMemoryLimitMb = .ok m ∧ Accepts (memoryMatches mode m) := by
  obtain ⟨m, hm⟩ := accepts_processMemoryLimit.mpr h.processMemoryLimitMb
  refine ⟨m, hm, accepts_raiseIf.mpr ?_⟩
  rintro ⟨rfl, hsome⟩
  have hnull : A.processMemoryLimitMb ≠ .null := by
    intro hnull
    rw [Option.isNone_iff_eq_none.mp ((optional_isNone hm).mpr hnull)] at hsome
    cases hsome
  cases h.memory_process hnull

theorem accepts_executor (h : A.InRange mode) (hpolicy : overflowPolicy H A.policy = .ok policy)
    (hmode : executionMode H A.executionMode = .ok mode) : Accepts (executor H E A) := by
  obtain ⟨t, ht, htimeout⟩ := h.timeout
  obtain ⟨m, hm, hmemory⟩ := h.memory
  rw [executor, hpolicy, hmode, ht, hm]
  refine accepts_bind (accepts_range.mpr h.workers) fun _ =>
    accepts_bind (accepts_positiveInteger h.capacity) fun _ => ?_
  simp only [ok_bind]
  refine accepts_bind (accepts_processControlTimeout.mpr h.processControlTimeoutS) fun _ =>
    accepts_bind htimeout fun _ => accepts_bind hmemory fun _ =>
      accepts_bind (accepts_range.mpr h.processNofileLimit) fun _ =>
        accepts_bind (accepts_range.mpr h.processRestartLimit) fun _ =>
          accepts_bind (accepts_processRestartWindow.mpr h.processRestartWindowS) fun _ => ?_
  cases mode with
  | thread => exact accepts_pure
  | process => exact accepts_bind accepts_isolationLimits fun _ => accepts_pure

end Executor

/-! ## `create_app` -/

structure AppArgs where
  apiKey : Option PyStr
  development : Bool
  maxRequestBytes : Yaml
  queueDeadlineS : Yaml
  shutdownTimeoutS : Yaml
  executor : ExecutorArgs

structure App where
  executor : BoundedInferenceExecutor
  maxRequestBytes : {i : Int // 1024 ≤ i}
  queueDeadlineS : Option PyNum
  shutdownTimeoutS : PyNum

/-- `not api_key` -/
def keyMissing (apiKey : Option PyStr) : Bool := apiKey.all List.isEmpty

/-- `create_app(engine, …)` -/
def createApp (H : Host) (E : InferenceEngine) (A : AppArgs) : Except PyError App := do
  raiseIf (A.development = false ∧ keyMissing A.apiKey = true)
    (raise .runtimeError "production service requires API key")
  let requestBytes ← checkedInt (fun i => 1024 ≤ i)
    (valueError "max_request_bytes must be an integer >= 1024") A.maxRequestBytes
  let deadline ← optional (checkedNumber (fun n => n.lt (.int 0))
    (valueError "queue_deadline_s must be finite and >= 0")) A.queueDeadlineS
  let mode ←
    match executionMode H A.executor.executionMode with
    | .ok mode => pure mode
    | .error _ => .error (valueError "invalid execution_mode")
  let timeout ← executionTimeout A.executor.executionTimeoutS
  timeoutMatches mode timeout
  let _ ← processControlTimeout A.executor.processControlTimeoutS
  let memory ← processMemoryLimit A.executor.processMemoryLimitMb
  memoryMatches mode memory
  let _ ← processNofileLimit A.executor.processNofileLimit
  let _ ← processRestartLimit A.executor.processRestartLimit
  let _ ← processRestartWindow A.executor.processRestartWindowS
  let shutdown ← checkedNumber (fun n => n.lt (.int 0))
    (valueError "shutdown_timeout_s must be finite and >= 0") A.shutdownTimeoutS
  let policy ← overflowPolicy H A.executor.policy
  let built ← executor H E { A.executor with
    policy := .str (policyValue policy)
    executionMode := .str mode.value }
  return {
    executor := built
    maxRequestBytes := requestBytes
    queueDeadlineS := deadline.map FiniteNumber.number
    shutdownTimeoutS := shutdown.number }

structure AppArgs.InRange (A : AppArgs) (mode : ExecutionMode) : Prop where
  maxRequestBytes : A.maxRequestBytes ∈ Yaml.int '' Set.Ici 1024
  queueDeadlineS : A.queueDeadlineS ∈ Yaml.orNull (Yaml.floats (Set.Ici 0))
  shutdownTimeoutS : A.shutdownTimeoutS ∈ Yaml.floats (Set.Ici 0)
  executor : A.executor.InRange mode

/-- A service with a key, or in development, starts with arguments in range. -/
theorem accepts_createApp {H : Host} {E : InferenceEngine} {A : AppArgs} {mode : ExecutionMode}
    {policy : Runtime.OverflowPolicy} (h : A.InRange mode)
    (hkey : A.development = true ∨ keyMissing A.apiKey = false)
    (hpolicy : overflowPolicy H A.executor.policy = .ok policy)
    (hmode : executionMode H A.executor.executionMode = .ok mode) :
    Accepts (createApp H E A) := by
  obtain ⟨t, ht, htimeout⟩ := h.executor.timeout
  obtain ⟨m, hm, hmemory⟩ := h.executor.memory
  have hraise : ¬(A.development = false ∧ keyMissing A.apiKey = true) := by
    rintro ⟨hdevelopment, hmissing⟩
    rcases hkey with hdevelopment' | hkey
    · exact absurd (hdevelopment.symm.trans hdevelopment') (by decide)
    · exact absurd (hkey.symm.trans hmissing) (by decide)
  have hexecutor : Accepts (executor H E { A.executor with
      policy := .str (policyValue policy)
      executionMode := .str mode.value }) :=
    accepts_executor ⟨h.executor.capacity, h.executor.workers, h.executor.executionTimeoutS,
      h.executor.processControlTimeoutS, h.executor.processMemoryLimitMb,
      h.executor.processNofileLimit, h.executor.processRestartLimit,
      h.executor.processRestartWindowS, h.executor.timeout_iff, h.executor.memory_process⟩
      (overflowPolicy_eq_ok.mpr rfl) (executionMode_eq_ok.mpr rfl)
  rw [createApp, hpolicy, hmode, ht, hm]
  refine accepts_bind (accepts_raiseIf.mpr hraise) fun _ =>
    accepts_bind (accepts_min.mpr h.maxRequestBytes) fun _ =>
      accepts_bind ((accepts_optional
        (accepts_checkedNumber fun _ _ => refused_lt_zero)).mpr h.queueDeadlineS) fun _ => ?_
  simp only [pure, Except.pure, ok_bind]
  refine accepts_bind htimeout fun _ =>
    accepts_bind (accepts_processControlTimeout.mpr h.executor.processControlTimeoutS) fun _ =>
      accepts_bind hmemory fun _ =>
        accepts_bind (accepts_range.mpr h.executor.processNofileLimit) fun _ =>
          accepts_bind (accepts_range.mpr h.executor.processRestartLimit) fun _ =>
            accepts_bind
              (accepts_processRestartWindow.mpr h.executor.processRestartWindowS) fun _ =>
                accepts_bind ((accepts_checkedNumber fun _ _ => refused_lt_zero).mpr
                  h.shutdownTimeoutS) fun _ => accepts_bind hexecutor fun _ => accepts_ok

end Config
end EdgeFort
