/-
`RuntimeConfig` (`config.py`).

`validate` accepts the configurations whose fields are in a table of ranges.  In the table
the fields of the health policy are what NumPy counts as a number: a boolean passes.
-/
import EdgeFort.Config.Consumers
import EdgeFort.Registry.Signing

namespace EdgeFort
namespace Config

open Effect

/-- The float of a literal, by its exact value. -/
def literal (q : Rat) : Yaml := .float (.finite q)

structure RuntimeConfig where
  deploymentRoot : Yaml
  registryRoot : Yaml
  apiKeyEnv : Yaml := .str "EDGEAI_API_KEY"
  queueCapacity : Yaml := .int 64
  queuePolicy : Yaml := .str (policyValue .reject)
  maxBatch : Yaml := .int 128
  maxInputFeatures : Yaml := .int 4096
  maxInputValues : Yaml := .int 524288
  maxOutputClasses : Yaml := .int 4096
  maxOutputValues : Yaml := .int 262144
  maxRequestBytes : Yaml := .int (8 * 1024 * 1024)
  inferenceWorkers : Yaml := .int 1
  queueDeadlineS : Yaml := literal 1
  executionMode : Yaml := .str ExecutionMode.thread.value
  executionTimeoutS : Yaml := .null
  processControlTimeoutS : Yaml := literal 5
  processMemoryLimitMb : Yaml := .null
  processNofileLimit : Yaml := .int 64
  processRestartLimit : Yaml := .int 8
  processRestartWindowS : Yaml := literal 60
  shutdownTimeoutS : Yaml := literal 5
  maxModelUncompressedBytes : Yaml := .int (256 * 1024 * 1024)
  isolateHealthGate : Yaml := .bool true
  healthGateTimeoutS : Yaml := literal 30
  healthGateMemoryLimitMb : Yaml := .null
  maxValidationRows : Yaml := .int 100000
  maxValidationFeatures : Yaml := .int 1000000
  maxValidationValues : Yaml := .int 10000000
  healthBenchmarkIterations : Yaml := .int 40
  healthBenchmarkBatch : Yaml := .int 32
  /-- 0.94 -/
  minAccuracy : Yaml := literal (2116691824864133 / 2251799813685248)
  /-- 0.02 -/
  maxAccuracyDrop : Yaml := literal (5764607523034235 / 288230376151711744)
  /-- 0.20 -/
  maxEce : Yaml := literal (3602879701896397 / 18014398509481984)
  maxP95LatencyMs : Yaml := literal 20
  maxRssMb : Yaml := literal 1024

namespace RuntimeConfig

/-! ## Construction -/

def fieldNames : List PyStr :=
  ["deployment_root", "registry_root", "api_key_env", "queue_capacity", "queue_policy",
    "max_batch", "max_input_features", "max_input_values", "max_output_classes",
    "max_output_values", "max_request_bytes", "inference_workers", "queue_deadline_s",
    "execution_mode", "execution_timeout_s", "process_control_timeout_s",
    "process_memory_limit_mb", "process_nofile_limit", "process_restart_limit",
    "process_restart_window_s", "shutdown_timeout_s", "max_model_uncompressed_bytes",
    "isolate_health_gate", "health_gate_timeout_s", "health_gate_memory_limit_mb",
    "max_validation_rows", "max_validation_features", "max_validation_values",
    "health_benchmark_iterations", "health_benchmark_batch", "min_accuracy",
    "max_accuracy_drop", "max_ece", "max_p95_latency_ms", "max_rss_mb"]

/-- An argument that has a default. -/
def argument (raw : List (PyStr × Yaml)) (key : PyStr) (default : Yaml) : Yaml :=
  (raw.lookup key).getD default

def initError (text : PyStr) : PyError :=
  raise .typeError (py "RuntimeConfig.__init__() " ++ text)

/-- The two arguments without a default. -/
def required (raw : List (PyStr × Yaml)) : Except PyError (Yaml × Yaml) :=
  match raw.lookup (py "deployment_root"), raw.lookup (py "registry_root") with
  | some d, some r => .ok (d, r)
  | none, some _ => .error (initError
      (py "missing 1 required positional argument: 'deployment_root'"))
  | some _, none => .error (initError
      (py "missing 1 required positional argument: 'registry_root'"))
  | none, none => .error (initError
      (py "missing 2 required positional arguments: 'deployment_root' and 'registry_root'"))

/-- `RuntimeConfig(**raw)` -/
def ofMapping (raw : List (PyStr × Yaml)) : Except PyError RuntimeConfig := do
  match raw.find? fun f => !fieldNames.contains f.1 with
  | some (key, _) =>
    .error (initError (py "got an unexpected keyword argument '" ++ key ++ py "'"))
  | none => pure ()
  let (deploymentRoot, registryRoot) ← required raw
  let d : RuntimeConfig := { deploymentRoot := deploymentRoot, registryRoot := registryRoot }
  return {
    deploymentRoot := deploymentRoot
    registryRoot := registryRoot
    apiKeyEnv := argument raw "api_key_env" d.apiKeyEnv
    queueCapacity := argument raw "queue_capacity" d.queueCapacity
    queuePolicy := argument raw "queue_policy" d.queuePolicy
    maxBatch := argument raw "max_batch" d.maxBatch
    maxInputFeatures := argument raw "max_input_features" d.maxInputFeatures
    maxInputValues := argument raw "max_input_values" d.maxInputValues
    maxOutputClasses := argument raw "max_output_classes" d.maxOutputClasses
    maxOutputValues := argument raw "max_output_values" d.maxOutputValues
    maxRequestBytes := argument raw "max_request_bytes" d.maxRequestBytes
    inferenceWorkers := argument raw "inference_workers" d.inferenceWorkers
    queueDeadlineS := argument raw "queue_deadline_s" d.queueDeadlineS
    executionMode := argument raw "execution_mode" d.executionMode
    executionTimeoutS := argument raw "execution_timeout_s" d.executionTimeoutS
    processControlTimeoutS := argument raw "process_control_timeout_s" d.processControlTimeoutS
    processMemoryLimitMb := argument raw "process_memory_limit_mb" d.processMemoryLimitMb
    processNofileLimit := argument raw "process_nofile_limit" d.processNofileLimit
    processRestartLimit := argument raw "process_restart_limit" d.processRestartLimit
    processRestartWindowS := argument raw "process_restart_window_s" d.processRestartWindowS
    shutdownTimeoutS := argument raw "shutdown_timeout_s" d.shutdownTimeoutS
    maxModelUncompressedBytes :=
      argument raw "max_model_uncompressed_bytes" d.maxModelUncompressedBytes
    isolateHealthGate := argument raw "isolate_health_gate" d.isolateHealthGate
    healthGateTimeoutS := argument raw "health_gate_timeout_s" d.healthGateTimeoutS
    healthGateMemoryLimitMb :=
      argument raw "health_gate_memory_limit_mb" d.healthGateMemoryLimitMb
    maxValidationRows := argument raw "max_validation_rows" d.maxValidationRows
    maxValidationFeatures := argument raw "max_validation_features" d.maxValidationFeatures
    maxValidationValues := argument raw "max_validation_values" d.maxValidationValues
    healthBenchmarkIterations :=
      argument raw "health_benchmark_iterations" d.healthBenchmarkIterations
    healthBenchmarkBatch := argument raw "health_benchmark_batch" d.healthBenchmarkBatch
    minAccuracy := argument raw "min_accuracy" d.minAccuracy
    maxAccuracyDrop := argument raw "max_accuracy_drop" d.maxAccuracyDrop
    maxEce := argument raw "max_ece" d.maxEce
    maxP95LatencyMs := argument raw "max_p95_latency_ms" d.maxP95LatencyMs
    maxRssMb := argument raw "max_rss_mb" d.maxRssMb }

/-! ## Validation -/

def invalid (name : PyStr) : PyError := valueError (py "invalid " ++ name)

/-- `_bounded_int` -/
def boundedInt (name : PyStr) (value : Yaml) (minimum maximum : Int) :
    Except PyError {i : Int // minimum ≤ i ∧ i ≤ maximum} :=
  checkedInt _ (invalid name) value

/-- `_bounded_number` -/
def boundedNumber (name : PyStr) (value : Yaml) (minimum maximum : PyNum) :
    Except PyError FiniteNumber :=
  checkedNumber (fun n => !(minimum.le n && n.le maximum)) (invalid name) value

/-- `not isinstance(value, str) or not value.strip()` -/
def text (name : PyStr) : Yaml → Except PyError Unit
  | .str s => raiseIf (strip s = []) (invalid name)
  | _ => .error (invalid name)

/-- `not isinstance(value, str)` -/
def string (name : PyStr) : Yaml → Except PyError Unit
  | .str _ => .ok ()
  | _ => .error (invalid name)

/-- `not isinstance(value, bool)` -/
def boolean (name : PyStr) : Yaml → Except PyError Unit
  | .bool _ => .ok ()
  | _ => .error (invalid name)

/-- The float `0.001`. -/
def millisecond : PyNum := .float (.finite (1152921504606847 / 1152921504606846976))

variable (c : RuntimeConfig) (H : Host)

/-- `qualification_limits` -/
def qualificationLimits : Except PyError Ipc.QualificationLimits :=
  QualificationArgs.validate {
    timeoutS := c.healthGateTimeoutS
    memoryLimitMb := c.healthGateMemoryLimitMb
    maxValidationRows := c.maxValidationRows
    maxValidationFeatures := c.maxValidationFeatures
    maxValidationValues := c.maxValidationValues
    iterations := c.healthBenchmarkIterations
    batch := c.healthBenchmarkBatch
    nofileLimit := c.processNofileLimit }

/-- `health_policy` -/
def healthPolicy : Except PyError HealthPolicy :=
  Config.healthPolicy H c.minAccuracy c.maxAccuracyDrop c.maxEce c.maxP95LatencyMs c.maxRssMb

/-- The checks on isolation. -/
def validateMode (mode : ExecutionMode) : Except PyError Unit := do
  let timeout ← optional
    (fun v => boundedNumber "execution_timeout_s" v millisecond (.int 3600)) c.executionTimeoutS
  raiseIf (mode = .process ∧ timeout.isNone = true)
    (valueError "process execution_mode requires execution_timeout_s")
  raiseIf (mode = .thread ∧ timeout.isSome = true)
    (valueError "execution_timeout_s requires process execution_mode")
  let _ ← boundedNumber "process_control_timeout_s" c.processControlTimeoutS millisecond
    (.int 3600)
  let memory ← optional
    (fun v => boundedInt "process_memory_limit_mb" v 64 1048576) c.processMemoryLimitMb
  raiseIf (mode = .thread ∧ memory.isSome = true)
    (valueError "process_memory_limit_mb requires process execution_mode")

/-- `validate` -/
def validate : Except PyError Unit := do
  text "deployment_root" c.deploymentRoot
  text "registry_root" c.registryRoot
  text "api_key_env" c.apiKeyEnv
  let _ ← boundedInt "queue_capacity" c.queueCapacity 1 100000
  string "queue_policy" c.queuePolicy
  let _ ← overflowPolicy H c.queuePolicy
  let _ ← boundedInt "max_batch" c.maxBatch 1 4096
  let _ ← boundedInt "max_input_features" c.maxInputFeatures 1 1000000
  let _ ← boundedInt "max_input_values" c.maxInputValues 1 100000000
  let _ ← boundedInt "max_output_classes" c.maxOutputClasses 1 1000000
  let _ ← boundedInt "max_output_values" c.maxOutputValues 1 10000000
  let _ ← boundedInt "max_request_bytes" c.maxRequestBytes 1024 (256 * 1024 * 1024)
  let _ ← boundedInt "inference_workers" c.inferenceWorkers 1 64
  let _ ← boundedNumber "queue_deadline_s" c.queueDeadlineS (.int 0) (.int 3600)
  string "execution_mode" c.executionMode
  let mode ← Config.executionMode H c.executionMode
  c.validateMode mode
  let _ ← boundedInt "process_nofile_limit" c.processNofileLimit 16 1048576
  let _ ← boundedInt "process_restart_limit" c.processRestartLimit 1 10000
  let _ ← boundedNumber "process_restart_window_s" c.processRestartWindowS millisecond
    (.int 86400)
  let _ ← boundedNumber "shutdown_timeout_s" c.shutdownTimeoutS (.int 0) (.int 3600)
  let _ ← boundedInt "max_model_uncompressed_bytes" c.maxModelUncompressedBytes 1024
    (16 * 1024 * 1024 * 1024)
  boolean "isolate_health_gate" c.isolateHealthGate
  let _ ← c.qualificationLimits
  let _ ← c.healthPolicy H
  return ()

/-! ## What it accepts -/

/-- A numeric field, what `validate` accepts in it and what the field is used for. -/
structure NumericField where
  name : PyStr
  value : Yaml
  accepted : Set Yaml
  required : Set Yaml

/-- The integers from one bound to another. -/
def ints (lo hi : Int) : Set Yaml := Yaml.int '' Set.Icc lo hi

def atLeast (lo : Int) : Set Yaml := Yaml.int '' Set.Ici lo

/-- A duration of at least a millisecond. -/
def seconds (hi : Rat) : Set Yaml :=
  Yaml.floats (Set.Icc (1152921504606847 / 1152921504606846976) hi)

def numericFields : List NumericField :=
  [⟨"queue_capacity", c.queueCapacity, ints 1 100000, atLeast 1⟩,
    ⟨"max_batch", c.maxBatch, ints 1 4096, atLeast 1⟩,
    ⟨"max_input_features", c.maxInputFeatures, ints 1 1000000, atLeast 1⟩,
    ⟨"max_input_values", c.maxInputValues, ints 1 100000000, atLeast 1⟩,
    ⟨"max_output_classes", c.maxOutputClasses, ints 1 1000000, atLeast 1⟩,
    ⟨"max_output_values", c.maxOutputValues, ints 1 10000000, atLeast 1⟩,
    ⟨"max_request_bytes", c.maxRequestBytes, ints 1024 (256 * 1024 * 1024), atLeast 1024⟩,
    ⟨"inference_workers", c.inferenceWorkers, ints 1 64, ints 1 64⟩,
    ⟨"queue_deadline_s", c.queueDeadlineS, Yaml.floats (Set.Icc 0 3600),
      Yaml.orNull (Yaml.floats (Set.Ici 0))⟩,
    ⟨"execution_timeout_s", c.executionTimeoutS, Yaml.orNull (seconds 3600),
      Yaml.orNull (Yaml.floats (Set.Ioi 0))⟩,
    ⟨"process_control_timeout_s", c.processControlTimeoutS, seconds 3600,
      Yaml.floats (Set.Ioi 0)⟩,
    ⟨"process_memory_limit_mb", c.processMemoryLimitMb, Yaml.orNull (ints 64 1048576),
      Yaml.orNull (ints 64 1048576)⟩,
    ⟨"process_nofile_limit", c.processNofileLimit, ints 16 1048576, ints 16 1048576⟩,
    ⟨"process_restart_limit", c.processRestartLimit, ints 1 10000, ints 1 10000⟩,
    ⟨"process_restart_window_s", c.processRestartWindowS, seconds 86400,
      Yaml.floats (Set.Ioc 0 86400)⟩,
    ⟨"shutdown_timeout_s", c.shutdownTimeoutS, Yaml.floats (Set.Icc 0 3600),
      Yaml.floats (Set.Ici 0)⟩,
    ⟨"max_model_uncompressed_bytes", c.maxModelUncompressedBytes,
      ints 1024 (16 * 1024 * 1024 * 1024), atLeast 1024⟩,
    ⟨"health_gate_timeout_s", c.healthGateTimeoutS, Yaml.floats (Set.Ioi 0),
      Yaml.floats (Set.Ioi 0)⟩,
    ⟨"health_gate_memory_limit_mb", c.healthGateMemoryLimitMb, Yaml.orNull (ints 64 1048576),
      Yaml.orNull (ints 64 1048576)⟩,
    ⟨"max_validation_rows", c.maxValidationRows, ints 1 10000000, ints 1 10000000⟩,
    ⟨"max_validation_features", c.maxValidationFeatures, ints 1 10000000, ints 1 10000000⟩,
    ⟨"max_validation_values", c.maxValidationValues, ints 1 1000000000, ints 1 1000000000⟩,
    ⟨"health_benchmark_iterations", c.healthBenchmarkIterations, ints 1 100000, ints 1 100000⟩,
    ⟨"health_benchmark_batch", c.healthBenchmarkBatch, ints 1 10000000, ints 1 10000000⟩,
    ⟨"min_accuracy", c.minAccuracy, Yaml.numpyNumbers (Set.Icc 0 1),
      Yaml.numbers (Set.Icc 0 1)⟩,
    ⟨"max_accuracy_drop", c.maxAccuracyDrop, Yaml.numpyNumbers (Set.Icc 0 1),
      Yaml.numbers (Set.Icc 0 1)⟩,
    ⟨"max_ece", c.maxEce, Yaml.numpyNumbers (Set.Icc 0 1), Yaml.numbers (Set.Icc 0 1)⟩,
    ⟨"max_p95_latency_ms", c.maxP95LatencyMs, Yaml.numpyNumbers (Set.Ioi 0),
      Yaml.numbers (Set.Ioi 0)⟩,
    ⟨"max_rss_mb", c.maxRssMb, Yaml.numpyNumbers (Set.Ioi 0), Yaml.numbers (Set.Ioi 0)⟩]

def IsText (v : Yaml) : Prop := ∃ s, v = .str s ∧ strip s ≠ []

/-- Every field is what it should be, but that a number of the health policy may be a
boolean. -/
structure Accepted : Prop where
  deploymentRoot : IsText c.deploymentRoot
  registryRoot : IsText c.registryRoot
  apiKeyEnv : IsText c.apiKeyEnv
  queuePolicy : ∃ policy, c.queuePolicy = .str (policyValue policy)
  executionMode : ∃ mode : ExecutionMode, c.executionMode = .str mode.value ∧
    (c.executionTimeoutS = .null ↔ mode = .thread) ∧
    (c.processMemoryLimitMb ≠ .null → mode = .process)
  isolateHealthGate : ∃ b, c.isolateHealthGate = .bool b
  inRange : ∀ f ∈ c.numericFields, f.value ∈ f.accepted

variable {c H} {v : Yaml} {name : PyStr}

theorem accepts_text : Accepts (text name v) ↔ IsText v := by
  cases v with
  | str s =>
    rw [text, accepts_raiseIf]
    exact ⟨fun h => ⟨s, rfl, h⟩, fun ⟨_, hs, h⟩ => by cases hs; exact h⟩
  | _ => exact ⟨fun ⟨_, h⟩ => (error_ne_ok h).elim, nofun⟩

theorem accepts_boolean : Accepts (boolean name v) ↔ ∃ b, v = .bool b := by
  cases v with
  | bool b => exact ⟨fun _ => ⟨b, rfl⟩, fun _ => accepts_ok⟩
  | _ => exact ⟨fun ⟨_, h⟩ => (error_ne_ok h).elim, nofun⟩

theorem accepts_boundedInt {lo hi : Int} : Accepts (boundedInt name v lo hi) ↔ v ∈ ints lo hi :=
  accepts_range

theorem accepts_boundedNumber {minimum maximum : PyNum} {a b : Rat}
    (hmin : minimum.rat? = some a) (hmax : maximum.rat? = some b) :
    Accepts (boundedNumber name v minimum maximum) ↔ v ∈ Yaml.floats (Set.Icc a b) := by
  refine accepts_checkedNumber fun n q hq => ?_
  rw [Bool.not_eq_false', Bool.and_eq_true, PyNum.le_iff hmin hq, PyNum.le_iff hq hmax,
    Set.mem_Icc]

/-- The two checks on the name of a policy. -/
theorem accepts_queuePolicy : Accepts (string name v) ∧ Accepts (overflowPolicy H v) ↔
    ∃ policy, v = .str (policyValue policy) := by
  constructor
  · rintro ⟨-, policy, h⟩
    exact ⟨policy, overflowPolicy_eq_ok.mp h⟩
  · rintro ⟨policy, rfl⟩
    exact ⟨accepts_ok, policy, overflowPolicy_eq_ok.mpr rfl⟩

/-- A check that a value is given in one mode only. -/
theorem accepts_onlyIn {α : Type} {mode : ExecutionMode} {a : Option α} {e : PyError} :
    Accepts (raiseIf (mode = .thread ∧ a.isSome = true) e) ↔
      (¬a.isNone = true → mode = .process) := by
  rw [accepts_raiseIf]
  cases mode <;> cases a <;> simp

theorem accepts_validateMode {mode : ExecutionMode} : Accepts (c.validateMode mode) ↔
    c.executionTimeoutS ∈ Yaml.orNull (seconds 3600) ∧
      ((c.executionTimeoutS = .null → mode = .thread) ∧
        (¬c.executionTimeoutS = .null → mode = .process) ∧
          c.processControlTimeoutS ∈ seconds 3600 ∧
            c.processMemoryLimitMb ∈ Yaml.orNull (ints 64 1048576) ∧
              (¬c.processMemoryLimitMb = .null → mode = .process)) := by
  have hseconds : ∀ {name v}, Accepts (boundedNumber name v millisecond (.int 3600)) ↔
      v ∈ seconds 3600 :=
    accepts_boundedNumber rfl rfl
  have htimeout : Accepts (optional
      (fun v => boundedNumber "execution_timeout_s" v millisecond (.int 3600))
      c.executionTimeoutS) ↔ c.executionTimeoutS ∈ Yaml.orNull (seconds 3600) :=
    accepts_optional hseconds
  have hmemory : Accepts (optional
      (fun v => boundedInt "process_memory_limit_mb" v 64 1048576) c.processMemoryLimitMb) ↔
        c.processMemoryLimitMb ∈ Yaml.orNull (ints 64 1048576) :=
    accepts_optional accepts_boundedInt
  rw [validateMode, ← htimeout,
    accepts_optional_bind (P := fun none => (none → mode = .thread) ∧ (¬none → mode = .process) ∧
      c.processControlTimeoutS ∈ seconds 3600 ∧
        c.processMemoryLimitMb ∈ Yaml.orNull (ints 64 1048576) ∧
          (¬c.processMemoryLimitMb = .null → mode = .process))]
  intro t
  rw [accepts_bind_iff fun _ => accepts_bind_iff fun _ => accepts_bind_iff fun _ =>
    accepts_optional_bind (P := fun none => ¬none → mode = .process) fun _ => accepts_onlyIn,
    accepts_onlyIn, hseconds, hmemory, accepts_raiseIf]
  refine and_congr ?_ Iff.rfl
  cases mode <;> simp

theorem accepts_mode {β : Type} {f : ExecutionMode → Except PyError β} :
    Accepts (Config.executionMode H v >>= f) ↔
      ∃ mode : ExecutionMode, v = .str mode.value ∧ Accepts (f mode) := by
  constructor
  · rintro ⟨b, h⟩
    obtain ⟨mode, hmode, h⟩ := bind_eq_ok.mp h
    exact ⟨mode, executionMode_eq_ok.mp hmode, b, h⟩
  · rintro ⟨mode, rfl, h⟩
    rw [executionMode_eq_ok.mpr rfl]
    exact h

theorem accepts_health (hH : H.Lawful) : Accepts (c.healthPolicy H) ↔
    c.minAccuracy ∈ Yaml.numpyNumbers (Set.Icc 0 1) ∧
      c.maxAccuracyDrop ∈ Yaml.numpyNumbers (Set.Icc 0 1) ∧
        c.maxEce ∈ Yaml.numpyNumbers (Set.Icc 0 1) ∧
          c.maxP95LatencyMs ∈ Yaml.numpyNumbers (Set.Ioi 0) ∧
            c.maxRssMb ∈ Yaml.numpyNumbers (Set.Ioi 0) :=
  accepts_healthPolicy hH

theorem accepts_limits : Accepts c.qualificationLimits ↔
    c.healthGateTimeoutS ∈ Yaml.floats (Set.Ioi 0) ∧
      c.healthGateMemoryLimitMb ∈ Yaml.orNull (ints 64 1048576) ∧
        c.maxValidationRows ∈ ints 1 10000000 ∧ c.maxValidationFeatures ∈ ints 1 10000000 ∧
          c.maxValidationValues ∈ ints 1 1000000000 ∧
            c.healthBenchmarkIterations ∈ ints 1 100000 ∧
              c.healthBenchmarkBatch ∈ ints 1 10000000 ∧ c.processNofileLimit ∈ ints 16 1048576 :=
  accepts_qualification

theorem accepts_string {s : PyStr} : Accepts (string name (.str s)) := accepts_ok

/-- `validate` returns for the accepted configurations and no others. -/
theorem accepts_validate (hH : H.Lawful) : Accepts (c.validate H) ↔ c.Accepted := by
  have hzero : ∀ {name v}, Accepts (boundedNumber name v (.int 0) (.int 3600)) ↔
      v ∈ Yaml.floats (Set.Icc 0 3600) :=
    accepts_boundedNumber rfl rfl
  have hwindow : ∀ {name v}, Accepts (boundedNumber name v millisecond (.int 86400)) ↔
      v ∈ seconds 86400 :=
    accepts_boundedNumber rfl rfl
  simp only [validate, accepts_seq, accepts_mode, accepts_text, accepts_boundedInt,
    accepts_boolean, accepts_validateMode, hzero, hwindow, accepts_limits, accepts_health hH,
    accepts_pure_iff]
  constructor
  · rintro ⟨hroot, hregistry, hkey, hcapacity, hstring, hpolicy, hbatch, hfeatures, hinputs,
      hclasses, houtputs, hrequest, hworkers, hdeadline, -, mode, hmode,
      ⟨htimeout, hthread, hprocess, hcontrol, hmemory, honly⟩, hnofile, hrestart, hwindow,
      hshutdown, hmodel, hisolate, ⟨hgate, hgateMemory, hrows, hvalidation, hvalues, hiterations,
        hbenchmark, -⟩, ⟨haccuracy, hdrop, hece, hlatency, hrss⟩, -⟩
    refine ⟨hroot, hregistry, hkey, accepts_queuePolicy.mp ⟨hstring, hpolicy⟩,
      ⟨mode, hmode, ⟨hthread, fun hm => by_contra fun hne => ?_⟩, honly⟩, hisolate, ?_⟩
    · rw [hm] at hprocess
      cases hprocess hne
    · simp only [numericFields, List.forall_mem_cons]
      exact ⟨hcapacity, hbatch, hfeatures, hinputs, hclasses, houtputs, hrequest, hworkers,
        hdeadline, htimeout, hcontrol, hmemory, hnofile, hrestart, hwindow, hshutdown, hmodel,
        hgate, hgateMemory, hrows, hvalidation, hvalues, hiterations, hbenchmark, haccuracy, hdrop,
        hece, hlatency, hrss, nofun⟩
  · rintro ⟨hroot, hregistry, hkey, hpolicy, ⟨mode, hmode, hthread, honly⟩, hisolate, hrange⟩
    simp only [numericFields, List.forall_mem_cons] at hrange
    obtain ⟨hcapacity, hbatch, hfeatures, hinputs, hclasses, houtputs, hrequest, hworkers,
      hdeadline, htimeout, hcontrol, hmemory, hnofile, hrestart, hwindow, hshutdown, hmodel, hgate,
      hgateMemory, hrows, hvalidation, hvalues, hiterations, hbenchmark, haccuracy, hdrop, hece,
      hlatency, hrss, -⟩ := hrange
    obtain ⟨hstring, hpolicy⟩ := (accepts_queuePolicy (H := H)).mpr hpolicy
    have hprocess : ¬c.executionTimeoutS = .null → mode = .process := by
      intro hne
      cases mode with
      | thread => exact absurd (hthread.mpr rfl) hne
      | process => rfl
    exact ⟨hroot, hregistry, hkey, hcapacity, hstring, hpolicy, hbatch, hfeatures, hinputs,
      hclasses, houtputs, hrequest, hworkers, hdeadline, hmode ▸ accepts_string, mode, hmode,
      ⟨htimeout, hthread.mp, hprocess, hcontrol, hmemory, honly⟩, hnofile, hrestart, hwindow,
      hshutdown, hmodel, hisolate, ⟨hgate, hgateMemory, hrows, hvalidation, hvalues, hiterations,
        hbenchmark, hnofile⟩, ⟨haccuracy, hdrop, hece, hlatency, hrss⟩, trivial⟩

end RuntimeConfig
end Config
end EdgeFort
