/-
What a validated configuration is good for.

Every constructor accepts the configurations that `validate` accepts.  They are fully typed
but for the health policy, whose check lets booleans through.
-/
import EdgeFort.Config.RuntimeConfig

namespace EdgeFort
namespace Config

open Effect

namespace RuntimeConfig

variable (c : RuntimeConfig)

/-! ## The consumers -/

/-- The deployer's check on the size of a model, and the engine. -/
def engine : Except PyError InferenceEngine := do
  let modelBytes ← modelBytesLimit c.maxModelUncompressedBytes
  inferenceEngine modelBytes c.maxBatch c.maxInputFeatures c.maxInputValues c.maxOutputClasses
    c.maxOutputValues

def executorArgs : ExecutorArgs where
  capacity := c.queueCapacity
  policy := c.queuePolicy
  workers := c.inferenceWorkers
  executionMode := c.executionMode
  executionTimeoutS := c.executionTimeoutS
  processControlTimeoutS := c.processControlTimeoutS
  processMemoryLimitMb := c.processMemoryLimitMb
  processNofileLimit := c.processNofileLimit
  processRestartLimit := c.processRestartLimit
  processRestartWindowS := c.processRestartWindowS

def appArgs (apiKey : Option PyStr) (development : Bool) : AppArgs where
  apiKey := apiKey
  development := development
  maxRequestBytes := c.maxRequestBytes
  queueDeadlineS := c.queueDeadlineS
  shutdownTimeoutS := c.shutdownTimeoutS
  executor := c.executorArgs

/-- The values the health policy is made from. -/
def gateFields : List Yaml :=
  [c.minAccuracy, c.maxAccuracyDrop, c.maxEce, c.maxP95LatencyMs, c.maxRssMb]

def BooleanGate : Prop := ∃ b, Yaml.bool b ∈ c.gateFields

/-- A value with an exact value that is no boolean, or `None`. -/
def Numeric (v : Yaml) : Prop := v = .null ∨ ∃ n q, v.number? = some n ∧ n.rat? = some q

/-- The configuration is typed and in range, and everything can be made from it. -/
structure Usable (H : Host) : Prop where
  no_boolean : ∀ f ∈ c.numericFields, ∀ b, f.value ≠ .bool b
  finite : ∀ f ∈ c.numericFields, Numeric f.value
  inRange : ∀ f ∈ c.numericFields, f.value ∈ f.required
  healthPolicy : Accepts (c.healthPolicy H)
  qualificationLimits : Accepts c.qualificationLimits
  service : ∃ E, c.engine = .ok E ∧ Accepts (executor H E c.executorArgs) ∧
    ∀ apiKey development, development = true ∨ keyMissing apiKey = false →
      Accepts (createApp H E (c.appArgs apiKey development))

variable {c} {H : Host}

/-! ## From the accepted ranges to the required ones -/

section Ranges

variable {lo hi m : Int} {s t : Set Rat} {v : Yaml}

theorem ints_subset_atLeast (h : m ≤ lo) : ints lo hi ⊆ atLeast m :=
  Set.image_mono fun _ hi => h.trans hi.1

theorem floats_mono (h : s ⊆ t) : Yaml.floats s ⊆ Yaml.floats t := by
  rintro v ⟨n, q, x, hn, hx, hq, hmem⟩
  exact ⟨n, q, x, hn, hx, hq, h hmem⟩

theorem orNull_mono {r r' : Set Yaml} (h : r ⊆ r') : Yaml.orNull r ⊆ Yaml.orNull r' :=
  Set.insert_subset_insert h

theorem seconds_subset (hi : Rat) : seconds hi ⊆ Yaml.floats (Set.Ioc 0 hi) :=
  floats_mono fun _ hq => ⟨lt_of_lt_of_le (by norm_num) hq.1, hq.2⟩

theorem seconds_subset_positive (hi : Rat) : seconds hi ⊆ Yaml.floats (Set.Ioi 0) :=
  (seconds_subset hi).trans (floats_mono fun _ hq => hq.1)

theorem duration_subset (hi : Rat) : Yaml.floats (Set.Icc 0 hi) ⊆ Yaml.floats (Set.Ici 0) :=
  floats_mono fun _ hq => hq.1

/-- What NumPy counts as a number is one, but for booleans. -/
theorem mem_numbers (hv : v ∈ Yaml.numpyNumbers s) (hbool : ∀ b, v ≠ .bool b) :
    v ∈ Yaml.numbers s := by
  obtain ⟨-, n, q, hn, hq, hmem⟩ := hv
  refine ⟨n, q, ?_, hq, hmem⟩
  cases v with
  | bool b => exact absurd rfl (hbool b)
  | _ => exact hn

theorem inRange_required (hranges : ∀ f ∈ c.numericFields, f.value ∈ f.accepted)
    (hgate : ¬c.BooleanGate) : ∀ f ∈ c.numericFields, f.value ∈ f.required := by
  have hbool : ∀ v ∈ c.gateFields, ∀ b, v ≠ .bool b := fun v hv b hb => hgate ⟨b, hb ▸ hv⟩
  simp only [gateFields, List.forall_mem_cons] at hbool
  simp only [numericFields, List.forall_mem_cons] at hranges ⊢
  obtain ⟨hcapacity, hbatch, hfeatures, hinputs, hclasses, houtputs, hrequest, hworkers,
    hdeadline, htimeout, hcontrol, hmemory, hnofile, hrestart, hwindow, hshutdown, hmodel, hgate,
    hgateMemory, hrows, hvalidation, hvalues, hiterations, hbenchmark, haccuracy, hdrop, hece,
    hlatency, hrss, -⟩ := hranges
  obtain ⟨hb₁, hb₂, hb₃, hb₄, hb₅, -⟩ := hbool
  exact ⟨ints_subset_atLeast le_rfl hcapacity, ints_subset_atLeast le_rfl hbatch,
    ints_subset_atLeast le_rfl hfeatures, ints_subset_atLeast le_rfl hinputs,
    ints_subset_atLeast le_rfl hclasses, ints_subset_atLeast le_rfl houtputs,
    ints_subset_atLeast le_rfl hrequest, hworkers, Or.inr (duration_subset _ hdeadline),
    orNull_mono (seconds_subset_positive _) htimeout, seconds_subset_positive _ hcontrol, hmemory,
    hnofile, hrestart, seconds_subset _ hwindow, duration_subset _ hshutdown,
    ints_subset_atLeast le_rfl hmodel, hgate, hgateMemory, hrows, hvalidation, hvalues,
    hiterations, hbenchmark, mem_numbers haccuracy hb₁, mem_numbers hdrop hb₂,
    mem_numbers hece hb₃, mem_numbers hlatency hb₄, mem_numbers hrss hb₅, List.forall_mem_nil _⟩

end Ranges

/-! ## Numbers -/

section Numeric

variable {v : Yaml} {r : Set Yaml}

theorem Numeric.ne_bool (h : Numeric v) (b : Bool) : v ≠ .bool b := by
  rintro rfl
  rcases h with h | ⟨n, q, hn, -⟩
  · cases h
  · cases hn

theorem numeric_int {s : Set ℤ} (hv : v ∈ Yaml.int '' s) : Numeric v := by
  obtain ⟨i, -, rfl⟩ := hv
  exact Or.inr ⟨.int i, i, rfl, rfl⟩

theorem numeric_numbers {s : Set Rat} (hv : v ∈ Yaml.numbers s) : Numeric v := by
  obtain ⟨n, q, hn, hq, -⟩ := hv
  exact Or.inr ⟨n, q, hn, hq⟩

theorem numeric_floats {s : Set Rat} (hv : v ∈ Yaml.floats s) : Numeric v := by
  obtain ⟨n, q, x, hn, -, hq, -⟩ := hv
  exact Or.inr ⟨n, q, hn, hq⟩

theorem numeric_orNull (hr : ∀ v ∈ r, Numeric v) (hv : v ∈ Yaml.orNull r) : Numeric v := by
  rcases hv with hnull | hv
  · exact Or.inl hnull
  · exact hr v hv

/-- The ranges that are required hold numbers. -/
theorem numeric_required : ∀ f ∈ c.numericFields, ∀ v ∈ f.required, Numeric v := by
  simp only [numericFields, List.forall_mem_cons]
  have hint : ∀ s : Set ℤ, ∀ v ∈ Yaml.int '' s, Numeric v := fun _ _ => numeric_int
  have hfloat : ∀ s : Set Rat, ∀ v ∈ Yaml.floats s, Numeric v := fun _ _ => numeric_floats
  have hnumber : ∀ s : Set Rat, ∀ v ∈ Yaml.numbers s, Numeric v := fun _ _ => numeric_numbers
  have hnull : ∀ r : Set Yaml, (∀ v ∈ r, Numeric v) → ∀ v ∈ Yaml.orNull r, Numeric v :=
    fun _ hr _ => numeric_orNull hr
  exact ⟨hint _, hint _, hint _, hint _, hint _, hint _, hint _, hint _, hnull _ (hfloat _),
    hnull _ (hfloat _), hfloat _, hnull _ (hint _), hint _, hint _, hfloat _, hfloat _, hint _,
    hfloat _, hnull _ (hint _), hint _, hint _, hint _, hint _, hint _, hnumber _, hnumber _,
    hnumber _, hnumber _, hnumber _, List.forall_mem_nil _⟩

end Numeric

/-! ## The constructors -/

theorem executorArgs_inRange (h : c.Accepted)
    (hrange : ∀ f ∈ c.numericFields, f.value ∈ f.required) :
    ∃ mode : ExecutionMode, c.executionMode = .str mode.value ∧ c.executorArgs.InRange mode := by
  obtain ⟨mode, hmode, htimeout, honly⟩ := h.executionMode
  simp only [numericFields, List.forall_mem_cons] at hrange
  obtain ⟨hcapacity, -, -, -, -, -, -, hworkers, -, htimeoutS, hcontrol, hmemory, hnofile,
    hrestart, hwindow, -⟩ := hrange
  exact ⟨mode, hmode, hcapacity, hworkers, htimeoutS, hcontrol, hmemory, hnofile, hrestart,
    hwindow, htimeout, honly⟩

theorem exists_engine (hrange : ∀ f ∈ c.numericFields, f.value ∈ f.required) :
    ∃ E, c.engine = .ok E := by
  simp only [numericFields, List.forall_mem_cons] at hrange
  obtain ⟨-, hbatch, hfeatures, hinputs, hclasses, houtputs, -, -, -, -, -, -, -, -, -, -, hmodel,
    -⟩ := hrange
  exact accepts_bind (accepts_min.mpr hmodel) fun _ =>
    accepts_bind (accepts_positiveInteger hbatch) fun _ =>
      accepts_bind (accepts_positiveInteger hfeatures) fun _ =>
        accepts_bind (accepts_positiveInteger hinputs) fun _ =>
          accepts_bind (accepts_positiveInteger hclasses) fun _ =>
            accepts_bind (accepts_positiveInteger houtputs) fun _ => accepts_pure

theorem appArgs_inRange {mode : ExecutionMode} (hargs : c.executorArgs.InRange mode)
    (hrange : ∀ f ∈ c.numericFields, f.value ∈ f.required) (apiKey : Option PyStr)
    (development : Bool) : (c.appArgs apiKey development).InRange mode := by
  simp only [numericFields, List.forall_mem_cons] at hrange
  obtain ⟨-, -, -, -, -, -, hrequest, -, hdeadline, -, -, -, -, -, -, hshutdown, -⟩ := hrange
  exact ⟨hrequest, hdeadline, hshutdown, hargs⟩

theorem Accepted.constructed (hH : H.Lawful) (h : c.Accepted) :
    Accepts (c.healthPolicy H) ∧ Accepts c.qualificationLimits := by
  have hrange := h.inRange
  simp only [numericFields, List.forall_mem_cons] at hrange
  obtain ⟨-, -, -, -, -, -, -, -, -, -, -, -, hnofile, -, -, -, -, hgate, hmemory, hrows, hfeatures,
    hvalues, hiterations, hbatch, haccuracy, hdrop, hece, hlatency, hrss, -⟩ := hrange
  exact ⟨(accepts_health hH).mpr ⟨haccuracy, hdrop, hece, hlatency, hrss⟩,
    accepts_limits.mpr ⟨hgate, hmemory, hrows, hfeatures, hvalues, hiterations, hbatch, hnofile⟩⟩

/-- An accepted configuration without booleans in the health policy can be used. -/
theorem Accepted.usable (hH : H.Lawful) (h : c.Accepted) (hgate : ¬c.BooleanGate) :
    c.Usable H := by
  have hrange := inRange_required h.inRange hgate
  have hnumeric : ∀ f ∈ c.numericFields, Numeric f.value := fun f hf =>
    numeric_required f hf f.value (hrange f hf)
  obtain ⟨mode, hmode, hargs⟩ := executorArgs_inRange h hrange
  obtain ⟨policy, hpolicy⟩ := h.queuePolicy
  have hpolicy := overflowPolicy_eq_ok (H := H).mpr hpolicy
  have hmode := executionMode_eq_ok (H := H).mpr hmode
  obtain ⟨hhealth, hlimits⟩ := h.constructed hH
  obtain ⟨E, hE⟩ := exists_engine hrange
  exact ⟨fun f hf => (hnumeric f hf).ne_bool, hnumeric, hrange, hhealth, hlimits, E, hE,
    accepts_executor hargs hpolicy hmode, fun apiKey development hkey =>
      accepts_createApp (appArgs_inRange hargs hrange apiKey development) hkey hpolicy hmode⟩

/-- A boolean in the health policy is one in a numeric field. -/
theorem BooleanGate.field (h : c.BooleanGate) : ∃ f ∈ c.numericFields, ∃ b, f.value = .bool b := by
  obtain ⟨b, hb⟩ := h
  have hfields : c.gateFields = (c.numericFields.drop 24).map NumericField.value := rfl
  rw [hfields] at hb
  obtain ⟨f, hf, hvalue⟩ := List.mem_map.mp hb
  exact ⟨f, List.mem_of_mem_drop hf, b, hvalue⟩

/-- `validate` lets only usable configurations through, as long as no field of the health
policy is a boolean, and where one is, only if another field is refused. -/
theorem config_usable (H : Host) (hH : H.Lawful) (raw : List (PyStr × Yaml)) (c : RuntimeConfig)
    (_ : ofMapping raw = .ok c) :
    (Accepts (c.validate H) → c.Usable H) ↔ ¬c.BooleanGate ∨ ¬c.Accepted := by
  rw [accepts_validate hH]
  constructor
  · intro h
    by_contra hboth
    obtain ⟨hgate, haccepted⟩ := not_or.mp hboth
    obtain ⟨f, hf, b, hb⟩ := (not_not.mp hgate).field
    exact (h (not_not.mp haccepted)).no_boolean f hf b hb
  · rintro (hgate | haccepted) h
    · exact h.usable hH hgate
    · exact absurd h haccepted

/-! ## The defaults -/

section Defaults

variable {d r v : Yaml}

theorem mem_ints {i lo hi : Int} (hlo : lo ≤ i) (hhi : i ≤ hi) : .int i ∈ ints lo hi :=
  ⟨i, ⟨hlo, hhi⟩, rfl⟩

theorem literal_mem_floats {q : Rat} {s : Set Rat} (h : q ∈ s) : literal q ∈ Yaml.floats s :=
  ⟨_, q, _, rfl, rfl, rfl, h⟩

theorem literal_mem_numpyNumbers {q : Rat} {s : Set Rat} (h : q ∈ s) :
    literal q ∈ Yaml.numpyNumbers s :=
  ⟨nofun, _, q, rfl, rfl, h⟩

/-- The defaults are accepted, with any minimal accuracy that is. -/
theorem accepted_defaults (hd : IsText d) (hr : IsText r)
    (hv : v ∈ Yaml.numpyNumbers (Set.Icc 0 1)) :
    Accepted { deploymentRoot := d, registryRoot := r, minAccuracy := v } := by
  refine ⟨hd, hr, ⟨_, rfl, by decide⟩, ⟨.reject, rfl⟩, ⟨.thread, rfl, ⟨fun _ => rfl, fun _ => rfl⟩,
    fun h => absurd rfl h⟩, ⟨true, rfl⟩, ?_⟩
  have hseconds : ∀ {q hi : Rat}, 1 ≤ q → q ≤ hi → literal q ∈ seconds hi := fun hlo hhi =>
    literal_mem_floats ⟨le_trans (by norm_num) hlo, hhi⟩
  have hunit : ∀ {q : Rat}, 0 ≤ q → q ≤ 1 → literal q ∈ Yaml.numpyNumbers (Set.Icc 0 1) :=
    fun hlo hhi => literal_mem_numpyNumbers ⟨hlo, hhi⟩
  simp only [numericFields, List.forall_mem_cons]
  refine ⟨mem_ints ?_ ?_, mem_ints ?_ ?_, mem_ints ?_ ?_, mem_ints ?_ ?_, mem_ints ?_ ?_,
    mem_ints ?_ ?_, mem_ints ?_ ?_, mem_ints ?_ ?_, literal_mem_floats ⟨?_, ?_⟩, Or.inl rfl,
    hseconds ?_ ?_, Or.inl rfl, mem_ints ?_ ?_, mem_ints ?_ ?_, hseconds ?_ ?_,
    literal_mem_floats ⟨?_, ?_⟩, mem_ints ?_ ?_, literal_mem_floats ?_, Or.inl rfl,
    mem_ints ?_ ?_, mem_ints ?_ ?_, mem_ints ?_ ?_, mem_ints ?_ ?_, mem_ints ?_ ?_, hv,
    hunit ?_ ?_, hunit ?_ ?_, literal_mem_numpyNumbers ?_, literal_mem_numpyNumbers ?_,
    List.forall_mem_nil _⟩ <;>
    norm_num

end Defaults

/-! ## A boolean that gets through -/

namespace Sample

/-- `np.isfinite`, and a `repr` of no interest. -/
def host : Host where
  repr _ := py "..."
  isfinite
    | .bool _ => .ok true
    | .float x => .ok x.isfinite
    | .int i => if -9223372036854775808 ≤ i ∧ i < 18446744073709551616 then .ok true
      else .error (raise .typeError "ufunc 'isfinite' not supported")
    | _ => .error (raise .typeError "ufunc 'isfinite' not supported")

theorem host_lawful : host.Lawful where
  isfinite_bool _ := rfl
  isfinite_float _ := rfl
  isfinite_int _ hi := if_pos hi
  isfinite_object _ hi := ⟨_, if_neg hi⟩

/-- A configuration file that sets `min_accuracy: true`. -/
def raw : List (PyStr × Yaml) :=
  [("deployment_root", .str "d"), ("registry_root", .str "r"), ("min_accuracy", .bool true)]

def config : RuntimeConfig where
  deploymentRoot := .str "d"
  registryRoot := .str "r"
  minAccuracy := .bool true

theorem ofMapping_raw : ofMapping raw = .ok config := rfl

end Sample

theorem config_usable_sample :
    (Accepts (Sample.config.validate Sample.host) → Sample.config.Usable Sample.host) ↔
      ¬Sample.config.BooleanGate ∨ ¬Sample.config.Accepted :=
  config_usable Sample.host Sample.host_lawful Sample.raw Sample.config Sample.ofMapping_raw

/-- A boolean minimal accuracy is validated. -/
theorem boolean_accuracy_validated :
    ofMapping Sample.raw = .ok Sample.config ∧ Accepts (Sample.config.validate Sample.host) ∧
      ∃ f ∈ Sample.config.numericFields, f.value = .bool true := by
  have haccepted : Sample.config.Accepted :=
    accepted_defaults ⟨_, rfl, by decide⟩ ⟨_, rfl, by decide⟩ ⟨nofun, _, 1, rfl, rfl, by norm_num⟩
  refine ⟨Sample.ofMapping_raw, (accepts_validate Sample.host_lawful).mpr haccepted, ?_⟩
  exact ⟨_, List.mem_of_getElem? (i := 24) rfl, rfl⟩

end RuntimeConfig
end Config
end EdgeFort
