/-
What `manifest_from_dict` accepts and what it raises (`artifact.py`).

It accepts the records of one schema and raises `ValidationError` for any other, but for
two gaps: `math.isfinite` raises `OverflowError` for an integer no float can hold, and the
encoder that measures the metadata may run out of recursion.
-/
import EdgeFort.Registry.CanonicalManifest

namespace EdgeFort

open Effect Manifest

/-! ## The metrics -/

namespace PyNum

/-- The number is an integer, or a float that is finite. -/
def Finite : PyNum → Prop
  | int _ => True
  | float x => x.isfinite = true

end PyNum

/-- A finite number is a finite float, or none. -/
theorem PyNum.Finite.toFloat {x : PyNum} (h : x.Finite) :
    x.toFloat? = none ∨ ∃ f, x.toFloat? = some f ∧ f.isfinite = true := by
  cases x with
  | float f => exact Or.inr ⟨f, rfl, h⟩
  | int i =>
    have hnan := PyFloat.round_ne_nan i
    simp only [toFloat?]
    cases hr : PyFloat.round i with
    | nan => exact absurd hr hnan
    | inf s => exact Or.inl rfl
    | negZero => exact Or.inr ⟨_, rfl, rfl⟩
    | finite q => exact Or.inr ⟨_, rfl, rfl⟩

theorem PyNum.finite_of_toFloat {x : PyNum} {f : PyFloat} (h : x.toFloat? = some f)
    (hf : f.isfinite = true) : x.Finite := by
  cases x with
  | int i => trivial
  | float g =>
    obtain rfl := Option.some.inj h
    exact hf

namespace ModelMetrics

/-- The metrics in the order they are tested. -/
def values (m : ModelMetrics) : List PyNum :=
  [m.accuracy, m.ece, m.p95LatencyMs, m.maxRssMb]

/-- The first number that is not a finite float is an integer too large for one. -/
def Overflows (xs : List PyNum) : Prop :=
  ∃ pre x post, xs = pre ++ x :: post ∧ x.toFloat? = none ∧ ∀ y ∈ pre, y.Finite

variable {xs : List PyNum} {x : PyNum} {m : ModelMetrics}

theorem overflows_cons : Overflows (x :: xs) ↔ x.toFloat? = none ∨ x.Finite ∧ Overflows xs := by
  constructor
  · rintro ⟨pre, y, post, hxs, hy, hpre⟩
    cases pre with
    | nil =>
      obtain ⟨rfl, -⟩ := List.cons.inj hxs
      exact Or.inl hy
    | cons z pre =>
      obtain ⟨rfl, htail⟩ := List.cons.inj hxs
      exact Or.inr ⟨hpre x List.mem_cons_self, pre, y, post, htail, hy,
        fun w hw => hpre w (List.mem_cons_of_mem _ hw)⟩
  · rintro (hx | ⟨hx, pre, y, post, hxs, hy, hpre⟩)
    · exact ⟨[], x, xs, rfl, hx, nofun⟩
    · exact ⟨x :: pre, y, post, congrArg (x :: ·) hxs, hy, List.forall_mem_cons.mpr ⟨hx, hpre⟩⟩

/-- The three ends of `all(math.isfinite(v) for v in values)`. -/
theorem allFinite_cases (xs : List PyNum) :
    (allFinite xs = .ok true ∧ (∀ x ∈ xs, x.Finite) ∧ ¬Overflows xs) ∨
      (allFinite xs = .ok false ∧ (¬∀ x ∈ xs, x.Finite) ∧ ¬Overflows xs) ∨
      (allFinite xs = .error (raise .overflowError "int too large to convert to float") ∧
        Overflows xs) := by
  induction xs with
  | nil => exact Or.inl ⟨rfl, nofun, fun ⟨pre, x, post, h, _⟩ => by simp at h⟩
  | cons x xs ih =>
    rw [overflows_cons, List.forall_mem_cons]
    cases hx : x.toFloat? with
    | none =>
      refine Or.inr (Or.inr ⟨?_, Or.inl rfl⟩)
      simp only [allFinite, isfinite, hx, error_bind]
    | some f =>
      have hfinite : x.Finite ↔ f.isfinite = true := by
        refine ⟨fun h => ?_, PyNum.finite_of_toFloat hx⟩
        rcases h.toFloat with hn | ⟨g, hg, hgf⟩
        · rw [hn] at hx
          cases hx
        · rw [hg] at hx
          exact Option.some.inj hx ▸ hgf
      have hrun : allFinite (x :: xs) = if f.isfinite then allFinite xs else .ok false := by
        simp only [allFinite, isfinite, hx, ok_bind]
        rfl
      rw [hrun, hfinite]
      cases hf : f.isfinite with
      | false => exact Or.inr (Or.inl ⟨rfl, by simp, by simp⟩)
      | true => simpa using ih

/-- What `validate` accepts. -/
theorem validate_eq_ok : m.validate = .ok () ↔
    (∀ x ∈ m.values, x.Finite) ∧ ¬Overflows m.values ∧
      ((PyNum.int 0).le m.accuracy = true ∧ m.accuracy.le (.int 1) = true) ∧
      ((PyNum.int 0).le m.ece = true ∧ m.ece.le (.int 1) = true) ∧
      m.p95LatencyMs.lt (.int 0) = false ∧ m.maxRssMb.lt (.int 0) = false := by
  simp only [validate, bind_eq_ok, raiseIf_eq_ok, not_not, not_or, Bool.not_eq_true]
  rcases allFinite_cases m.values with ⟨hrun, hfin, hover⟩ | ⟨hrun, hfin, hover⟩ | ⟨hrun, hover⟩
  · constructor
    · rintro ⟨b, -, _, -, _, ha, _, he, hl⟩
      exact ⟨hfin, hover, ha, he, hl⟩
    · rintro ⟨-, -, ha, he, hl⟩
      exact ⟨true, hrun, (), Bool.true_eq_false_eq_False, (), ha, (), he, hl⟩
  · constructor
    · rintro ⟨b, hb, _, hfalse, -⟩
      exact absurd (Except.ok.inj (hb.symm.trans hrun)) hfalse
    · exact fun h => absurd h.1 hfin
  · constructor
    · rintro ⟨b, hb, -⟩
      exact absurd (hb.symm.trans hrun) ok_ne_error
    · exact fun h => absurd hover h.2.1

theorem validate_overflow (h : Overflows m.values) :
    m.validate = .error (raise .overflowError "int too large to convert to float") := by
  rcases allFinite_cases m.values with ⟨-, -, hover⟩ | ⟨-, -, hover⟩ | ⟨hrun, -⟩
  · exact absurd h hover
  · exact absurd h hover
  · have hbind : m.validate = allFinite m.values >>= _ := rfl
    rw [hbind, hrun]
    rfl

/-- Where no number overflows, `validate` raises `ValueError` only. -/
theorem validate_raises (h : ¬Overflows m.values) :
    RaisesOnly (fun e => e.cls = .valueError) m.validate := by
  have hfinite : ∃ finite, allFinite m.values = .ok finite := by
    rcases allFinite_cases m.values with ⟨hrun, -⟩ | ⟨hrun, -⟩ | ⟨-, hover⟩
    · exact ⟨true, hrun⟩
    · exact ⟨false, hrun⟩
    · exact absurd hover h
  obtain ⟨finite, hfinite⟩ := hfinite
  refine raisesOnly_bind.mpr ⟨fun e he => absurd (hfinite.symm.trans he) ok_ne_error, fun _ _ => ?_⟩
  refine raisesOnly_bind.mpr ⟨raisesOnly_raiseIf rfl, fun _ _ => ?_⟩
  refine raisesOnly_bind.mpr ⟨raisesOnly_raiseIf rfl, fun _ _ => ?_⟩
  exact raisesOnly_bind.mpr ⟨raisesOnly_raiseIf rfl, fun _ _ => raisesOnly_raiseIf rfl⟩

end ModelMetrics

/-! ## The checks of a record -/

/-- The exception the callers of `manifest_from_dict` expect. -/
def IsValidationError (e : PyError) : Prop := e.cls = .validationError

namespace Manifest

variable {P : Platform} {v : Json}

theorem checkedMetrics_raises {m : ModelMetrics} :
    RaisesOnly IsValidationError (checkedMetrics m) ↔ ¬ModelMetrics.Overflows m.values := by
  unfold checkedMetrics
  split
  · rename_i hok
    exact ⟨fun _ => (ModelMetrics.validate_eq_ok.mp hok).2.1, fun _ => raisesOnly_ok⟩
  · rename_i e he
    rw [raisesOnly_error]
    constructor
    · intro h hover
      rw [ModelMetrics.validate_overflow hover] at he
      rw [← Except.error.inj he] at h
      cases h
    · intro hover
      have hcls := ModelMetrics.validate_raises hover e he
      simp [asValidationError, hcls, IsValidationError, validationError, raise]

/-- The metadata check lets a `RecursionError` through. -/
theorem recordMetadata_raises (hv : v.strict = true) :
    RaisesOnly IsValidationError (recordMetadata P v) ↔
      RaisesOnly (fun e => e.cls ≠ .recursionError) (canonicalJsonBytes P.interpreter v) := by
  have hstrict : strictMetadata v = .ok ⟨v, hv⟩ := strictMetadata_ok.mpr rfl
  rw [recordMetadata, hstrict, validateMetadata, PyObject.canonicalBytes_toObject,
    ← canonicalJsonBytes]
  cases canonicalJsonBytes P.interpreter v with
  | error e =>
    rw [raisesOnly_error]
    simp only
    split_ifs with hcls
    · exact ⟨fun h => absurd ((raisesOnly_error.mp h).symm.trans hcls) (by decide),
        fun h => absurd hcls h⟩
    · exact ⟨fun _ => hcls, fun _ => raisesOnly_error.mpr rfl⟩
  | ok encoded =>
    exact ⟨fun _ => raisesOnly_ok,
      fun _ => raisesOnly_bind.mpr ⟨raisesOnly_raiseIf rfl, fun _ _ => raisesOnly_ok⟩⟩

theorem intField_raises (text : PyStr) (v : Json) :
    RaisesOnly IsValidationError (intField text v) := by
  cases v <;> first | exact raisesOnly_ok | exact raisesOnly_error.mpr rfl

theorem strField_raises (field : PyStr) (v : Json) :
    RaisesOnly IsValidationError (strField field v) := by
  cases v <;> first | exact raisesOnly_ok | exact raisesOnly_error.mpr rfl

theorem numField_raises (field : PyStr) (v : Json) :
    RaisesOnly IsValidationError (numField field v) := by
  cases v <;> first | exact raisesOnly_ok | exact raisesOnly_error.mpr rfl

theorem sequenceField_raises (v : Json) : RaisesOnly IsValidationError (sequenceField v) := by
  unfold sequenceField
  simp only
  split
  · split
    · exact raisesOnly_ok
    · exact raisesOnly_error.mpr rfl
  · exact raisesOnly_error.mpr rfl

theorem modelBytesField_raises (v : Json) : RaisesOnly IsValidationError (modelBytesField v) :=
  raisesOnly_bind.mpr ⟨intField_raises _ v, fun _ _ => raisesOnly_bind.mpr
    ⟨raisesOnly_raiseIf rfl, fun _ _ => raisesOnly_ok⟩⟩

theorem semverField_raises (version : PyStr) :
    RaisesOnly IsValidationError (semverField version) := by
  unfold semverField
  split
  · exact raisesOnly_ok
  · exact raisesOnly_error.mpr rfl

theorem metricsField_raises (m : MetricsRecord) :
    RaisesOnly IsValidationError (metricsField m) := by
  refine raisesOnly_bind.mpr ⟨numField_raises _ _, fun _ _ => ?_⟩
  refine raisesOnly_bind.mpr ⟨numField_raises _ _, fun _ _ => ?_⟩
  refine raisesOnly_bind.mpr ⟨numField_raises _ _, fun _ _ => ?_⟩
  exact raisesOnly_bind.mpr ⟨numField_raises _ _, fun _ _ => raisesOnly_ok⟩

theorem validateCreatedUtc_raises (P : Platform) (value : PyStr) :
    RaisesOnly IsValidationError (validateCreatedUtc P value) := by
  unfold validateCreatedUtc
  split
  · exact raisesOnly_error.mpr rfl
  · exact raisesOnly_error.mpr rfl
  · exact raisesOnly_raiseIf rfl

end Manifest

/-- Each field has its type, and the checks before those of the metrics' ranges pass. -/
structure ManifestRecord.Typed (r : ManifestRecord) (m : ModelMetrics) : Prop where
  schemaVersion : ∃ i, r.schemaVersion = .int i
  releaseSequence : ∃ i, r.releaseSequence = .int i ∧ 0 ≤ i ∧ i ≤ maxReleaseSequence
  modelBytes : ∃ i, r.modelBytes = .int i ∧ 1 ≤ i
  version : ∃ v, r.version = .str v ∧ semverMatch v = true
  modelKind : ∃ s, r.modelKind = .str s
  runtimeAbi : ∃ s, r.runtimeAbi = .str s
  modelSha256 : ∃ s, r.modelSha256 = .str s
  createdUtc : ∃ s, r.createdUtc = .str s
  metrics : r.metrics = ⟨m.accuracy.toJson, m.ece.toJson, m.p95LatencyMs.toJson, m.maxRssMb.toJson⟩
  metadata : isObject r.metadata = true

/-- The checks between the metrics' ranges and the metadata pass. -/
structure ManifestRecord.Described (P : Platform) (r : ManifestRecord) : Prop where
  schemaVersion : r.schemaVersion = .int 1
  modelKind : r.modelKind ≠ .str []
  runtimeAbi : r.runtimeAbi ≠ .str []
  modelSha256 : ∃ s, r.modelSha256 = .str s ∧ sha256Match s = true
  createdUtc : ∃ s, r.createdUtc = .str s ∧ validateCreatedUtc P s = .ok ()

variable {P : Platform} {r : ManifestRecord} {m : ModelMetrics}

/-- A record raises `ValidationError` only, but for metrics that overflow and for
metadata whose measuring raises something else. -/
theorem validateManifest_raises : RaisesOnly IsValidationError (validateManifest P r) ↔
    ∀ m, r.Typed m → ¬ModelMetrics.Overflows m.values ∧ (m.validate = .ok () → r.Described P →
      RaisesOnly IsValidationError (recordMetadata P r.metadata)) := by
  constructor
  · intro h m ht
    obtain ⟨schema, hschema⟩ := ht.schemaVersion
    obtain ⟨seq, hseq, hrange⟩ := ht.releaseSequence
    obtain ⟨bytes, hbytes, hpos⟩ := ht.modelBytes
    obtain ⟨version, hversion, hsemver⟩ := ht.version
    obtain ⟨kind, hkind⟩ := ht.modelKind
    obtain ⟨abi, habi⟩ := ht.runtimeAbi
    obtain ⟨sha, hsha⟩ := ht.modelSha256
    obtain ⟨created, hcreated⟩ := ht.createdUtc
    have h := (raisesOnly_bind.mp h).2 _ (intField_ok.mpr hschema)
    have h := (raisesOnly_bind.mp h).2 ⟨seq, hrange⟩ (sequenceField_ok.mpr hseq)
    have h := (raisesOnly_bind.mp h).2 _ (modelBytesField_ok.mpr ⟨hbytes, hpos⟩)
    have h := (raisesOnly_bind.mp h).2 _ (strField_ok.mpr hversion)
    have h := (raisesOnly_bind.mp h).2 _ (strField_ok.mpr hkind)
    have h := (raisesOnly_bind.mp h).2 _ (strField_ok.mpr habi)
    have h := (raisesOnly_bind.mp h).2 _ (strField_ok.mpr hsha)
    have h := (raisesOnly_bind.mp h).2 _ (strField_ok.mpr hcreated)
    have h := (raisesOnly_bind.mp h).2 m (metricsField_ok.mpr ht.metrics)
    have h := (raisesOnly_bind.mp h).2 () (raiseIf_neg (by simp [ht.metadata]))
    have h := (raisesOnly_bind.mp h).2 ⟨version, hsemver⟩ (semverField_ok.mpr rfl)
    obtain ⟨hmetrics, h⟩ := raisesOnly_bind.mp h
    refine ⟨checkedMetrics_raises.mp hmetrics, fun hvalid hd => ?_⟩
    obtain ⟨sha', hsha', hmatch⟩ := hd.modelSha256
    obtain ⟨created', hcreated', hutc⟩ := hd.createdUtc
    obtain rfl := Json.str.inj (hsha.symm.trans hsha')
    obtain rfl := Json.str.inj (hcreated.symm.trans hcreated')
    have hone : ¬schema ≠ 1 :=
      not_not.mpr (Json.int.inj (hschema.symm.trans hd.schemaVersion))
    have hnonempty : ¬(kind = [] ∨ abi = []) := by
      rintro (rfl | rfl)
      · exact hd.modelKind hkind
      · exact hd.runtimeAbi habi
    have h := h ⟨m, hvalid⟩ (checkedMetrics_ok.mpr rfl)
    have h := (raisesOnly_bind.mp h).2 () (raiseIf_neg hone)
    have h := (raisesOnly_bind.mp h).2 () (raiseIf_neg hnonempty)
    have h := (raisesOnly_bind.mp h).2 () (raiseIf_neg (by simp [hmatch]))
    have h := (raisesOnly_bind.mp h).2 () hutc
    exact (raisesOnly_bind.mp h).1
  · intro h
    refine raisesOnly_bind.mpr ⟨intField_raises _ _, fun schema hschema => ?_⟩
    refine raisesOnly_bind.mpr ⟨sequenceField_raises _, fun seq hseq => ?_⟩
    refine raisesOnly_bind.mpr ⟨modelBytesField_raises _, fun bytes hbytes => ?_⟩
    refine raisesOnly_bind.mpr ⟨strField_raises _ _, fun version hversion => ?_⟩
    refine raisesOnly_bind.mpr ⟨strField_raises _ _, fun kind hkind => ?_⟩
    refine raisesOnly_bind.mpr ⟨strField_raises _ _, fun abi habi => ?_⟩
    refine raisesOnly_bind.mpr ⟨strField_raises _ _, fun sha hsha => ?_⟩
    refine raisesOnly_bind.mpr ⟨strField_raises _ _, fun created hcreated => ?_⟩
    refine raisesOnly_bind.mpr ⟨metricsField_raises _, fun m hm => ?_⟩
    refine raisesOnly_bind.mpr ⟨raisesOnly_raiseIf rfl, fun _ hobject => ?_⟩
    refine raisesOnly_bind.mpr ⟨semverField_raises _, fun v hv => ?_⟩
    have hschema := intField_ok.mp hschema
    have hkind := strField_ok.mp hkind
    have habi := strField_ok.mp habi
    have hsha := strField_ok.mp hsha
    have hcreated := strField_ok.mp hcreated
    have hv := semverField_ok.mp hv
    have ht : r.Typed m := {
      schemaVersion := ⟨schema, hschema⟩
      releaseSequence := ⟨seq.1, sequenceField_ok.mp hseq, seq.2⟩
      modelBytes := ⟨bytes, modelBytesField_ok.mp hbytes⟩
      version := ⟨version, strField_ok.mp hversion, hv ▸ v.2⟩
      modelKind := ⟨kind, hkind⟩
      runtimeAbi := ⟨abi, habi⟩
      modelSha256 := ⟨sha, hsha⟩
      createdUtc := ⟨created, hcreated⟩
      metrics := metricsField_ok.mp hm
      metadata := by simpa using raiseIf_eq_ok.mp hobject }
    obtain ⟨hover, hmetadata⟩ := h m ht
    refine raisesOnly_bind.mpr ⟨checkedMetrics_raises.mpr hover, fun n hn => ?_⟩
    refine raisesOnly_bind.mpr ⟨raisesOnly_raiseIf rfl, fun _ hone => ?_⟩
    refine raisesOnly_bind.mpr ⟨raisesOnly_raiseIf rfl, fun _ hnonempty => ?_⟩
    refine raisesOnly_bind.mpr ⟨raisesOnly_raiseIf rfl, fun _ hmatch => ?_⟩
    refine raisesOnly_bind.mpr ⟨validateCreatedUtc_raises P _, fun _ hutc => ?_⟩
    have hone := not_not.mp (raiseIf_eq_ok.mp hone)
    obtain ⟨hkindne, habine⟩ := not_or.mp (raiseIf_eq_ok.mp hnonempty)
    have hd : r.Described P := {
      schemaVersion := hone ▸ hschema
      modelKind := fun he => hkindne (Json.str.inj (hkind.symm.trans he))
      runtimeAbi := fun he => habine (Json.str.inj (habi.symm.trans he))
      modelSha256 := ⟨sha, hsha, by simpa using raiseIf_eq_ok.mp hmatch⟩
      createdUtc := ⟨created, hcreated, hutc⟩ }
    have hvalid : m.validate = .ok () := checkedMetrics_ok.mp hn ▸ n.2
    exact raisesOnly_bind.mpr ⟨hmetadata hvalid hd, fun _ _ => raisesOnly_ok⟩

/-! ## The schema -/

/-- An object with just the keys. -/
def SameKeys (fields : List (PyStr × Json)) (keys : List PyStr) : Prop :=
  ∀ k, k ∈ fields.map Prod.fst ↔ k ∈ keys

/-- The JSON object has exactly the ten fields and the four metric fields, with these
values. -/
def Fields (data : Json) (r : ManifestRecord) : Prop :=
  ∃ fields ms, data = .obj fields ∧ SameKeys fields manifestFields ∧
    Json.item fields "metrics" = .obj ms ∧ SameKeys ms metricFields ∧ r = {
      schemaVersion := Json.item fields "schema_version"
      releaseSequence := Json.item fields "release_sequence"
      version := Json.item fields "version"
      modelKind := Json.item fields "model_kind"
      runtimeAbi := Json.item fields "runtime_abi"
      modelSha256 := Json.item fields "model_sha256"
      modelBytes := Json.item fields "model_bytes"
      metrics := ⟨Json.item ms "accuracy", Json.item ms "ece", Json.item ms "p95_latency_ms",
        Json.item ms "max_rss_mb"⟩
      createdUtc := Json.item fields "created_utc"
      metadata := Json.item fields "metadata" }

/-- Finite metrics in their ranges. -/
structure ModelMetrics.InRange (m : ModelMetrics) : Prop where
  finite : ∀ x ∈ m.values, x.Finite
  accuracy : (PyNum.int 0).le m.accuracy = true ∧ m.accuracy.le (.int 1) = true
  ece : (PyNum.int 0).le m.ece = true ∧ m.ece.le (.int 1) = true
  nonneg : m.p95LatencyMs.lt (.int 0) = false ∧ m.maxRssMb.lt (.int 0) = false

/-- What the schema asks of the fields' values. -/
structure ManifestRecord.Schema (P : Platform) (r : ManifestRecord) : Prop where
  typed : ∃ m, r.Typed m ∧ m.InRange
  described : r.Described P
  metadata : ∃ encoded, canonicalJsonBytes P.interpreter r.metadata = .ok encoded ∧
    encoded.length ≤ maxMetadataBytes

/-- `manifest_from_dict` returns the object's manifest for an object of the schema, and
raises `ValidationError` for any other value. -/
structure ManifestContract (P : Platform) (data : Json) : Prop where
  raises : RaisesOnly IsValidationError (manifestFromDict P data)
  returns : ∀ r, Fields data r → r.Schema P → ∃ m, manifestFromDict P data = .ok m
  result : ∀ m, manifestFromDict P data = .ok m → Fields data m.record ∧ m.record.Schema P

/-- All checks before the metrics' ranges pass, and the first metric that is no finite
float is an integer too large for one. -/
def ManifestRecord.Overflowing (r : ManifestRecord) : Prop :=
  ∃ m, r.Typed m ∧ ModelMetrics.Overflows m.values

/-- All checks before the metadata's pass, and encoding the metadata exceeds the
recursion limit. -/
def ManifestRecord.TooDeep (P : Platform) (r : ManifestRecord) : Prop :=
  (∃ m, r.Typed m ∧ m.InRange ∧ ¬ModelMetrics.Overflows m.values) ∧ r.Described P ∧
    ∃ e, canonicalJsonBytes P.interpreter r.metadata = .error e ∧ e.cls = .recursionError

theorem keysAre_iff {fields : List (PyStr × Json)} {keys : List PyStr} :
    Json.keysAre fields keys = true ↔ SameKeys fields keys := by
  have hlookup : ∀ k, (fields.lookup k).isSome = true ↔ k ∈ fields.map Prod.fst := by
    intro k
    rw [Option.isSome_iff_ne_none, ne_eq, List.lookup_eq_none_iff, List.mem_map]
    constructor
    · intro h
      by_contra hnot
      refine h fun f hf => ?_
      rw [bne_iff_ne]
      rintro rfl
      exact hnot ⟨f, hf, rfl⟩
    · rintro ⟨f, hf, rfl⟩ h
      exact absurd rfl (bne_iff_ne.mp (h f hf))
  simp only [Json.keysAre, Bool.and_eq_true, List.all_eq_true, List.contains_iff_mem, hlookup]
  constructor
  · rintro ⟨hsub, hsup⟩ k
    refine ⟨fun hk => ?_, hsup k⟩
    obtain ⟨f, hf, rfl⟩ := List.mem_map.mp hk
    exact hsub f hf
  · exact fun h => ⟨fun f hf => (h f.1).mp (List.mem_map_of_mem hf), fun k hk => (h k).mpr hk⟩

theorem metricsRecord_ok {v : Json} {ms : MetricsRecord} : metricsRecord v = .ok ms ↔
    ∃ fields, v = .obj fields ∧ SameKeys fields metricFields ∧
      ms = ⟨Json.item fields "accuracy", Json.item fields "ece",
        Json.item fields "p95_latency_ms", Json.item fields "max_rss_mb"⟩ := by
  cases v with
  | obj fields =>
    simp only [metricsRecord, Json.obj.injEq, exists_eq_left', ← keysAre_iff]
    split_ifs with hkeys
    · simp [hkeys, eq_comm]
    · simp [hkeys]
  | _ => simp [metricsRecord]

theorem recordFromDict_ok {data : Json} : recordFromDict data = .ok r ↔ Fields data r := by
  cases data with
  | obj fields =>
    simp only [recordFromDict, bind_eq_ok, raiseIf_eq_ok, Bool.not_eq_false, pure_eq_ok,
      metricsRecord_ok, Fields, keysAre_iff, Json.obj.injEq]
    constructor
    · rintro ⟨_, hkeys, _, ⟨ms, hms, hmetric, rfl⟩, rfl⟩
      exact ⟨fields, ms, rfl, hkeys, hms, hmetric, rfl⟩
    · rintro ⟨_, ms, rfl, hkeys, hms, hmetric, rfl⟩
      exact ⟨(), hkeys, _, ⟨ms, hms, hmetric, rfl⟩, rfl⟩
  | _ => simp [recordFromDict, Fields]

theorem Fields.metadata_strict {data : Json} (h : Fields data r) (hd : data.strict = true) :
    r.metadata.strict = true := by
  obtain ⟨fields, ms, rfl, -, -, -, rfl⟩ := h
  exact Json.item_strict hd _

theorem ModelMetrics.validate_iff : m.validate = .ok () ↔ m.InRange ∧ ¬Overflows m.values := by
  rw [validate_eq_ok]
  constructor
  · rintro ⟨hfinite, hover, haccuracy, hece, hnonneg⟩
    exact ⟨⟨hfinite, haccuracy, hece, hnonneg⟩, hover⟩
  · rintro ⟨h, hover⟩
    exact ⟨h.finite, hover, h.accuracy, h.ece, h.nonneg⟩

theorem manifestFromDict_eq {data : Json} (h : Fields data r) :
    manifestFromDict P data = validateManifest P r := by
  rw [manifestFromDict, recordFromDict_ok.mpr h]

/-- What `manifest_from_dict` may raise. -/
theorem manifestFromDict_raises {data : Json} (hd : data.strict = true) :
    RaisesOnly IsValidationError (manifestFromDict P data) ↔
      ∀ r, Fields data r → ¬r.Overflowing ∧ ¬r.TooDeep P := by
  constructor
  · intro h r hr
    rw [manifestFromDict_eq hr] at h
    have h := validateManifest_raises.mp h
    refine ⟨fun ⟨m, ht, hover⟩ => (h m ht).1 hover, ?_⟩
    rintro ⟨⟨m, ht, hrange, hover⟩, hdescribed, e, he, hcls⟩
    have hmetadata := (h m ht).2 (ModelMetrics.validate_iff.mpr ⟨hrange, hover⟩) hdescribed
    exact (recordMetadata_raises (hr.metadata_strict hd)).mp hmetadata e he hcls
  · intro h
    cases hrecord : recordFromDict data with
    | error e =>
      rw [manifestFromDict, hrecord]
      exact raisesOnly_error.mpr rfl
    | ok r =>
      have hr := recordFromDict_ok.mp hrecord
      obtain ⟨hover, hdeep⟩ := h r hr
      rw [manifestFromDict_eq hr]
      refine validateManifest_raises.mpr fun m ht => ⟨fun ho => hover ⟨m, ht, ho⟩, ?_⟩
      intro hvalid hdescribed
      obtain ⟨hrange, hnot⟩ := ModelMetrics.validate_iff.mp hvalid
      refine (recordMetadata_raises (hr.metadata_strict hd)).mpr fun e he hcls => ?_
      exact hdeep ⟨⟨m, ht, hrange, hnot⟩, hdescribed, e, he, hcls⟩

theorem ArtifactManifest.Checked.schema_of {a : ArtifactManifest} (h : a.Checked P) :
    a.record.Schema P where
  typed := by
    refine ⟨a.metrics, ?_, (ModelMetrics.validate_iff.mp a.metrics_valid).1⟩
    exact {
      schemaVersion := ⟨_, rfl⟩
      releaseSequence := ⟨_, rfl, a.sequence_nonneg, a.sequence_le⟩
      modelBytes := ⟨_, rfl, h.model_bytes⟩
      version := ⟨_, rfl, a.version_semver⟩
      modelKind := ⟨_, rfl⟩
      runtimeAbi := ⟨_, rfl⟩
      modelSha256 := ⟨_, rfl⟩
      createdUtc := ⟨_, rfl⟩
      metrics := rfl
      metadata := h.metadata_object }
  described := {
    schemaVersion := congrArg Json.int h.schema
    modelKind := fun he => h.kind_and_abi.1 (Json.str.inj he)
    runtimeAbi := fun he => h.kind_and_abi.2 (Json.str.inj he)
    modelSha256 := ⟨_, rfl, h.sha256⟩
    createdUtc := ⟨_, rfl, h.created_utc⟩ }
  metadata := h.metadata_bytes

/-- A record of the schema whose metrics do not overflow is that of a checked manifest. -/
theorem ManifestRecord.Schema.checked (h : r.Schema P) (hover : ¬r.Overflowing)
    (hstrict : r.metadata.strict = true) : ∃ a : ArtifactManifest, r = a.record ∧ a.Checked P := by
  obtain ⟨m, ht, hrange⟩ := h.typed
  obtain ⟨seq, hseq, hnonneg, hle⟩ := ht.releaseSequence
  obtain ⟨bytes, hbytes, hpos⟩ := ht.modelBytes
  obtain ⟨version, hversion, hsemver⟩ := ht.version
  obtain ⟨kind, hkind⟩ := ht.modelKind
  obtain ⟨abi, habi⟩ := ht.runtimeAbi
  obtain ⟨sha, hsha, hmatch⟩ := h.described.modelSha256
  obtain ⟨created, hcreated, hutc⟩ := h.described.createdUtc
  have hschema := h.described.schemaVersion
  have hmetrics := ht.metrics
  refine ⟨⟨1, seq, version, kind, abi, sha, bytes, m, created, r.metadata, hnonneg, hle, hsemver,
    ModelMetrics.validate_iff.mpr ⟨hrange, fun ho => hover ⟨m, ht, ho⟩⟩, hstrict⟩, ?_, ?_⟩
  · obtain ⟨⟨_, _, _, _, _, _, _, _, _⟩, _⟩ := r
    simp_all [ArtifactManifest.record, ArtifactManifest.header]
  · exact {
      schema := rfl
      model_bytes := hpos
      kind_and_abi := ⟨fun he => h.described.modelKind (hkind.trans (congrArg Json.str he)),
        fun he => h.described.runtimeAbi (habi.trans (congrArg Json.str he))⟩
      sha256 := hmatch
      created_utc := hutc
      metadata_object := ht.metadata
      metadata_bytes := h.metadata }

/-- For every value `strict_json_loads` gives, the contract holds just when no metric
overflows and measuring the metadata does not run out of recursion. -/
theorem manifest_contract (P : Platform) (text : JsonText) (data : Json)
    (h : strictJsonLoads P.interpreter text = .ok data) :
    ManifestContract P data ↔ ∀ r, Fields data r → ¬r.Overflowing ∧ ¬r.TooDeep P := by
  have hd := strictJsonLoads_strict h
  constructor
  · exact fun hc => (manifestFromDict_raises hd).mp hc.raises
  · intro hr
    refine ⟨(manifestFromDict_raises hd).mpr hr, fun r hf hs => ?_, fun a ha => ?_⟩
    · obtain ⟨a, hrecord, hchecked⟩ := hs.checked (hr r hf).1 (hf.metadata_strict hd)
      exact ⟨a, (manifestFromDict_eq hf).trans (validateManifest_ok.mpr ⟨hrecord, hchecked⟩)⟩
    · cases hrecord : recordFromDict data with
      | error e =>
        rw [manifestFromDict, hrecord] at ha
        cases ha
      | ok r =>
        have hf := recordFromDict_ok.mp hrecord
        rw [manifestFromDict_eq hf] at ha
        obtain ⟨rfl, hchecked⟩ := validateManifest_ok.mp ha
        exact ⟨hf, hchecked.schema_of⟩

/-! ## A latency no float can hold -/

namespace Sample

def hugeLatency : PyNum := .int (2 ^ 1024)

def hugeRecord : ManifestRecord :=
  { manifestOne.record with
    metrics := { manifestOne.record.metrics with p95LatencyMs := hugeLatency.toJson } }

def hugeData : Json := hugeRecord.toDict.sortKeys

def hugeText : PyStr := Json.render interpreter false hugeData

theorem hugeText_loads : strictJsonLoads interpreter (.str (hugeText ++ [chr 0x0A])) =
    .ok hugeData := by
  have hbytes : canonicalJsonBytes interpreter hugeRecord.toDict =
      .ok (hugeText.flatMap utf8EncodeChar) := by
    refine Json.dumpsBytes_eq_ok.mpr ⟨by decide +kernel, utf8Encode_eq_ok.mpr ⟨?_, rfl⟩⟩
    decide +kernel
  refine strictJsonLoads_canonicalJsonBytes interpreter_lawful (by rfl)
    (by decide) hbytes ?_
  exact utf8Encode_eq_ok.mpr ⟨by decide +kernel, rfl⟩

theorem hugeData_fields : Fields hugeData hugeRecord.sortKeys :=
  recordFromDict_ok.mp
    (recordFromDict_sortKeys (by rfl) (recordFromDict_toDict hugeRecord))

theorem hugeRecord_typed : hugeRecord.sortKeys.Typed
    { manifestOne.metrics with p95LatencyMs := hugeLatency } where
  schemaVersion := ⟨_, rfl⟩
  releaseSequence := ⟨1, rfl, by decide, by decide⟩
  modelBytes := ⟨_, rfl, by decide⟩
  version := ⟨_, rfl, by rfl⟩
  modelKind := ⟨_, rfl⟩
  runtimeAbi := ⟨_, rfl⟩
  modelSha256 := ⟨_, rfl⟩
  createdUtc := ⟨_, rfl⟩
  metrics := rfl
  metadata := rfl

theorem hugeRecord_overflowing : hugeRecord.sortKeys.Overflowing := by
  refine ⟨_, hugeRecord_typed, [manifestOne.metrics.accuracy, manifestOne.metrics.ece],
    hugeLatency, [manifestOne.metrics.maxRssMb], rfl, by decide +kernel, ?_⟩
  simp only [List.forall_mem_cons, List.not_mem_nil, false_implies, implies_true, and_true]
  exact ⟨trivial, trivial⟩

end Sample

theorem manifest_contract_sample :
    ManifestContract Sample.platform Sample.hugeData ↔ ∀ r, Fields Sample.hugeData r →
      ¬r.Overflowing ∧ ¬r.TooDeep Sample.platform :=
  manifest_contract Sample.platform (.str (Sample.hugeText ++ [chr 0x0A])) Sample.hugeData
    Sample.hugeText_loads

/-- The `OverflowError` of `math.isfinite` reaches the caller of `manifest_from_dict`. -/
theorem manifest_overflow_escapes :
    strictJsonLoads Sample.interpreter (.str (Sample.hugeText ++ [chr 0x0A])) =
        .ok Sample.hugeData ∧
      ¬ManifestContract Sample.platform Sample.hugeData := by
  refine ⟨Sample.hugeText_loads, fun h => ?_⟩
  have hraises := (manifestFromDict_raises (strictJsonLoads_strict Sample.hugeText_loads)).mp
    h.raises
  exact (hraises _ Sample.hugeData_fields).1 Sample.hugeRecord_overflowing

end EdgeFort
