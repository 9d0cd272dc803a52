/-
Manifests as JSON, their checks and their signatures (`artifact.py`).

A `ManifestRecord` is a manifest before its checks, each field with the value it
happens to have, and its metadata as `json.loads` has read it.  The metadata of a
`ManifestObject` is any value of a running program.  `_validate_manifest` turns either
into an `ArtifactManifest`, which carries what the checks have established.
-/
import EdgeFort.Python.Base64
import EdgeFort.Python.Written
import EdgeFort.Registry.Registry
import EdgeFort.Store.CanonicalJson

namespace EdgeFort

open Effect

/-- What the program takes from the interpreter and from `cryptography`. -/
structure Platform where
  interpreter : Interpreter
  /-- `datetime.fromisoformat`, none where it raises: the offset from UTC in
  microseconds, for a timestamp that has one -/
  fromisoformat : PyStr → Option (Option Int)
  /-- SHA-256 as a hexadecimal digest -/
  sha256 : Bytes → PyStr
  /-- how many calls one inside the other `dataclasses.asdict` may make, at the least -/
  asdictNesting : Nat
  /-- what a private key signs messages with, none where the key is refused -/
  ed25519Sign : Bytes → Option (Bytes → Bytes)
  /-- whether a public key is accepted -/
  ed25519PublicKey : Bytes → Bool
  /-- whether `verify` returns, by public key, signature and message -/
  ed25519Verify : Bytes → Bytes → Bytes → Bool

structure MetricsRecord where
  accuracy : Json
  ece : Json
  p95LatencyMs : Json
  maxRssMb : Json

structure ManifestHeader where
  schemaVersion : Json
  releaseSequence : Json
  version : Json
  modelKind : Json
  runtimeAbi : Json
  modelSha256 : Json
  modelBytes : Json
  metrics : MetricsRecord
  createdUtc : Json

structure ManifestRecord extends ManifestHeader where
  metadata : Json

structure ManifestObject extends ManifestHeader where
  metadata : PyObject

/-- `asdict(self.metrics)` -/
def MetricsRecord.toDict (m : MetricsRecord) : Json :=
  .obj [("accuracy", m.accuracy), ("ece", m.ece), ("p95_latency_ms", m.p95LatencyMs),
    ("max_rss_mb", m.maxRssMb)]

def ManifestRecord.toDict (m : ManifestRecord) : Json :=
  .obj [("schema_version", m.schemaVersion), ("release_sequence", m.releaseSequence),
    ("version", m.version), ("model_kind", m.modelKind), ("runtime_abi", m.runtimeAbi),
    ("model_sha256", m.modelSha256), ("model_bytes", m.modelBytes),
    ("metrics", m.metrics.toDict), ("created_utc", m.createdUtc), ("metadata", m.metadata)]

/-- The dictionary of a manifest object. -/
def ManifestObject.dict (m : ManifestObject) : PyObject :=
  .dict [(.str "schema_version", m.schemaVersion.toObject),
    (.str "release_sequence", m.releaseSequence.toObject), (.str "version", m.version.toObject),
    (.str "model_kind", m.modelKind.toObject), (.str "runtime_abi", m.runtimeAbi.toObject),
    (.str "model_sha256", m.modelSha256.toObject), (.str "model_bytes", m.modelBytes.toObject),
    (.str "metrics", m.metrics.toDict.toObject), (.str "created_utc", m.createdUtc.toObject),
    (.str "metadata", m.metadata)]

/-- `ArtifactManifest.to_dict`, which copies the metrics by one call and `copy.deepcopy`. -/
def ManifestObject.toDict (P : Platform) (m : ManifestObject) : Except PyError PyObject :=
  if P.asdictNesting < max 4 m.metadata.copyDepth then
    .error (raise .recursionError "maximum recursion depth exceeded")
  else .ok m.dict

/-- `canonical_json_bytes(manifest.to_dict())` -/
def ManifestObject.canonicalBytes (P : Platform) (m : ManifestObject) : Except PyError Bytes := do
  let data ← m.toDict P
  data.canonicalBytes P.interpreter

def PyNum.toJson : PyNum → Json
  | .int i => .int i
  | .float x => .float x

/-- The fields of a checked manifest other than its metadata. -/
def ArtifactManifest.header (m : ArtifactManifest) : ManifestHeader where
  schemaVersion := .int m.schemaVersion
  releaseSequence := .int m.releaseSequence
  version := .str m.version
  modelKind := .str m.modelKind
  runtimeAbi := .str m.runtimeAbi
  modelSha256 := .str m.modelSha256
  modelBytes := .int m.modelBytes
  metrics :=
    ⟨m.metrics.accuracy.toJson, m.metrics.ece.toJson, m.metrics.p95LatencyMs.toJson,
      m.metrics.maxRssMb.toJson⟩
  createdUtc := .str m.createdUtc

/-- The record a checked manifest is. -/
def ArtifactManifest.record (m : ArtifactManifest) : ManifestRecord :=
  { m.header with metadata := m.metadata }

def ArtifactManifest.toDict (m : ArtifactManifest) : Json := m.record.toDict

/-- The object `manifest_from_dict` returns for a checked manifest. -/
def ArtifactManifest.object (m : ArtifactManifest) : ManifestObject :=
  { m.header with metadata := m.metadata.toObject }

/-! ## The checks -/

namespace Manifest

def validationError (text : PyStr) : PyError := raise .validationError text

/-- `isinstance(value, int)`, of a value that is no `bool`. -/
def intField (text : PyStr) : Json → Except PyError Int
  | .int i => .ok i
  | _ => .error (validationError text)

def strField (name : PyStr) : Json → Except PyError PyStr
  | .str s => .ok s
  | _ => .error (validationError (name ++ py " must be a string"))

/-- `isinstance(value, (int, float))`, of a value that is no `bool`. -/
def numField (name : PyStr) : Json → Except PyError PyNum
  | .int i => .ok (.int i)
  | .float x => .ok (.float x)
  | _ => .error (validationError (py "metrics." ++ name ++ py " must be numeric"))

def sequenceField (value : Json) :
    Except PyError {i : Int // 0 ≤ i ∧ i ≤ maxReleaseSequence} :=
  let refused := validationError (py "release_sequence must be an " ++
    py "integer in the supported range")
  match value with
  | .int i => if h : 0 ≤ i ∧ i ≤ maxReleaseSequence then .ok ⟨i, h⟩ else .error refused
  | _ => .error refused

def modelBytesField (value : Json) : Except PyError Int := do
  let refused : PyStr := "model_bytes must be a positive integer"
  let i ← intField refused value
  raiseIf (i < 1) (validationError refused)
  return i

/-- `except (TypeError, ValueError)`, by the exceptions the checks raise. -/
def asValidationError (e : PyError) : PyError :=
  if e.cls = .valueError ∨ e.cls = .typeError ∨ e.cls = .unicodeEncodeError then
    validationError e.text
  else e

def semverField (version : PyStr) : Except PyError {v : PyStr // semverMatch v = true} :=
  if h : semverMatch version = true then .ok ⟨version, h⟩
  else .error (validationError (py "invalid semantic version: " ++ pyRepr version))

def checkedMetrics (m : ModelMetrics) :
    Except PyError {m : ModelMetrics // m.validate = .ok ()} :=
  match h : m.validate with
  | .ok () => .ok ⟨m, h⟩
  | .error e => .error (asValidationError e)

def isHex (c : CodePoint) : Bool := Json.isDigit c || (0x61 ≤ c.val && c.val ≤ 0x66)

/-- `_SHA256_RE.fullmatch` -/
def sha256Match (s : PyStr) : Bool := s.length = 64 && s.all isHex

/-- `value.replace("Z", "+00:00")` -/
def replaceZ (s : PyStr) : PyStr :=
  s.flatMap fun c => if c.val = 0x5A then py "+00:00" else [c]

/-- `_validate_created_utc` -/
def validateCreatedUtc (P : Platform) (value : PyStr) : Except PyError Unit :=
  match P.fromisoformat (replaceZ value) with
  | none => .error (validationError "created_utc must be an ISO-8601 timestamp")
  | some none => .error (validationError "created_utc must include a timezone")
  | some (some offset) =>
    raiseIf (offset ≠ 0) (validationError "created_utc must be normalized to UTC")

def maxMetadataBytes : Nat := 16 * 1024

/-- `_validate_metadata` -/
def validateMetadata (P : Platform) (metadata : PyObject) : Except PyError Unit :=
  match metadata.canonicalBytes P.interpreter with
  | .error e =>
    if e.cls = .recursionError then .error e
    else .error (validationError "metadata must be finite canonical-JSON data")
  | .ok encoded =>
    raiseIf (maxMetadataBytes < encoded.length) (validationError "metadata exceeds 16384 bytes")

/-- Metadata that repeats no key.  The test never fails: a dictionary repeats no key, its
keys are written in different ways, and a NaN has been refused as not encodable. -/
def strictMetadata (metadata : Json) : Except PyError {v : Json // v.strict = true} :=
  if h : metadata.strict = true then .ok ⟨metadata, h⟩
  else .error (raise .typeError "metadata repeats a key")

/-- The metadata of a record. -/
def recordMetadata (P : Platform) (metadata : Json) :
    Except PyError {v : Json // v.strict = true} := do
  validateMetadata P metadata.toObject
  strictMetadata metadata

/-- The metadata of an object, as it is written. -/
def objectMetadata (P : Platform) (metadata : PyObject) :
    Except PyError {v : Json // v.strict = true} := do
  validateMetadata P metadata
  let data ← metadata.written P.interpreter P.interpreter.dumpsNesting
  strictMetadata data

def isObject : Json → Bool
  | .obj _ => true
  | _ => false

def isDict : PyObject → Bool
  | .dict _ => true
  | _ => false

def metricsField (m : MetricsRecord) : Except PyError ModelMetrics := do
  let accuracy ← numField "accuracy" m.accuracy
  let ece ← numField "ece" m.ece
  let p95LatencyMs ← numField "p95_latency_ms" m.p95LatencyMs
  let maxRssMb ← numField "max_rss_mb" m.maxRssMb
  return ⟨accuracy, ece, p95LatencyMs, maxRssMb⟩

end Manifest

open Manifest

/-- `_validate_manifest`, by whether the metadata is a dictionary and what its own check
gives. -/
def ManifestHeader.validate (P : Platform) (m : ManifestHeader) (isDictionary : Bool)
    (checkedMetadata : Except PyError {v : Json // v.strict = true}) :
    Except PyError ArtifactManifest := do
  let schemaVersion ← intField "schema_version must be an integer" m.schemaVersion
  let releaseSequence ← sequenceField m.releaseSequence
  let modelBytes ← modelBytesField m.modelBytes
  let version ← strField "version" m.version
  let modelKind ← strField "model_kind" m.modelKind
  let runtimeAbi ← strField "runtime_abi" m.runtimeAbi
  let modelSha256 ← strField "model_sha256" m.modelSha256
  let createdUtc ← strField "created_utc" m.createdUtc
  let metrics ← metricsField m.metrics
  raiseIf (isDictionary = false) (validationError "metadata must be a JSON object")
  let version ← semverField version
  let metrics ← checkedMetrics metrics
  raiseIf (schemaVersion ≠ 1) (validationError "unsupported manifest schema")
  raiseIf (modelKind = [] ∨ runtimeAbi = [])
    (validationError "model_kind and runtime_abi are required")
  raiseIf (sha256Match modelSha256 = false) (validationError "invalid SHA-256")
  validateCreatedUtc P createdUtc
  let metadata ← checkedMetadata
  return {
    schemaVersion, modelKind, runtimeAbi, modelSha256, modelBytes, createdUtc
    releaseSequence := releaseSequence.1
    version := version.1
    metrics := metrics.1
    metadata := metadata.1
    sequence_nonneg := releaseSequence.2.1
    sequence_le := releaseSequence.2.2
    version_semver := version.2
    metrics_valid := metrics.2
    metadata_strict := metadata.2 }

def validateManifest (P : Platform) (m : ManifestRecord) : Except PyError ArtifactManifest :=
  m.toManifestHeader.validate P (isObject m.metadata) (recordMetadata P m.metadata)

def ManifestObject.validate (P : Platform) (m : ManifestObject) :
    Except PyError ArtifactManifest :=
  m.toManifestHeader.validate P (isDict m.metadata) (objectMetadata P m.metadata)

/-- What the checks establish beyond the invariants of `ArtifactManifest`, but for the
metadata. -/
structure ArtifactManifest.CheckedHeader (P : Platform) (m : ArtifactManifest) : Prop where
  schema : m.schemaVersion = 1
  model_bytes : 1 ≤ m.modelBytes
  kind_and_abi : m.modelKind ≠ [] ∧ m.runtimeAbi ≠ []
  sha256 : sha256Match m.modelSha256 = true
  created_utc : validateCreatedUtc P m.createdUtc = .ok ()

/-- What the checks of a record establish. -/
structure ArtifactManifest.Checked (P : Platform) (m : ArtifactManifest) : Prop
    extends m.CheckedHeader P where
  metadata_object : isObject m.metadata = true
  metadata_bytes : ∃ encoded, canonicalJsonBytes P.interpreter m.metadata = .ok encoded ∧
    encoded.length ≤ maxMetadataBytes

namespace Manifest

theorem intField_ok {text : PyStr} {v : Json} {i : Int} : intField text v = .ok i ↔ v = .int i := by
  cases v <;> simp [intField]

theorem strField_ok {name : PyStr} {v : Json} {s : PyStr} :
    strField name v = .ok s ↔ v = .str s := by
  cases v <;> simp [strField]

theorem numField_ok {name : PyStr} {v : Json} {x : PyNum} :
    numField name v = .ok x ↔ v = x.toJson := by
  cases v <;> cases x <;> simp [numField, PyNum.toJson]

theorem sequenceField_ok {v : Json} {i : {i : Int // 0 ≤ i ∧ i ≤ maxReleaseSequence}} :
    sequenceField v = .ok i ↔ v = .int i.1 := by
  cases v with
  | int j =>
    simp only [sequenceField, Json.int.injEq]
    split_ifs with h
    · simp [Subtype.ext_iff]
    · simp only [false_iff]
      rintro rfl
      exact h i.2
  | _ => simp [sequenceField]

theorem modelBytesField_ok {v : Json} {i : Int} :
    modelBytesField v = .ok i ↔ v = .int i ∧ 1 ≤ i := by
  simp only [modelBytesField, bind_eq_ok, intField_ok, raiseIf_eq_ok, pure_eq_ok, not_lt]
  constructor
  · rintro ⟨j, rfl, _, hj, rfl⟩
    exact ⟨rfl, hj⟩
  · rintro ⟨rfl, hi⟩
    exact ⟨i, rfl, (), hi, rfl⟩

theorem semverField_ok {version : PyStr} {v : {v : PyStr // semverMatch v = true}} :
    semverField version = .ok v ↔ version = v.1 := by
  unfold semverField
  split_ifs with h
  · simp [Subtype.ext_iff]
  · simp only [false_iff]
    rintro rfl
    exact h v.2

theorem checkedMetrics_ok {m : ModelMetrics} {n : {m : ModelMetrics // m.validate = .ok ()}} :
    checkedMetrics m = .ok n ↔ m = n.1 := by
  unfold checkedMetrics
  split
  · simp [Subtype.ext_iff]
  · rename_i e he
    simp only [reduceCtorEq, false_iff]
    rintro rfl
    exact absurd n.2 (he ▸ error_ne_ok)

theorem validateMetadata_ok {P : Platform} {v : PyObject} {u : Unit} :
    validateMetadata P v = .ok u ↔ ∃ encoded,
      v.canonicalBytes P.interpreter = .ok encoded ∧ encoded.length ≤ maxMetadataBytes := by
  unfold validateMetadata
  cases v.canonicalBytes P.interpreter with
  | error e =>
    simp only [reduceCtorEq, false_and, exists_false, iff_false]
    split_ifs <;> exact id
  | ok encoded => simp [raiseIf_eq_ok]

theorem strictMetadata_ok {v : Json} {w : {v : Json // v.strict = true}} :
    strictMetadata v = .ok w ↔ v = w.1 := by
  unfold strictMetadata
  split_ifs with h
  · simp [Subtype.ext_iff]
  · simp only [false_iff]
    rintro rfl
    exact h w.2

theorem recordMetadata_ok {P : Platform} {v : Json} {w : {v : Json // v.strict = true}} :
    recordMetadata P v = .ok w ↔ v = w.1 ∧ ∃ encoded,
      canonicalJsonBytes P.interpreter v = .ok encoded ∧ encoded.length ≤ maxMetadataBytes := by
  simp only [recordMetadata, bind_eq_ok, validateMetadata_ok, strictMetadata_ok,
    PyObject.canonicalBytes_toObject]
  exact ⟨fun ⟨_, hv, hw⟩ => ⟨hw, hv⟩, fun ⟨hw, hv⟩ => ⟨(), hv, hw⟩⟩

theorem objectMetadata_ok {P : Platform} {v : PyObject} {w : {v : Json // v.strict = true}} :
    objectMetadata P v = .ok w ↔
      v.written P.interpreter P.interpreter.dumpsNesting = .ok w.1 ∧ ∃ encoded,
        v.canonicalBytes P.interpreter = .ok encoded ∧ encoded.length ≤ maxMetadataBytes := by
  simp only [objectMetadata, bind_eq_ok, validateMetadata_ok, strictMetadata_ok]
  constructor
  · rintro ⟨_, hv, data, hdata, rfl⟩
    exact ⟨hdata, hv⟩
  · rintro ⟨hdata, hv⟩
    exact ⟨(), hv, w.1, hdata, rfl⟩

theorem metricsField_ok {r : MetricsRecord} {m : ModelMetrics} :
    metricsField r = .ok m ↔ r = ⟨m.accuracy.toJson, m.ece.toJson, m.p95LatencyMs.toJson,
      m.maxRssMb.toJson⟩ := by
  simp only [metricsField, bind_eq_ok, numField_ok, pure_eq_ok]
  constructor
  · rintro ⟨a, ha, e, he, p, hp, x, hx, rfl⟩
    cases r
    simp_all
  · rintro rfl
    exact ⟨_, rfl, _, rfl, _, rfl, _, rfl, rfl⟩

end Manifest

theorem ManifestHeader.validate_ok {P : Platform} {h : ManifestHeader} {isDictionary : Bool}
    {checkedMetadata : Except PyError {v : Json // v.strict = true}} {m : ArtifactManifest} :
    h.validate P isDictionary checkedMetadata = .ok m ↔ h = m.header ∧ m.CheckedHeader P ∧
      isDictionary = true ∧ checkedMetadata = .ok ⟨m.metadata, m.metadata_strict⟩ := by
  simp only [ManifestHeader.validate, bind_eq_ok, intField_ok, sequenceField_ok,
    modelBytesField_ok, strField_ok, metricsField_ok, raiseIf_eq_ok, semverField_ok,
    checkedMetrics_ok, pure_eq_ok]
  obtain ⟨_, _, _, _, _, _, _, _, _⟩ := h
  constructor
  · rintro ⟨schema, rfl, seq, rfl, bytes, ⟨rfl, hpos⟩, version, rfl, kind, rfl, abi, rfl, sha,
      rfl, created, rfl, metrics, rfl, _, hdict, v, rfl, x, rfl, _, hone, _, hne, _, hsha, _,
      hutc, w, hw, rfl⟩
    refine ⟨rfl, ⟨not_not.mp hone, hpos, not_or.mp hne, by simpa using hsha, hutc⟩, ?_, hw⟩
    simpa using hdict
  · rintro ⟨hr, ⟨hschema, hpos, hne, hsha, hutc⟩, hdict, hmetadata⟩
    simp only [ArtifactManifest.header, ManifestHeader.mk.injEq] at hr
    obtain ⟨rfl, rfl, rfl, rfl, rfl, rfl, rfl, rfl, rfl⟩ := hr
    exact ⟨_, rfl, ⟨_, m.sequence_nonneg, m.sequence_le⟩, rfl, _, ⟨rfl, hpos⟩, _, rfl, _, rfl, _,
      rfl, _, rfl, _, rfl, m.metrics, rfl, (), by simp [hdict], ⟨_, m.version_semver⟩, rfl,
      ⟨_, m.metrics_valid⟩, rfl, (), not_not.mpr hschema, (), not_or.mpr hne, (),
      by simp [hsha], (), hutc, _, hmetadata, rfl⟩

/-- A record passes the checks just when it is the record of a checked manifest. -/
theorem validateManifest_ok {P : Platform} {r : ManifestRecord} {m : ArtifactManifest} :
    validateManifest P r = .ok m ↔ r = m.record ∧ m.Checked P := by
  rw [validateManifest, ManifestHeader.validate_ok, recordMetadata_ok]
  constructor
  · rintro ⟨hr, hm, hobject, hmetadata, hbytes⟩
    have hmetadata : r.metadata = m.metadata := hmetadata
    rw [hmetadata] at hobject hbytes
    exact ⟨by rw [ArtifactManifest.record, ← hr, ← hmetadata], hm, hobject, hbytes⟩
  · rintro ⟨rfl, hm⟩
    exact ⟨rfl, hm.toCheckedHeader, hm.metadata_object, rfl, hm.metadata_bytes⟩

/-- What the checks of an object have established: its fields are those of the manifest,
with the metadata as it is written. -/
theorem ManifestObject.validate_ok {P : Platform} {o : ManifestObject} {m : ArtifactManifest} :
    o.validate P = .ok m ↔ o.toManifestHeader = m.header ∧ m.CheckedHeader P ∧
      isDict o.metadata = true ∧
      o.metadata.written P.interpreter P.interpreter.dumpsNesting = .ok m.metadata ∧
      ∃ encoded, o.metadata.canonicalBytes P.interpreter = .ok encoded ∧
        encoded.length ≤ maxMetadataBytes := by
  rw [ManifestObject.validate, ManifestHeader.validate_ok, objectMetadata_ok]

namespace Manifest

def manifestFields : List PyStr :=
  ["schema_version", "release_sequence", "version", "model_kind", "runtime_abi",
    "model_sha256", "model_bytes", "metrics", "created_utc", "metadata"]

def metricFields : List PyStr := ["accuracy", "ece", "p95_latency_ms", "max_rss_mb"]

/-- `repr` of a sorted list of strings. -/
def sortedRepr (keys : List PyStr) : PyStr :=
  py "[" ++ (py ", ").intercalate ((keys.insertionSort (· ≤ ·)).map pyRepr) ++ py "]"

def fieldsMismatch (fields : List (PyStr × Json)) : PyError :=
  raise .valueError (py "manifest fields mismatch; " ++ py "missing=" ++
    sortedRepr (manifestFields.filter fun k => (fields.lookup k).isNone) ++ py ", unknown=" ++
    sortedRepr ((fields.map Prod.fst).filter fun k => !manifestFields.contains k))

def metricsRecord : Json → Except PyError MetricsRecord
  | .obj ms =>
    if Json.keysAre ms metricFields then
      .ok ⟨Json.item ms "accuracy", Json.item ms "ece", Json.item ms "p95_latency_ms",
        Json.item ms "max_rss_mb"⟩
    else .error (raise .valueError "metrics fields mismatch")
  | _ => .error (raise .valueError "metrics fields mismatch")

/-- The manifest object of the fields, before its checks. -/
def recordFromDict : Json → Except PyError ManifestRecord
  | .obj fields => do
    raiseIf (Json.keysAre fields manifestFields = false) (fieldsMismatch fields)
    let metrics ← metricsRecord (Json.item fields "metrics")
    return {
      metrics
      schemaVersion := Json.item fields "schema_version"
      releaseSequence := Json.item fields "release_sequence"
      version := Json.item fields "version"
      modelKind := Json.item fields "model_kind"
      runtimeAbi := Json.item fields "runtime_abi"
      modelSha256 := Json.item fields "model_sha256"
      modelBytes := Json.item fields "model_bytes"
      createdUtc := Json.item fields "created_utc"
      metadata := Json.item fields "metadata" }
  | _ => .error (raise .typeError "manifest must be an object")

end Manifest

/-- `manifest_from_dict` -/
def manifestFromDict (P : Platform) (data : Json) : Except PyError ArtifactManifest :=
  match recordFromDict data with
  | .error e => .error (validationError (py "invalid manifest: " ++ e.text))
  | .ok record => validateManifest P record

/-! ## Signatures -/

/-- `sign_manifest` -/
def signManifest (P : Platform) (manifest : ManifestObject) (privateKey : Bytes) :
    Except PyError PyStr := do
  let _ ← manifest.validate P
  match P.ed25519Sign privateKey with
  | none => .error (validationError "invalid Ed25519 private key")
  | some sign =>
    let message ← manifest.canonicalBytes P
    return b64encode (sign message)

def signatureFailed : PyError :=
  raise .signatureError "manifest signature verification failed"

/-- `verify_manifest`, giving the manifest with what its checks have established. -/
def verifyManifest (P : Platform) (manifest : ManifestObject) (signature : PyStr)
    (publicKey : Bytes) : Except PyError ArtifactManifest := do
  let checked ← manifest.validate P
  match b64decode signature, manifest.canonicalBytes P with
  | some raw, .ok message =>
    if P.ed25519Verify publicKey raw message then .ok checked else .error signatureFailed
  | _, _ => .error signatureFailed

/-- `TrustedKeyring` -/
structure TrustedKeyring where
  keys : List (PyStr × Bytes)
  revoked : List PyStr

/-- `TrustedKeyring.verify` -/
def TrustedKeyring.verify (K : TrustedKeyring) (P : Platform) (keyId : PyStr)
    (manifest : ManifestObject) (signature : PyStr) : Except PyError ArtifactManifest :=
  if K.revoked.contains keyId then .error (raise .signatureError "signing key revoked")
  else
    match K.keys.lookup keyId with
    | none => .error (raise .signatureError "unknown signing key")
    | some key => verifyManifest P manifest signature key

/-- What verification has checked. -/
theorem verifyManifest_ok {P : Platform} {o : ManifestObject} {signature : PyStr}
    {publicKey : Bytes} {m : ArtifactManifest} :
    verifyManifest P o signature publicKey = .ok m ↔ o.validate P = .ok m ∧
      ∃ raw message, b64decode signature = some raw ∧ o.canonicalBytes P = .ok message ∧
        P.ed25519Verify publicKey raw message = true := by
  simp only [verifyManifest, bind_eq_ok]
  constructor
  · rintro ⟨checked, hchecked, h⟩
    split at h
    · rename_i raw message hraw hmessage
      split_ifs at h with hverify
      obtain rfl := Except.ok.inj h
      exact ⟨hchecked, raw, message, hraw, hmessage, hverify⟩
    · cases h
  · rintro ⟨hm, raw, message, hraw, hmessage, hverify⟩
    refine ⟨m, hm, ?_⟩
    rw [hraw, hmessage]
    exact if_pos hverify

theorem TrustedKeyring.verify_ok {K : TrustedKeyring} {P : Platform} {keyId signature : PyStr}
    {o : ManifestObject} {m : ArtifactManifest} :
    K.verify P keyId o signature = .ok m ↔ keyId ∉ K.revoked ∧
      ∃ key, K.keys.lookup keyId = some key ∧ verifyManifest P o signature key = .ok m := by
  unfold TrustedKeyring.verify
  by_cases hrevoked : keyId ∈ K.revoked
  · rw [if_pos (List.contains_iff_mem.mpr hrevoked)]
    exact ⟨fun h => absurd h error_ne_ok, fun h => absurd hrevoked h.1⟩
  · rw [if_neg fun h => hrevoked (List.contains_iff_mem.mp h)]
    cases K.keys.lookup keyId with
    | none => exact ⟨fun h => absurd h error_ne_ok, fun ⟨_, _, h, _⟩ => absurd h.symm (by simp)⟩
    | some key =>
      exact ⟨fun h => ⟨hrevoked, key, rfl, h⟩, fun ⟨_, k, hk, h⟩ => Option.some.inj hk ▸ h⟩

/-! ## The files of an entry -/

/-- `str.isspace` of one character. -/
def isPySpace (c : CodePoint) : Bool :=
  (0x09 ≤ c.val && c.val ≤ 0x0D) || (0x1C ≤ c.val && c.val ≤ 0x20) || c.val = 0x85 ||
    c.val = 0xA0 || c.val = 0x1680 || (0x2000 ≤ c.val && c.val ≤ 0x200A) || c.val = 0x2028 ||
    c.val = 0x2029 || c.val = 0x202F || c.val = 0x205F || c.val = 0x3000

/-- `str.strip` -/
def strip (s : PyStr) : PyStr :=
  ((s.dropWhile isPySpace).reverse.dropWhile isPySpace).reverse

/-- The readers and the keyring of a registry. -/
def Platform.trust (P : Platform) (K : TrustedKeyring) : Trust where
  manifestFromBytes raw := do
    let text ← utf8Decode raw
    let data ← strictJsonLoads P.interpreter (.str text)
    manifestFromDict P data
  textFromBytes raw := do
    let text ← utf8Decode raw
    return strip text
  keyringVerify keyId manifest signature := do
    let _ ← K.verify P keyId manifest.object signature
  sha256 := P.sha256

end EdgeFort
