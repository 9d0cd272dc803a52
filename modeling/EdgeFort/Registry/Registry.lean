/-
The release registry (`registry.py`).

A published release is a directory named by its version.  Every read verifies
it: the manifest is parsed, its version compared, its signature checked under
the keyring, and the model's size and digest compared with the manifest.
-/
import EdgeFort.Registry.Manifest
import EdgeFort.Store.Node

namespace EdgeFort

/-- What verification rests on: the manifest reader `manifest_from_dict` over
`strict_json_loads`, the UTF-8 reader of the two text files, the signature check
of the keyring and SHA-256 as a hexadecimal digest. -/
structure Trust where
  manifestFromBytes : Bytes → Except PyError ArtifactManifest
  textFromBytes : Bytes → Except PyError PyStr
  keyringVerify : PyStr → ArtifactManifest → PyStr → Except PyError Unit
  sha256 : Bytes → PyStr

structure Registry where
  trust : Trust
  /-- The entries of the registry root, by name. -/
  root : List (PyStr × Node)

namespace Registry

open Effect

def maxManifestBytes : Nat := 64 * 1024
def maxSignatureBytes : Nat := 4096
def maxKeyIdBytes : Nat := 1024

/-- `_open_directory`, giving the files of the directory. -/
def openDirectory : Node → Except PyError Entries
  | .dir es => .ok es
  | _ => .error (raise .registryError "registry entry cannot be opened safely")

/-- `_open_regular_at` -/
def openRegularAt (es : Entries) (name : FileName) (label : PyStr) : Except PyError Bytes :=
  match es.lookup name with
  | some data => .ok data
  | none => .error (raise .registryError (label ++ py " missing or cannot be opened safely"))

/-- `_read_small_file_at` -/
def readSmallFileAt (es : Entries) (name : FileName) (label : PyStr) (limit : Nat) :
    Except PyError Bytes := do
  let data ← openRegularAt es name label
  raiseIf (limit < data.length) (raise .registryError (label ++ py " exceeds size limit"))
  return data

/-- The `except` clauses around metadata parsing: a `RegistryError` passes, any
other exception becomes one. -/
def corruptEntry {α : Type} (r : Except PyError α) : Except PyError α :=
  match r with
  | .ok a => .ok a
  | .error e =>
    if e.cls = .registryError then .error e
    else .error (raise .registryError (py "corrupt registry entry: " ++ e.text))

/-- Manifest, signature and key id of an entry. -/
def readMetadata (T : Trust) (es : Entries) : Except PyError (ArtifactManifest × PyStr × PyStr) := do
  let manifestRaw ← readSmallFileAt es .manifest "manifest" maxManifestBytes
  let signatureRaw ← readSmallFileAt es .signature "signature" maxSignatureBytes
  let keyIdRaw ← readSmallFileAt es .keyId "key id" maxKeyIdBytes
  let manifest ← T.manifestFromBytes manifestRaw
  let signature ← T.textFromBytes signatureRaw
  let keyId ← T.textFromBytes keyIdRaw
  return (manifest, signature, keyId)

/-- `open_verified_model`: the model bytes and the verified manifest. -/
def openVerifiedModel (R : Registry) (directory : Node) (expectedVersion : PyStr) :
    Except PyError (Bytes × ArtifactManifest) := do
  let es ← openDirectory directory
  let (manifest, signature, keyId) ← corruptEntry (readMetadata R.trust es)
  raiseIf (manifest.version ≠ expectedVersion)
    (raise .registryError "registry path/version does not match signed manifest")
  R.trust.keyringVerify keyId manifest signature
  let model ← openRegularAt es .model "model artifact"
  raiseIf ((model.length : Int) ≠ manifest.modelBytes)
    (raise .artifactIntegrityError "model size mismatch")
  raiseIf (R.trust.sha256 model ≠ manifest.modelSha256)
    (raise .artifactIntegrityError "model checksum mismatch")
  return (model, manifest)

def verifyDirectory (R : Registry) (directory : Node) (expectedVersion : PyStr) :
    Except PyError ArtifactManifest := do
  let (_, manifest) ← R.openVerifiedModel directory expectedVersion
  return manifest

/-- `_dir` -/
def dir (R : Registry) (version : PyStr) : Except PyError Node := do
  let name ← safeVersion version
  return (R.root.lookup name).getD .missing

def inspect (R : Registry) (version : PyStr) : Except PyError (Node × ArtifactManifest) := do
  let d ← R.dir version
  let manifest ← R.verifyDirectory d version
  return (d, manifest)

/-- One round of the scan in `_assert_release_sequence_available`. -/
def checkEntry (R : Registry) (releaseSequence : Int) (version : PyStr) (name : PyStr)
    (entry : Node) : Except PyError Unit :=
  if name.head? = some (chr 0x2E) then .ok ()
  else do
    raiseIf (entry.isSymlink ∨ ¬entry.isDir)
      (raise .registryError "unexpected non-directory entry in registry")
    match R.verifyDirectory entry name with
    | .error _ => .error (raise .registryError (py "cannot establish release-sequence uniqueness "
        ++ py "because registry contains an invalid published entry: " ++ name))
    | .ok existing =>
      raiseIf (existing.releaseSequence = releaseSequence ∧ existing.version ≠ version)
        (raise .registryError (py s!"release_sequence {releaseSequence} is already assigned to "
          ++ existing.version))

/-- `_assert_release_sequence_available` -/
def assertReleaseSequenceAvailable (R : Registry) (releaseSequence : Int) (version : PyStr) :
    List (PyStr × Node) → Except PyError Unit
  | [] => .ok ()
  | (name, entry) :: rest => do
    R.checkEntry releaseSequence version name entry
    R.assertReleaseSequenceAvailable releaseSequence version rest

def assertReleaseSequenceIdentity (R : Registry) (version : PyStr) (releaseSequence : Int) :
    Except PyError Unit := do
  let _ ← safeVersion version
  let (_, target) ← R.inspect version
  raiseIf (target.releaseSequence ≠ releaseSequence)
    (raise .registryError "version does not match expected release sequence")
  R.assertReleaseSequenceAvailable releaseSequence version R.root

/-! ## What a verified directory is -/

variable {R : Registry}

/-- Only a directory verifies. -/
theorem openVerifiedModel_dir {n : Node} {v : PyStr} {x : Bytes × ArtifactManifest}
    (h : R.openVerifiedModel n v = .ok x) : ∃ es, n = .dir es := by
  cases n with
  | dir es => exact ⟨es, rfl⟩
  | _ => cases h

/-- What verification has checked: the version, the signature and the model's
size and digest. -/
theorem openVerifiedModel_checked {n : Node} {v : PyStr} {model : Bytes} {m : ArtifactManifest}
    (h : R.openVerifiedModel n v = .ok (model, m)) :
    m.version = v ∧ (∃ keyId sig, R.trust.keyringVerify keyId m sig = .ok ()) ∧
      (model.length : Int) = m.modelBytes ∧ R.trust.sha256 model = m.modelSha256 := by
  simp only [openVerifiedModel, bind_eq_ok, pure_eq_ok, raiseIf_eq_ok, not_not,
    Prod.mk.injEq] at h
  obtain ⟨_, _, ⟨m', sig, keyId⟩, _, _, hv, _, hk, _, _, _, hl, _, hs, rfl, rfl⟩ := h
  exact ⟨hv, ⟨keyId, sig, hk⟩, hl, hs⟩

theorem verifyDirectory_ok {n : Node} {v : PyStr} {m : ArtifactManifest} :
    R.verifyDirectory n v = .ok m ↔ ∃ model, R.openVerifiedModel n v = .ok (model, m) := by
  simp only [verifyDirectory, bind_eq_ok, pure_eq_ok]
  exact ⟨fun ⟨x, hx, hm⟩ => ⟨x.1, hm ▸ hx⟩, fun ⟨model, h⟩ => ⟨_, h, rfl⟩⟩

/-- An entry passes the scan only if it verifies, and has either another sequence
number or the version that is asked about. -/
theorem checkEntry_ok {seq : Int} {v name : PyStr} {entry : Node}
    (hname : name.head? ≠ some (chr 0x2E)) (h : R.checkEntry seq v name entry = .ok ()) :
    ∃ existing, R.verifyDirectory entry name = .ok existing ∧
      (existing.releaseSequence = seq → existing.version = v) := by
  rw [checkEntry, if_neg hname] at h
  simp only [bind_eq_ok] at h
  obtain ⟨_, _, h⟩ := h
  cases hv : R.verifyDirectory entry name with
  | error e =>
    rw [hv] at h
    cases h
  | ok existing =>
    rw [hv] at h
    refine ⟨existing, rfl, fun hseq => ?_⟩
    by_contra hne
    exact raiseIf_eq_ok.mp h ⟨hseq, hne⟩

theorem inspect_ok {v : PyStr} {d : Node} {m : ArtifactManifest} (h : R.inspect v = .ok (d, m)) :
    R.verifyDirectory d v = .ok m ∧ semverMatch v = true := by
  simp only [inspect, dir, bind_eq_ok, pure_eq_ok, Prod.mk.injEq] at h
  obtain ⟨_, ⟨_, hs, _⟩, _, hm, rfl, rfl⟩ := h
  exact ⟨hm, (safeVersion_ok_iff.mp hs).1⟩

/-- The sequence an identity check accepts is the one the registry's manifest
carries. -/
theorem assertReleaseSequenceIdentity_ok {v : PyStr} {seq : Int}
    (h : R.assertReleaseSequenceIdentity v seq = .ok ()) :
    ∃ d m, R.inspect v = .ok (d, m) ∧ m.releaseSequence = seq := by
  simp only [assertReleaseSequenceIdentity, bind_eq_ok, raiseIf_eq_ok, not_not] at h
  obtain ⟨_, _, ⟨d, m⟩, hx, _, hseq, _⟩ := h
  exact ⟨d, m, hx, hseq⟩

end Registry

/-! ## A registry with two releases -/

namespace Sample

-- Texts are written in short pieces: the kernel decodes a string literal in time
-- quadratic in its length.
def ascii (pieces : List String) : Bytes :=
  pieces.flatMap fun s => s.toList.map fun c => UInt8.ofNat c.toNat

def text (pieces : List String) : PyStr := pieces.flatMap py

/-- The model of both releases is the byte `a`. -/
def model : Bytes := [0x61]

def modelSha256 : List String :=
  ["ca978112ca1bbdca", "fac231b39a23dc4d", "a786eff8147c4e72", "b9807785afee48bb"]

def metrics : ModelMetrics where
  accuracy := .int 1
  ece := .int 0
  p95LatencyMs := .int 1
  maxRssMb := .int 1

def manifest (version : PyStr) (releaseSequence : Int) (hv : semverMatch version = true)
    (hge : 0 ≤ releaseSequence) (hle : releaseSequence ≤ maxReleaseSequence) :
    ArtifactManifest where
  schemaVersion := 1
  releaseSequence := releaseSequence
  version := version
  modelKind := "linear"
  runtimeAbi := "1"
  modelSha256 := text modelSha256
  modelBytes := 1
  metrics := metrics
  createdUtc := "2025-01-01T00:00:00+00:00"
  metadata := .obj []
  sequence_nonneg := hge
  sequence_le := hle
  version_semver := hv
  metrics_valid := by decide +kernel
  metadata_strict := by rfl

def manifestOne : ArtifactManifest :=
  manifest "1.0.0" 1 (by rfl) (by decide) (by decide)

def manifestTwo : ArtifactManifest :=
  manifest "2.0.0" 2 (by rfl) (by decide) (by decide)

/-- `manifest.json` of a release. -/
def manifestText (releaseSequence version : String) : Bytes :=
  ascii (["\x7b\"created_utc\":", "\"2025-01-01T00:00:", "00+00:00\",", "\"metadata\":\x7b\x7d,",
    "\"metrics\":\x7b", "\"accuracy\":1,", "\"ece\":0,", "\"max_rss_mb\":1,",
    "\"p95_latency_ms\":", "1\x7d,", "\"model_bytes\":1,", "\"model_kind\":", "\"linear\",",
    "\"model_sha256\":\""] ++ modelSha256 ++ ["\",\"release_", "sequence\":", releaseSequence,
    ",\"runtime_abi\":", "\"1\",", "\"schema_version\":", "1,\"version\":\"", version, "\"\x7d\n"])

def keyId : List String := ["f4ee47618e569b9d"]

def signatureOne : List String :=
  ["5u6twUYGiddVww6A", "hZBf+1DvAbb1mqTG", "2KBTTAbNlhhZ5BNm", "8IhlJ/a5htJgjIfz",
    "RM/tYVXm0gzbAMXP", "kt6vBg=="]

def signatureTwo : List String :=
  ["CthvorPYru7s30vo", "0rcxiasadKKuKzkI", "p6F+/Pg4bT6lIElC", "rCNWgZipvb4whxBJ",
    "9evQpRMAaAUHks7O", "zrx7CQ=="]

/-- The readers, the keyring and the digest on the files of the two releases. -/
def trust : Trust where
  manifestFromBytes raw :=
    if raw = manifestText "1" "1.0.0" then .ok manifestOne
    else if raw = manifestText "2" "2.0.0" then .ok manifestTwo
    else .error (raise .validationError "invalid manifest")
  textFromBytes raw := .ok ((raw.filter (· ≠ 0x0A)).map fun b => chr b.toNat)
  keyringVerify key m signature :=
    if key ≠ text keyId then .error (raise .signatureError "unknown signing key")
    else if m.version = py "1.0.0" ∧ signature = text signatureOne ∨
        m.version = py "2.0.0" ∧ signature = text signatureTwo then .ok ()
    else .error (raise .signatureError "manifest signature verification failed")
  sha256 raw := if raw = model then text modelSha256 else []

def release (releaseSequence version : String) (signature : List String) : Node :=
  .dir [(.model, model), (.manifest, manifestText releaseSequence version),
    (.signature, ascii (signature ++ ["\n"])), (.keyId, ascii (keyId ++ ["\n"]))]

def registry : Registry where
  trust := trust
  root := [(py "1.0.0", release "1" "1.0.0" signatureOne),
    (py "2.0.0", release "2" "2.0.0" signatureTwo)]

end Sample

end EdgeFort
