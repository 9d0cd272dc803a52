/-
Signed release manifests and the metrics they carry (`types.py`, `artifact.py`).
-/
import EdgeFort.Registry.Version

namespace EdgeFort

structure ModelMetrics where
  accuracy : PyNum
  ece : PyNum
  p95LatencyMs : PyNum
  maxRssMb : PyNum
  deriving DecidableEq, Repr

namespace ModelMetrics

/-- `math.isfinite`, which raises for an integer no float can hold. -/
def isfinite (x : PyNum) : Except PyError Bool :=
  match x.toFloat? with
  | some f => .ok f.isfinite
  | none => .error (raise .overflowError "int too large to convert to float")

/-- `all(math.isfinite(v) for v in values)` -/
def allFinite : List PyNum → Except PyError Bool
  | [] => .ok true
  | x :: xs => do
    let b ← isfinite x
    if b then allFinite xs else pure false

def validate (m : ModelMetrics) : Except PyError Unit := do
  let finite ← allFinite [m.accuracy, m.ece, m.p95LatencyMs, m.maxRssMb]
  raiseIf (finite = false) (raise .valueError "model metrics must be finite")
  raiseIf (¬((PyNum.int 0).le m.accuracy ∧ m.accuracy.le (.int 1)))
    (raise .valueError "accuracy outside [0,1]")
  raiseIf (¬((PyNum.int 0).le m.ece ∧ m.ece.le (.int 1)))
    (raise .valueError "ece outside [0,1]")
  raiseIf (m.p95LatencyMs.lt (.int 0) ∨ m.maxRssMb.lt (.int 0))
    (raise .valueError "latency/memory must be non-negative")

/-- Python's `==` of two metrics. -/
def pyEq (a b : ModelMetrics) : Bool :=
  a.accuracy.eq b.accuracy && a.ece.eq b.ece && a.p95LatencyMs.eq b.p95LatencyMs &&
    a.maxRssMb.eq b.maxRssMb

theorem allFinite_ne_nan {xs : List PyNum} (h : allFinite xs = .ok true) :
    ∀ x ∈ xs, x ≠ .float .nan := by
  induction xs with
  | nil => intro x hx; cases hx
  | cons y ys ih =>
    intro x hx
    simp only [allFinite, Effect.bind_eq_ok] at h
    obtain ⟨b, hy, hys⟩ := h
    cases b with
    | false => simp [Effect.pure_eq_ok] at hys
    | true =>
      rcases List.mem_cons.mp hx with rfl | hx
      · rintro rfl
        simp [isfinite, PyNum.toFloat?, PyFloat.isfinite, PyFloat.rat?] at hy
      · exact ih hys x hx

end ModelMetrics

/-- A manifest as `manifest_from_dict` returns it: the fields, with the checks of
`_validate_manifest` that the rest of the program relies on. -/
structure ArtifactManifest where
  schemaVersion : Int
  releaseSequence : Int
  version : PyStr
  modelKind : PyStr
  runtimeAbi : PyStr
  modelSha256 : PyStr
  modelBytes : Int
  metrics : ModelMetrics
  createdUtc : PyStr
  metadata : Json
  sequence_nonneg : 0 ≤ releaseSequence
  sequence_le : releaseSequence ≤ maxReleaseSequence
  version_semver : semverMatch version = true
  metrics_valid : metrics.validate = .ok ()
  metadata_strict : metadata.strict = true

/-- `manifest == other` -/
def ArtifactManifest.pyEq (a b : ArtifactManifest) : Bool :=
  a.schemaVersion = b.schemaVersion && a.releaseSequence = b.releaseSequence &&
    a.version = b.version && a.modelKind = b.modelKind && a.runtimeAbi = b.runtimeAbi &&
    a.modelSha256 = b.modelSha256 && a.modelBytes = b.modelBytes && a.metrics.pyEq b.metrics &&
    a.createdUtc = b.createdUtc && a.metadata.pyEq b.metadata

theorem ArtifactManifest.releaseSequence_eq_of_pyEq {a b : ArtifactManifest}
    (h : a.pyEq b = true) : a.releaseSequence = b.releaseSequence := by
  simp only [pyEq, Bool.and_eq_true, decide_eq_true_eq] at h
  exact h.1.1.1.1.1.1.1.1.2

theorem ArtifactManifest.modelSha256_eq_of_pyEq {a b : ArtifactManifest}
    (h : a.pyEq b = true) : a.modelSha256 = b.modelSha256 := by
  simp only [pyEq, Bool.and_eq_true, decide_eq_true_eq] at h
  exact h.1.1.1.1.2

end EdgeFort
