/-
The threads of an `InferenceEngine` (`engine.py`) beside the writer of the deployment directory.

`_active` and `isolated_runtime_snapshot` read the identity of the active release without any lock,
compare it with what the engine has cached under its own lock, and take a new snapshot under the
process lock where it differs.  So a call may see the identity, the cache and the snapshot of three
different generations.  Since no generation is ever used twice, a cache with the generation that
the call has read holds the release that was active when it read it.
-/
import EdgeFort.Deploy.Writer
import EdgeFort.Effect.Rely
import EdgeFort.Engine.Inference

namespace EdgeFort
namespace Engine

open Effect Deploy ABDeployer

/-! ## The engine -/

/-- What the engine caches: a runtime, and the material for a runtime in another process. -/
inductive Field where
  | runtime
  | isolated
  deriving DecidableEq

/-- `_runtime`, `_version` and `_generation` -/
structure Live (ρ : Type) where
  runtime : ρ
  version : PyStr
  generation : Nat

/-- `_isolated_artifact`, `_isolated_version` and `_isolated_generation` -/
structure Artifact where
  modelBytes : Bytes
  modelKind : PyStr
  runtimeAbi : PyStr
  version : PyStr
  generation : Nat

@[reducible] def Field.Value (ρ : Type) : Field → Type
  | runtime => Live ρ
  | isolated => Artifact

namespace Field

variable {ρ : Type}

def generation : (f : Field) → f.Value ρ → Nat
  | runtime, live => live.generation
  | isolated, artifact => artifact.generation

def version : (f : Field) → f.Value ρ → PyStr
  | runtime, live => live.version
  | isolated, artifact => artifact.version

/-- `active_snapshot`, and `active_artifact_snapshot` with the parts that are kept of it. -/
def snapshot (D : ABDeployer) (loadRuntime : Bytes → ArtifactManifest → Except PyError ρ) :
    (f : Field) → Cmd (f.Value ρ)
  | runtime => do
    let (r, v, g) ← D.activeSnapshot loadRuntime
    return ⟨r, v, g⟩
  | isolated => do
    let (model, manifest, g) ← D.activeArtifactSnapshot
    return ⟨model, manifest.modelKind, manifest.runtimeAbi, manifest.version, g⟩

end Field

/-- The operations of a thread: those of the deployer, on the engine's lock, on the process lock,
and on the cache. -/
inductive EngineOp (ρ : Type) where
  | disk (o : Deploy.Op)
  | acquire
  | release
  | share
  | unshare
  | get (f : Field)
  | set (f : Field) (v : f.Value ρ)

@[reducible] def EngineOp.Res {ρ : Type} : EngineOp ρ → Type
  | .disk o => o.Res
  | .get f => Option (f.Value ρ)
  | _ => Unit

abbrev EngineCmd (ρ : Type) := Prog (EngineOp ρ) EngineOp.Res PyError

section Programs

variable {ρ : Type} {α : Type}

/-- A program of the deployer. -/
def lift : Cmd α → EngineCmd ρ α
  | .pure a => .pure a
  | .throw e => .throw e
  | .op o k => .op (.disk o) fun r => lift (k r)

/-- `with self._lock: p` -/
def locked (p : EngineCmd ρ α) : EngineCmd ρ α := do
  Prog.perform EngineOp.acquire
  p.finally' (Prog.perform EngineOp.release)

/-- `with self._ipc_lock.shared(): p` -/
def shared (p : Cmd α) : EngineCmd ρ α := do
  Prog.perform EngineOp.share
  (lift p).finally' (Prog.perform EngineOp.unshare)

variable (D : ABDeployer) (loadRuntime : Bytes → ArtifactManifest → Except PyError ρ)

/-- A new snapshot, which the cache keeps. -/
def refresh (f : Field) : EngineCmd ρ (f.Value ρ) := do
  let v ← shared (f.snapshot D loadRuntime)
  Prog.perform (EngineOp.set f v)
  return v

/-- What the cache holds, where it has the identity that was read, or else a new snapshot. -/
def checked (f : Field) (generation : Nat) (version : PyStr) : EngineCmd ρ (f.Value ρ) := do
  match ← Prog.perform (EngineOp.get f) with
  | some v =>
    if f.generation v = generation ∧ f.version v = version then return v
    else refresh D loadRuntime f
  | none => refresh D loadRuntime f

def cached (f : Field) : EngineCmd ρ (f.Value ρ) := do
  let (generation, version) ← lift D.activeIdentity
  match version with
  | none => throw (raise .deploymentError "no active model")
  | some version => locked (checked D loadRuntime f generation version)

/-- `_active` -/
def active : EngineCmd ρ (Live ρ) := cached D loadRuntime .runtime

structure IsolatedRuntimeSnapshot where
  modelBytes : Bytes
  modelKind : PyStr
  runtimeAbi : PyStr
  version : PyStr
  generation : Nat
  maxUncompressedBytes : Nat

def isolatedRuntimeSnapshot : EngineCmd ρ IsolatedRuntimeSnapshot := do
  let artifact ← cached D loadRuntime .isolated
  return ⟨artifact.modelBytes, artifact.modelKind, artifact.runtimeAbi, artifact.version,
    artifact.generation, D.maxModelUncompressedBytes⟩

end Programs

/-! ## Calls -/

/-- The calls of a thread.  An input is what NumPy makes of it. -/
inductive EngineCall where
  | prepare (x : Option (NdArray UInt32))
  | prepareIsolated (x : Option (NdArray UInt32))
  | isolatedRuntimeSnapshot

/-- `PreparedInference`, `PreparedIsolatedInference` and `IsolatedRuntimeSnapshot` -/
inductive Prepared (ρ : Type) where
  | inference (inputs : NdArray UInt32) (live : Live ρ)
  | isolatedInference (inputs : NdArray UInt32) (snapshot : IsolatedRuntimeSnapshot)
  | isolated (snapshot : IsolatedRuntimeSnapshot)

section Calls

variable {ρ : Type} (e : Config.InferenceEngine) (D : ABDeployer)
  (loadRuntime : Bytes → ArtifactManifest → Except PyError ρ)

def EngineCall.program : EngineCall → EngineCmd ρ (Prepared ρ)
  | prepare x => do
    let a ← liftM (e.validatedArray x)
    let live ← active D loadRuntime
    return .inference a live
  | prepareIsolated x => do
    let a ← liftM (e.validatedArray x)
    let snapshot ← Engine.isolatedRuntimeSnapshot D loadRuntime
    return .isolatedInference a snapshot
  | isolatedRuntimeSnapshot => do
    let snapshot ← Engine.isolatedRuntimeSnapshot D loadRuntime
    return .isolated snapshot

end Calls

/-! ## The shared state -/

/-- The writer, in a process of its own, and an engine: its locks, the memory of its deployer and
its cache. -/
structure EngineState (ρ ι : Type) where
  writer : Writer
  sharers : ι → Bool
  lock : Option ι
  memory : Self
  cache : (f : Field) → Option (f.Value ρ)

namespace EngineState

variable {ρ ι : Type} [DecidableEq ι]

def history (s : EngineState ρ ι) : List DeploymentState := s.writer.sys.world.history

/-- What the engine's deployer sees. -/
def view (s : EngineState ρ ι) : World := { s.writer.sys.world with self := s.memory }

/-- The operations that reads are made of. -/
def reads : Deploy.Op → Bool
  | .look _ | .getSelf | .setSelf _ | .readFloor => true
  | _ => false

/-- What an operation of thread `i` answers, and what it leaves.  There is no answer where the
thread waits for a lock. -/
def exec (i : ι) : (o : EngineOp ρ) → EngineState ρ ι → Option (Except PyError o.Res × EngineState ρ ι)
  | .disk o, s =>
    if reads o then some ((Deploy.exec o s.view).1, { s with memory := (Deploy.exec o s.view).2.self })
    else none
  | .acquire, s => if s.lock.isNone then some (.ok (), { s with lock := some i }) else none
  | .release, s => some (.ok (), { s with lock := none })
  | .share, s =>
    if s.writer.rest.isNone then
      some (.ok (), { s with sharers := Function.update s.sharers i true })
    else none
  | .unshare, s => some (.ok (), { s with sharers := Function.update s.sharers i false })
  | .get f, s => some (.ok (s.cache f), s)
  | .set f v, s => some (.ok (), { s with cache := Function.update s.cache f (some v) })

/-- The process lock may also be refused. -/
inductive Outcome (i : ι) (s : EngineState ρ ι) :
    (o : EngineOp ρ) → Except PyError o.Res × EngineState ρ ι → Prop
  | executed {o : EngineOp ρ} {x : Except PyError o.Res × EngineState ρ ι} :
      exec i o s = some x → Outcome i s o x
  | refused (e : PyError) : Outcome i s .share (.error e, s)

/-- A step of the writer.  It starts nothing while the process lock is shared. -/
inductive Environment (D : ABDeployer) : EngineState ρ ι → EngineState ρ ι → Prop
  | writer {s : EngineState ρ ι} {w : Writer} : Writer.Step D s.writer w →
      (s.writer.rest = none → w.rest ≠ none → ∀ i, s.sharers i = false) →
      Environment D s { s with writer := w }

end EngineState

end Engine
end EdgeFort
