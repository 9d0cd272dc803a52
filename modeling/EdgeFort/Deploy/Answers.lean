/-
What `deploy` and `rollback` answer, as functions of the state and the slots.

The answers use of a state only what a deployment or a rollback commits.
-/
import EdgeFort.Deploy.Deployer
import EdgeFort.Deploy.FileRules

namespace EdgeFort
namespace Deploy

namespace ABDeployer

variable (D : ABDeployer)

/-- What the gate makes of a candidate. -/
def gate (args : DeployArgs) (st : DeploymentState) (manifest : ArtifactManifest)
    (candidate : Node) (slot : Slot → Node) : Except PyError ModelMetrics := do
  let metrics ← D.measureCandidate args manifest candidate
  match recordedIn st st.activeSlot with
  | none => do
    enforce D.policy metrics none
    return metrics
  | some (active, version) => do
    let baseline ← D.measureBaseline args (slot active) version
    enforce D.policy metrics (some baseline)
    return metrics

/-- What is raised for a refusal `e`: `e` itself, unless its text cannot be recorded. -/
def refusal (st : DeploymentState) (e : PyError) : PyError :=
  match canonicalJson (st.failed e).toDict with
  | .ok _ => e
  | .error e' => e'

/-- What a deployment answers where the disk works and there is no anchor. -/
def deployAnswer (args : DeployArgs) (st : DeploymentState) (slot : Slot → Node) :
    Except PyError ModelMetrics := do
  let (registryDir, manifest) ← D.registry.inspect args.version
  D.registry.assertReleaseSequenceIdentity args.version manifest.releaseSequence
  D.checkSequence st manifest args.allowDowngrade
  let files ← Registry.openDirectory registryDir
  let candidate := Node.dir (copied files)
  let metrics ← (D.gate args st manifest candidate slot).mapError (refusal st)
  let _ ← D.verifiedArtifact candidate args.version
  return metrics

/-- What a rollback answers where the disk works. -/
def rollbackAnswer {ρ : Type} (loadRuntime : Bytes → ArtifactManifest → Except PyError ρ)
    (st : DeploymentState) (slot : Slot → Node) : Except PyError Bool :=
  match recordedIn st st.previousSlot with
  | none => return false
  | some (previous, version) => do
    let _ ← D.verifiedRuntime loadRuntime (slot previous) version
    return true

end ABDeployer

open Effect ABDeployer

variable {D : ABDeployer} {args : DeployArgs} {st st' : DeploymentState} {slot : Slot → Node}

/-- The answer once a release has passed the checks that stage nothing. -/
theorem deployAnswer_staged {es : Entries} {m : ArtifactManifest}
    (hinspect : D.registry.inspect args.version = .ok (.dir es, m))
    (hidentity : D.registry.assertReleaseSequenceIdentity args.version m.releaseSequence = .ok ())
    (hsequence : D.checkSequence st m args.allowDowngrade = .ok ()) :
    D.deployAnswer args st slot = (do
      let metrics ← (D.gate args st m (.dir (copied es)) slot).mapError (refusal st)
      let _ ← D.verifiedArtifact (.dir (copied es)) args.version
      return metrics) := by
  have hfiles : Registry.openDirectory (.dir es) = .ok es := rfl
  simp only [deployAnswer, hinspect, hidentity, hsequence, hfiles, ok_bind]

theorem refusal_congr (h : st'.lifecycle = st.lifecycle) (e : PyError) :
    refusal st' e = refusal st e := by
  obtain ⟨hactive, hprevious, hslots, -⟩ : st'.activeSlot = st.activeSlot ∧
      st'.previousSlot = st.previousSlot ∧ st'.slots = st.slots ∧ _ := by
    simpa [DeploymentState.lifecycle] using h
  have henc : (st'.failed e).toDict.encodable = (st.failed e).toDict.encodable := by
    simp only [DeploymentState.toDict, DeploymentState.fields, DeploymentState.failed,
      Json.encodable, Json.encodableFields, hactive, hprevious, hslots]
  simp only [refusal, canonicalJson, henc]
  split_ifs <;> rfl

theorem gate_congr (h : st'.lifecycle = st.lifecycle) (m : ArtifactManifest) (candidate : Node) :
    D.gate args st' m candidate slot = D.gate args st m candidate slot := by
  obtain ⟨hactive, hprevious, hslots, -⟩ : st'.activeSlot = st.activeSlot ∧
      st'.previousSlot = st.previousSlot ∧ st'.slots = st.slots ∧ _ := by
    simpa [DeploymentState.lifecycle] using h
  simp only [gate, recordedIn, hactive, hslots]

theorem deployAnswer_congr (h : st'.lifecycle = st.lifecycle) :
    D.deployAnswer args st' slot = D.deployAnswer args st slot := by
  have hfloor : st'.highestReleaseSequence = st.highestReleaseSequence :=
    congrArg (fun x => x.2.2.2) h
  have hrefusal : refusal st' = refusal st := funext fun e => refusal_congr h e
  simp only [deployAnswer, checkSequence, hfloor, hrefusal, gate_congr h]

theorem rollbackAnswer_congr {ρ : Type}
    {loadRuntime : Bytes → ArtifactManifest → Except PyError ρ}
    (h : st'.lifecycle = st.lifecycle) :
    D.rollbackAnswer loadRuntime st' slot = D.rollbackAnswer loadRuntime st slot := by
  have hprevious : st'.previousSlot = st.previousSlot := congrArg (fun x => x.2.1) h
  have hslots : st'.slots = st.slots := congrArg (fun x => x.2.2.1) h
  simp only [rollbackAnswer, recordedIn, hprevious, hslots]

end Deploy
end EdgeFort
