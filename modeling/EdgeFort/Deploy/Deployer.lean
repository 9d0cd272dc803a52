/-
`ABDeployer` (`deploy.py`), method by method.

A method that takes the writer lock is one program here; a lock is no operation
of its own, since whoever runs programs decides which of them exclude each other.
-/
import EdgeFort.Deploy.Files
import EdgeFort.Deploy.Health
import EdgeFort.Deploy.Transition
import EdgeFort.Registry.Registry

namespace EdgeFort
namespace Deploy

open Effect

structure ABDeployer where
  registry : Registry
  policy : HealthPolicy
  maxModelUncompressedBytes : Nat
  /-- whether a rollback anchor is configured -/
  anchored : Bool

/-- The order in which one process meets the members of `_VALID_SLOTS`, and the
order in which the root lists the candidates. -/
structure Order where
  firstSlot : Slot
  firstCandidate : Slot

def slotsFrom (first : Slot) : List Slot := [first, Slot.inactive (some first)]

namespace ABDeployer

variable (D : ABDeployer)

/-! ## Verified content -/

/-- `_canonical_manifest` -/
def canonicalManifest (expectedVersion : PyStr) : Except PyError ArtifactManifest := do
  let (_, manifest) ← D.registry.inspect expectedVersion
  return manifest

/-- `_verified_directory_manifest` -/
def verifiedDirectoryManifest (directory : Node) (expectedVersion : PyStr) :
    Except PyError ArtifactManifest := do
  let canonical ← D.canonicalManifest expectedVersion
  let manifest ← D.registry.verifyDirectory directory expectedVersion
  raiseIf (manifest.pyEq canonical = false)
    (raise .deploymentError "slot manifest differs from canonical registry release")
  return manifest

/-- `_verified_slot_manifest` -/
def verifiedSlotManifest (slot : Slot) (expectedVersion : PyStr) : Cmd ArtifactManifest := do
  let n ← look (.slot slot)
  liftM (D.verifiedDirectoryManifest n expectedVersion)

/-- `handle.read(model_bytes + 1)`, whose length must be the manifest's. -/
def readModel (model : Bytes) (manifest : ArtifactManifest) (wrong : PyError) :
    Except PyError Bytes := do
  let raw := model.take (manifest.modelBytes + 1).toNat
  raiseIf ((raw.length : Int) ≠ manifest.modelBytes) wrong
  return raw

def verifiedArtifact (directory : Node) (expectedVersion : PyStr) :
    Except PyError (Bytes × ArtifactManifest) := do
  let canonical ← D.canonicalManifest expectedVersion
  let (model, manifest) ← D.registry.openVerifiedModel directory expectedVersion
  raiseIf (manifest.pyEq canonical = false)
    (raise .deploymentError "slot manifest differs from canonical registry release")
  raiseIf ((D.maxModelUncompressedBytes : Int) < manifest.modelBytes)
    (raise .deploymentError "model artifact exceeds process-transfer size limit")
  let raw ← readModel model manifest
    (raise .deploymentError "model artifact size changed during stable-handle read")
  return (raw, manifest)

/-- `_verified_slot_artifact` -/
def verifiedSlotArtifact (slot : Slot) (expectedVersion : PyStr) :
    Cmd (Bytes × ArtifactManifest) := do
  let n ← look (.slot slot)
  liftM (D.verifiedArtifact n expectedVersion)

/-- `_verified_slot_runtime`, over what `load_runtime` makes of the model. -/
def verifiedRuntime {ρ : Type} (loadRuntime : Bytes → ArtifactManifest → Except PyError ρ)
    (directory : Node) (expectedVersion : PyStr) : Except PyError ρ := do
  let canonical ← D.canonicalManifest expectedVersion
  let (model, manifest) ← D.registry.openVerifiedModel directory expectedVersion
  raiseIf (manifest.pyEq canonical = false)
    (raise .deploymentError "slot manifest differs from canonical registry release")
  loadRuntime model manifest

def verifiedSlotRuntime {ρ : Type} (loadRuntime : Bytes → ArtifactManifest → Except PyError ρ)
    (slot : Slot) (expectedVersion : PyStr) : Cmd ρ := do
  let n ← look (.slot slot)
  liftM (D.verifiedRuntime loadRuntime n expectedVersion)

/-! ## The anchor -/

/-- `_validate_anchor_floor` -/
def validateAnchorFloor (value : Json) : Except PyError Int :=
  value.intWhere (fun i => -1 ≤ i && i ≤ maxReleaseSequence)
    (raise .deploymentError "rollback anchor returned an invalid floor")

/-- The `except` clauses around an anchor call and around parsing: a
`DeploymentError` passes, any other exception becomes one. -/
def asDeploymentError (label : PyStr) (e : PyError) : PyError :=
  if e.isDeploymentError then e else raise .deploymentError (label ++ e.text)

/-- `_read_anchor_floor` -/
def readAnchorFloor : Cmd Int := do
  liftM (raiseIf (D.anchored = false) (raise .deploymentError "rollback anchor is not configured"))
  (do let value ← perform .readFloor
      liftM (validateAnchorFloor value) : Cmd Int).catch' fun e =>
    throw (asDeploymentError "rollback anchor read failed: " e)

def modifySelf (f : Self → Self) : Cmd Unit := do
  let self ← perform .getSelf
  perform (.setSelf (f self))

def setTrustedFloor (floor : Option Int) : Cmd Unit :=
  modifySelf fun self => { self with trustedFloor := floor }

def setRecoveryRequired (required : Bool) : Cmd Unit :=
  modifySelf fun self => { self with recoveryRequired := required }

/-- `_advance_anchor` of a configured anchor. -/
def advanceAnchor (releaseSequence : Int) : Cmd Int := do
  let floor ← (do
      let value ← perform (.advanceTo releaseSequence)
      liftM (validateAnchorFloor value) : Cmd Int).catch' fun e =>
    throw (asDeploymentError "rollback anchor advance failed: " e)
  liftM (raiseIf (floor ≠ releaseSequence)
    (raise .deploymentError "rollback anchor advanced to an unexpected release sequence"))
  setTrustedFloor (some floor)
  return floor

/-- The trusted floor, read again when the state's floor differs from it or a
journal is on disk. -/
def refreshedFloor (st : DeploymentState) (trusted : Int) (pending : Node) : Cmd Int :=
  if st.highestReleaseSequence ≠ trusted ∨ pending.present then do
    let observed ← D.readAnchorFloor
    setTrustedFloor (some observed)
    return observed
  else return trusted

/-- `_validate_state_anchor` -/
def validateStateAnchor (st : DeploymentState) : Cmd Unit := do
  let self ← perform .getSelf
  match self.trustedFloor with
  | none => pure ()
  | some trusted => do
    liftM (raiseIf (self.recoveryRequired = true)
      (raise .deploymentError "external rollback anchor transition requires recovery"))
    let pending ← look .pending
    let floor ← D.refreshedFloor st trusted pending
    liftM (raiseIf (st.highestReleaseSequence ≠ floor) (raise .deploymentError
      "deployment state anti-rollback floor differs from external rollback anchor"))

/-! ## The state file and the journal -/

/-- Open one of the two files, which `exists()` has found. -/
def openDoc (label : PyStr) : Node → Except PyError Doc
  | .file doc => .ok doc
  | .special => .error (raise .deploymentError (label ++ py " is not a regular file"))
  | _ => .error (raise .deploymentError
      (label ++ py " cannot be opened safely: [Errno 21] Is a directory"))

/-- The bounded content of one of the two files, parsed. -/
def parseDoc {α : Type} (label : PyStr) (parse : Json → Except PyError α) : Doc → Except PyError α
  | .oversized => .error (raise .deploymentError (label ++ py " exceeds size limit"))
  | .malformed reason =>
    .error (raise .deploymentError (py "invalid " ++ label ++ py ": " ++ reason))
  | .json v =>
    match parse v with
    | .ok a => .ok a
    | .error e => .error (asDeploymentError (py "invalid " ++ label ++ py ": ") e)

def readDoc {α : Type} (label : PyStr) (parse : Json → Except PyError α) (n : Node) :
    Except PyError α := do
  let doc ← openDoc label n
  parseDoc label parse doc

/-- `_slot_data_exists` -/
def slotDataExists : Cmd Bool := do
  let slots ← look .slots
  let a ← look (.slot .A)
  let b ← look (.slot .B)
  return slots.isSymlink || a.present || b.present

def missingState : PyError :=
  raise .deploymentError "deployment state missing while slot data exists"

/-- `_read` -/
def read (validateAnchor : Bool) : Cmd DeploymentState := do
  match ← look .state with
  | .missing => do
    let slotData ← slotDataExists
    liftM (raiseIf (slotData = true) missingState)
    return {}
  | .symlink false => throw missingState
  | .symlink true => throw (raise .deploymentError "deployment state must not be a symlink")
  | n => do
    let st ← liftM (readDoc "deployment state" DeploymentState.parseState n)
    (if validateAnchor then D.validateStateAnchor st else pure ())
    return st

/-- `_write` -/
def write (st : DeploymentState) : Cmd Unit := do
  let _ ← liftM (DeploymentState.parseState st.toDict)
  let doc ← liftM (canonicalJson st.toDict)
  atomicWrite .state doc

/-- `_read_pending_anchor` -/
def readPendingAnchor : Cmd (Option PendingAnchor) := do
  match ← look .pending with
  | .missing => return none
  | .symlink _ =>
    throw (raise .deploymentError "pending anchor commit must not be a symlink")
  | n => do
    let pending ← liftM (readDoc "pending anchor commit" PendingAnchor.parsePendingAnchor n)
    return some pending

/-- `_write_pending_anchor` -/
def writePendingAnchor (pending : PendingAnchor) : Cmd Unit := do
  let _ ← liftM (PendingAnchor.parsePendingAnchor pending.toDict)
  let doc ← liftM (canonicalJson pending.toDict)
  atomicWrite .pending doc

/-- `_remove_pending_anchor` -/
def removePendingAnchor : Cmd Unit := do
  let removed ← (do
      perform (.unlink .pending)
      return true : Cmd Bool).catch' fun e =>
    if e.cls = .fileNotFoundError then return false else throw e
  if removed then fsyncRoot

/-! ## Recovery -/

/-- The journal of a commit that has landed in `state.json`. -/
def describesCommitted (st : DeploymentState) (pending : PendingAnchor) (anchorFloor : Int) :
    Bool :=
  pending.releaseSequence = anchorFloor && pending.previousGeneration + 1 = st.generation &&
    st.activeSlot = some pending.targetSlot &&
    st.slots.get pending.targetSlot = some pending.version

/-- `_recover_anchor_commit` where the local floor is the anchor's: a journal is
either of the commit that has landed, or of one that never reached the anchor. -/
def settleJournal (st : DeploymentState) (pending : Option PendingAnchor) (anchorFloor : Int) :
    Cmd Unit :=
  match pending with
  | none => pure ()
  | some pending =>
    if describesCommitted st pending anchorFloor then do
      liftM (D.registry.assertReleaseSequenceIdentity pending.version pending.releaseSequence)
      let _ ← D.verifiedSlotManifest pending.targetSlot pending.version
      removePendingAnchor
    else
      liftM (raiseIf (pending.previousFloor ≠ st.highestReleaseSequence ∨
          pending.previousGeneration ≠ st.generation)
        (raise .deploymentError "pending anchor journal conflicts with durable state"))

/-- `_recover_anchor_commit` where the anchor is ahead of the local floor: the
journalled commit is completed. -/
def completeCommit (st : DeploymentState) (pending : Option PendingAnchor) (anchorFloor : Int) :
    Cmd DeploymentState :=
  match pending with
  | none => throw (raise .deploymentError
      "external rollback anchor is ahead of deployment state without recovery journal")
  | some pending => do
    liftM (raiseIf (pending.previousFloor ≠ st.highestReleaseSequence ∨
        pending.previousGeneration ≠ st.generation ∨ pending.releaseSequence ≠ anchorFloor)
      (raise .deploymentError "external rollback anchor and recovery journal disagree"))
    liftM (D.registry.assertReleaseSequenceIdentity pending.version anchorFloor)
    let manifest ← D.verifiedSlotManifest pending.targetSlot pending.version
    liftM (raiseIf (manifest.releaseSequence ≠ anchorFloor)
      (raise .deploymentError "pending slot does not match external rollback anchor"))
    let recovered := st.promoted pending.targetSlot pending.version anchorFloor
    write recovered
    removePendingAnchor
    return recovered

/-- `_recover_anchor_commit` -/
def recoverAnchorCommit (st : DeploymentState) (pending : Option PendingAnchor) :
    Cmd DeploymentState := do
  let self ← perform .getSelf
  match self.trustedFloor with
  | none => do
    liftM (raiseIf (pending.isSome = true) (raise .deploymentError
      "pending external-anchor commit exists but no rollback anchor is configured"))
    return st
  | some anchorFloor => do
    liftM (raiseIf (anchorFloor < st.highestReleaseSequence) (raise .deploymentError
      "deployment state anti-rollback floor exceeds external rollback anchor"))
    (if st.highestReleaseSequence = anchorFloor then do
      D.settleJournal st pending anchorFloor
      return st
    else D.completeCommit st pending anchorFloor)

/-- One round of `_recover_backups`. -/
def recoverBackup (st : DeploymentState) (slot : Slot) : Cmd Unit := do
  match ← look (.backup slot) with
  | .missing => pure ()
  | .dir es => do
    match st.slots.get slot with
    | none => throw (raise .deploymentError
        (py "unexpected backup exists for empty slot " ++ slot.name))
    | some expected => do
      let final ← look (.slot slot)
      match D.verifiedDirectoryManifest final expected with
      | .ok _ => rmtree false (.backup slot)
      | .error _ => do
        let _ ← liftM (D.verifiedDirectoryManifest (.dir es) expected)
        (match final with
          | .missing => pure ()
          | .dir _ => rmtree false (.slot slot)
          | _ => throw (raise .deploymentError (py "invalid slot path for " ++ slot.name)))
        perform (.rename (.backup slot) (.slot slot))
  | _ => throw (raise .deploymentError (py "invalid backup for slot " ++ slot.name))

/-- `_recover_backups` -/
def recoverBackups (st : DeploymentState) : List Slot → Cmd Unit
  | [] => pure ()
  | slot :: rest => do
    D.recoverBackup st slot
    recoverBackups st rest

def removeCandidates : List Slot → Cmd Unit
  | [] => pure ()
  | slot :: rest => do
    match ← look (.candidate slot) with
    | .missing => removeCandidates rest
    | .dir _ => do
      rmtree false (.candidate slot)
      removeCandidates rest
    | _ => throw (raise .deploymentError "invalid candidate path during recovery")

/-- One round of the loop over `state.slots` in `_recover`. -/
def settleSlot (st : DeploymentState) (slot : Slot) : Cmd Unit :=
  match st.slots.get slot with
  | none => do
    match ← look (.slot slot) with
    | .missing => pure ()
    | .dir _ => rmtree false (.slot slot)
    | _ => throw (raise .deploymentError (py "invalid uncommitted slot path for " ++ slot.name))
  | some version => do
    let manifest ← D.verifiedSlotManifest slot version
    liftM (raiseIf (st.highestReleaseSequence < manifest.releaseSequence)
      (raise .deploymentError "slot release sequence exceeds anti-rollback floor"))

def settleSlots (st : DeploymentState) : List Slot → Cmd Unit
  | [] => pure ()
  | slot :: rest => do
    D.settleSlot st slot
    settleSlots st rest

def dropJournal : Cmd Unit := do
  match ← look .pending with
  | .missing => pure ()
  | .symlink _ => throw (raise .deploymentError "pending anchor commit must not be a symlink")
  | _ => removePendingAnchor

/-- `slots_root.mkdir(exist_ok=True)` with the checks around it. -/
def makeSlotsRoot : Cmd Unit := do
  match ← look .slots with
  | .missing => perform (.mkdir .slots)
  | .dir _ => pure ()
  | .symlink _ => throw (raise .deploymentError "slots root must not be a symlink")
  | _ => throw (raise .fileExistsError "File exists")

/-- The first state is written where there is none. -/
def ensureState : Cmd Unit := do
  match ← look .state with
  | .missing => do
    let slotData ← slotDataExists
    liftM (raiseIf (slotData = true) missingState)
    write {}
  | .symlink false => throw missingState
  | _ => pure ()

/-- `_recover` -/
def recover (order : Order) : Cmd Unit := do
  makeSlotsRoot
  ensureState
  let st ← D.read false
  let pending ← readPendingAnchor
  let st ← D.recoverAnchorCommit st pending
  D.recoverBackups st (slotsFrom order.firstSlot)
  removeCandidates (slotsFrom order.firstCandidate)
  D.settleSlots st [.A, .B]
  dropJournal
  D.validateStateAnchor st

/-- The anchor read of `__init__`, before the writer lock is taken. -/
def sampleFloor : Cmd (Option Int) :=
  if D.anchored then some <$> D.readAnchorFloor else pure none

/-- What `__init__` does with its sample. -/
def start (sample : Option Int) (order : Order) : Cmd Unit := do
  perform (.setSelf { trustedFloor := sample, recoveryRequired := false })
  D.recover order

/-- `__init__` -/
def construct (order : Order) : Cmd Unit := do
  let sample ← D.sampleFloor
  D.start sample order

/-! ## Deployment -/

/-- The arguments of `deploy`.  A measurement takes a model and its manifest to
metrics, or raises; the two measurements of one call need not agree, since they
time the model. -/
structure DeployArgs where
  version : PyStr
  candidateMetrics : Bytes → ArtifactManifest → Except PyError ModelMetrics
  baselineMetrics : Bytes → ArtifactManifest → Except PyError ModelMetrics
  allowDowngrade : Bool

/-- The two anti-rollback checks of `deploy`. -/
def checkSequence (st : DeploymentState) (manifest : ArtifactManifest) (allowDowngrade : Bool) :
    Except PyError Unit := do
  raiseIf (D.anchored = true ∧ manifest.releaseSequence ≤ st.highestReleaseSequence)
    (raise .rollbackRejected "external rollback anchor cannot be bypassed by allow_downgrade")
  raiseIf (manifest.releaseSequence ≤ st.highestReleaseSequence ∧ allowDowngrade = false)
    (raise .rollbackRejected "release sequence is not newer than trusted floor")

/-- The bytes staged in the candidate directory, authenticated and measured. -/
def measureCandidate (args : DeployArgs) (manifest : ArtifactManifest) (candidate : Node) :
    Except PyError ModelMetrics := do
  let (model, staged) ← D.registry.openVerifiedModel candidate args.version
  raiseIf (staged.pyEq manifest = false)
    (raise .deploymentError "registry entry changed between inspection and staging")
  let raw ← readModel model staged
    (raise .deploymentError "candidate artifact size changed during stable-handle read")
  args.candidateMetrics raw staged

/-- A slot and its version, where both count as true: `s and slots.get(s)`. -/
def recordedIn (st : DeploymentState) (slot : Option Slot) : Option (Slot × PyStr) :=
  match slot with
  | none => none
  | some s =>
    match st.slots.get s with
    | none | some [] => none
    | some version => some (s, version)

def measureBaseline (args : DeployArgs) (active : Node) (version : PyStr) :
    Except PyError ModelMetrics := do
  let (raw, manifest) ← D.verifiedArtifact active version
  args.baselineMetrics raw manifest

/-- The first `try` block of `deploy`. -/
def qualify (args : DeployArgs) (st : DeploymentState) (manifest : ArtifactManifest)
    (target : Slot) : Cmd ModelMetrics := do
  let candidate ← look (.candidate target)
  let metrics ← liftM (D.measureCandidate args manifest candidate)
  match recordedIn st st.activeSlot with
  | none => do
    liftM (enforce D.policy metrics none)
    return metrics
  | some (slot, version) => do
    let active ← look (.slot slot)
    let baseline ← liftM (D.measureBaseline args active version)
    liftM (enforce D.policy metrics (some baseline))
    return metrics

/-- A candidate that fails is removed and its error recorded. -/
def recordFailure (st : DeploymentState) (target : Slot) (e : PyError) : Cmd ModelMetrics := do
  rmtree true (.candidate target)
  write (st.failed e)
  throw e

/-- Move the directory of slot `target`, if there is one, to its backup. -/
def backUp (target : Slot) : Cmd Unit := do
  rmtree true (.backup target)
  match ← look (.slot target) with
  | .missing => pure ()
  | .dir _ => perform (.rename (.slot target) (.backup target))
  | _ => throw (raise .deploymentError "inactive slot path is not a regular directory")

/-- The part of the second `try` block that is undone when it raises: up to the
journal with an anchor, up to `state.json` without one. -/
def install (version : PyStr) (target : Slot) (commit : Cmd Unit) : Cmd Unit := do
  perform (.rename (.candidate target) (.slot target))
  let _ ← D.verifiedSlotArtifact target version
  commit

/-- The handler of the second `try` block before the transaction has started. -/
def undo (target : Slot) (e : PyError) : Cmd Unit := do
  let final ← look (.slot target)
  (if final.exists' && !final.isSymlink then rmtree true (.slot target) else pure ())
  let backup ← look (.backup target)
  (if backup.exists' then perform (.rename (.backup target) (.slot target)) else pure ())
  throw e

/-- From the journal on, with an anchor. -/
def commitAnchored (st : DeploymentState) (target : Slot) (version : PyStr)
    (releaseSequence : Int) : Cmd Unit := do
  setRecoveryRequired true
  let newFloor ← advanceAnchor releaseSequence
  write (st.promoted target version newFloor)
  setRecoveryRequired false
  removePendingAnchor

/-- The second `try` block of `deploy`. -/
def promote (st : DeploymentState) (target : Slot) (version : PyStr) (releaseSequence : Int) :
    Cmd Unit :=
  if D.anchored then do
    (D.install version target
      (writePendingAnchor (st.pendingAnchor target version releaseSequence))).catch' (undo target)
    commitAnchored st target version releaseSequence
  else
    (D.install version target
      (write (st.promoted target version (max st.highestReleaseSequence releaseSequence)))).catch'
        (undo target)

def deploy (args : DeployArgs) : Cmd ModelMetrics := do
  let (registryDir, manifest) ← liftM (D.registry.inspect args.version)
  liftM (D.registry.assertReleaseSequenceIdentity args.version manifest.releaseSequence)
  let st ← D.read true
  liftM (D.checkSequence st manifest args.allowDowngrade)
  let target := Slot.inactive st.activeSlot
  rmtree true (.candidate target)
  let files ← liftM (Registry.openDirectory registryDir)
  copytree files (.candidate target)
  let metrics ← (D.qualify args st manifest target).catch' (recordFailure st target)
  backUp target
  D.promote st target args.version manifest.releaseSequence
  rmtree true (.backup target)
  return metrics

/-! ## Rollback and reads -/

def rollback {ρ : Type} (loadRuntime : Bytes → ArtifactManifest → Except PyError ρ) : Cmd Bool := do
  let st ← D.read true
  match recordedIn st st.previousSlot with
  | none => return false
  | some (previous, version) => do
    let _ ← D.verifiedSlotRuntime loadRuntime previous version
    write (st.rolledBack previous)
    return true

/-- `state()` -/
def state : Cmd DeploymentState := D.read true

def activeVersionOf (st : DeploymentState) : Option PyStr :=
  match st.activeSlot with
  | none => none
  | some slot => st.slots.get slot

def activeIdentity : Cmd (Nat × Option PyStr) := do
  let st ← D.read true
  return (st.generation, activeVersionOf st)

/-- The active slot and version of a state, for the two snapshots. -/
def activeSlotOf (st : DeploymentState) : Except PyError (Slot × PyStr) :=
  match st.activeSlot with
  | none => .error (raise .deploymentError "no active model")
  | some slot =>
    match st.slots.get slot with
    | some version => .ok (slot, version)
    | none => .error (raise .valueError "invalid semantic version: None")

def activeSnapshot {ρ : Type} (loadRuntime : Bytes → ArtifactManifest → Except PyError ρ) :
    Cmd (ρ × PyStr × Nat) := do
  let st ← D.read true
  let (slot, version) ← liftM (activeSlotOf st)
  let runtime ← D.verifiedSlotRuntime loadRuntime slot version
  return (runtime, version, st.generation)

def activeArtifactSnapshot : Cmd (Bytes × ArtifactManifest × Nat) := do
  let st ← D.read true
  let (slot, version) ← liftM (activeSlotOf st)
  let (model, manifest) ← D.verifiedSlotArtifact slot version
  return (model, manifest, st.generation)

end ABDeployer

end Deploy
end EdgeFort
