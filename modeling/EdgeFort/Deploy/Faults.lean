/-
Deployments on a disk that may fail.

A step that fails raises an exception.  Which steps can fail depends on the part of
`deploy` they are in, so the parts are marked: the removals, the handlers of its two
`try` blocks, and the rest.
-/
import EdgeFort.Deploy.FileRules
import EdgeFort.Deploy.Deployer
import EdgeFort.Effect.Faults

namespace EdgeFort
namespace Deploy

open Effect ABDeployer

/-- The part of `deploy` an operation is in. -/
inductive Part where
  | body
  | handler
  | removal
  deriving DecidableEq, Repr

/-- The operations of a state write up to its rename. -/
def Op.writesState : Op → Bool
  | .mkstemp | .writeTemp _ | .fsyncTemp | .replaceTemp _ => true
  | _ => false

/-- The operations that may fail.  The `fsync` of the root comes after the rename, and
its errors are ignored. -/
def Op.fails : Op → Bool
  | .look _ | .mkdir _ | .create _ _ | .fill _ _ _ | .rename _ _ => true
  | o => o.writesState

/-- Whether an operation may fail where the removals do not.  `handlers` says whether
the handlers may fail too; a state write may fail wherever it is. -/
def canFail (handlers : Bool) (o : Op) : Part → Bool
  | .removal => false
  | .body => o.fails
  | .handler => o.writesState || handlers && o.fails

/-- What an operation that failed leaves: what was there, or a part of what it was to
write. -/
inductive Leaves : Op → World → World → Prop
  | same {o : Op} {w : World} : Leaves o w w
  | partly {p : Path} {f : FileName} {data : Bytes} {w : World} {es : Entries} (written : Bytes) :
      w.node p = .dir es →
      Leaves (.fill p f data) w (w.set p (.dir (Entries.fill es f written)))
  | temp {doc : Doc} {w : World} (t : Option Doc) : Leaves (.writeTemp doc) w (w.withTemp t)

/-- A disk whose operations may fail, but for removals. -/
def faultySem (handlers : Bool) : Sem (Op × Part) (fun o => o.1.Res) PyError World :=
  sem.faulty (fun o p => canFail handlers o p = true) Leaves

/-- A method of the deployer, its parts marked. -/
abbrev MarkedCmd := Prog (Op × Part) (fun o => o.1.Res) PyError

namespace ABDeployer

variable (D : ABDeployer)

def markedRecordFailure (st : DeploymentState) (target : Slot) (e : PyError) :
    MarkedCmd ModelMetrics := do
  (rmtree true (.candidate target)).mark .removal
  (write (st.failed e)).mark .handler
  throw e

def markedBackUp (target : Slot) : MarkedCmd Unit := do
  (rmtree true (.backup target)).mark .removal
  match ← (look (.slot target)).mark .body with
  | .missing => pure ()
  | .dir _ => (perform (.rename (.slot target) (.backup target))).mark .body
  | _ => throw (raise .deploymentError "inactive slot path is not a regular directory")

def markedUndo (target : Slot) (e : PyError) : MarkedCmd Unit := do
  let final ← (look (.slot target)).mark .handler
  (if final.exists' && !final.isSymlink then (rmtree true (.slot target)).mark .removal
    else pure ())
  let backup ← (look (.backup target)).mark .handler
  (if backup.exists' then (perform (.rename (.backup target) (.slot target))).mark .handler
    else pure ())
  throw e

def markedPromote (st : DeploymentState) (target : Slot) (version : PyStr)
    (releaseSequence : Int) : MarkedCmd Unit :=
  if D.anchored then do
    ((D.install version target (writePendingAnchor
      (st.pendingAnchor target version releaseSequence))).mark .body).catch' (markedUndo target)
    (commitAnchored st target version releaseSequence).mark .body
  else
    ((D.install version target (write (st.promoted target version
      (max st.highestReleaseSequence releaseSequence)))).mark .body).catch' (markedUndo target)

/-- `deploy`, its parts marked. -/
def markedDeploy (args : DeployArgs) : MarkedCmd ModelMetrics := do
  let (registryDir, manifest) ← liftM (D.registry.inspect args.version)
  liftM (D.registry.assertReleaseSequenceIdentity args.version manifest.releaseSequence)
  let st ← (D.read true).mark .body
  liftM (D.checkSequence st manifest args.allowDowngrade)
  let target := Slot.inactive st.activeSlot
  (rmtree true (.candidate target)).mark .removal
  let files ← liftM (Registry.openDirectory registryDir)
  (copytree files (.candidate target)).mark .body
  let metrics ← ((D.qualify args st manifest target).mark .body).catch'
    (markedRecordFailure st target)
  markedBackUp target
  D.markedPromote st target args.version manifest.releaseSequence
  (rmtree true (.backup target)).mark .removal
  return metrics

variable {D}

theorem erase_return {α : Type} (a : α) : (pure a : MarkedCmd α).erase = (pure a : Cmd α) := rfl

theorem erase_raise {α : Type} (e : PyError) :
    (throw e : MarkedCmd α).erase = (throw e : Cmd α) := rfl

theorem erase_liftM {α : Type} (r : Except PyError α) :
    (liftM r : MarkedCmd α).erase = (liftM r : Cmd α) := by
  cases r <;> rfl

theorem erase_markedRecordFailure (st : DeploymentState) (target : Slot) (e : PyError) :
    (markedRecordFailure st target e).erase = recordFailure st target e := by
  simp only [markedRecordFailure, recordFailure, Prog.erase_bind, Prog.erase_mark,
    erase_raise]

theorem erase_markedBackUp (target : Slot) : (markedBackUp target).erase = backUp target := by
  simp only [markedBackUp, backUp, Prog.erase_bind, Prog.erase_mark]
  congr 1
  funext _
  congr 1
  funext n
  cases n <;> simp only [Prog.erase_mark, erase_return, erase_raise]

theorem erase_markedUndo (target : Slot) (e : PyError) :
    (markedUndo target e).erase = undo target e := by
  simp only [markedUndo, undo, Prog.erase_bind, Prog.erase_mark, erase_raise,
    apply_ite Prog.erase, erase_return]

theorem erase_markedPromote (st : DeploymentState) (target : Slot) (version : PyStr)
    (releaseSequence : Int) : (D.markedPromote st target version releaseSequence).erase =
      D.promote st target version releaseSequence := by
  unfold markedPromote promote
  split_ifs <;>
    simp only [Prog.erase_bind, Prog.erase_catch', Prog.erase_mark, erase_markedUndo]

/-- The marks change nothing of what `deploy` does. -/
theorem erase_markedDeploy (args : DeployArgs) :
    (D.markedDeploy args).erase = D.deploy args := by
  simp only [markedDeploy, deploy, Prog.erase_bind, Prog.erase_mark, Prog.erase_catch',
    erase_liftM, erase_markedRecordFailure, erase_markedBackUp, erase_markedPromote,
    erase_return]

end ABDeployer

end Deploy
end EdgeFort
