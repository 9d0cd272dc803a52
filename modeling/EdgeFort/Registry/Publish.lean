/-
`Registry.add` (`registry.py`), as a program over the registry root.

An entry is staged in a hidden directory of a fresh name and put in place by one
`os.replace`.  Any operation may fail; one that writes to the staging directory may
leave anything there.  `shutil.copy2` copies what the model path holds at that time,
which need not be what `verify_artifact` has read.
-/
import EdgeFort.Effect.Locked
import EdgeFort.Registry.Signing

namespace EdgeFort
namespace Publish

open Effect

/-- `published` is read by no program: the entries put in place so far, oldest
first. -/
structure World where
  /-- the entries of the registry root, by name -/
  root : List (PyStr × Node)
  /-- the bytes of a model path, none where it names no regular file -/
  models : PyStr → Option Bytes
  published : List (PyStr × Node)

inductive Op where
  | readModel (path : PyStr)
  | look (name : PyStr)
  | listdir
  | mkdtemp
  /-- `shutil.copy2` into a staging directory -/
  | copyModel (path stage : PyStr)
  /-- `atomic_write` into a staging directory -/
  | writeFile (stage : PyStr) (file : FileName) (data : Bytes)
  /-- `os.replace` of a staging directory -/
  | publish (stage name : PyStr)
  /-- `shutil.rmtree` that ignores errors -/
  | removeTree (stage : PyStr)

@[reducible] def Op.Res : Op → Type
  | .readModel _ => Option Bytes
  | .look _ => Node
  | .listdir => List PyStr
  | .mkdtemp => PyStr
  | _ => Unit

abbrev Cmd := Prog Op Op.Res PyError

def perform (o : Op) : Cmd o.Res := Prog.perform o

/-- Names the registry does not list as entries. -/
def hidden (name : PyStr) : Bool := name.head? = some (chr 0x2E)

def visible (root : List (PyStr × Node)) : List (PyStr × Node) :=
  root.filter fun e => !hidden e.1

/-- The root with `node` under a name, or with nothing there. -/
def put (root : List (PyStr × Node)) (name : PyStr) (node : Option Node) :
    List (PyStr × Node) :=
  root.filter (fun e => e.1 ≠ name) ++ (node.map fun n => (name, n)).toList

def stagePrefix : PyStr := ".stage-"

/-- A staging name longer than every name in use. -/
def freshStage (root : List (PyStr × Node)) : PyStr :=
  stagePrefix ++ List.replicate (root.map fun e => e.1.length).sum (chr 0x61)

/-- The files of a directory after `data` is written to `file`. -/
def withFile (es : Entries) (file : FileName) (data : Bytes) : Entries :=
  es.filter (fun e => e.1 ≠ file) ++ [(file, data)]

def noSuchFile : PyError := raise .fileNotFoundError "No such file or directory"

/-- Write a file of a staging directory. -/
def fill (w : World) (stage : PyStr) (file : FileName) (data : Bytes) :
    Except PyError Unit × World :=
  match w.root.lookup stage with
  | some (.dir es) =>
    (.ok (), { w with root := put w.root stage (some (.dir (withFile es file data))) })
  | _ => (.error noSuchFile, w)

def exec : (o : Op) → World → Except PyError o.Res × World
  | .readModel path, w => (.ok (w.models path), w)
  | .look name, w => (.ok ((w.root.lookup name).getD .missing), w)
  | .listdir, w => (.ok (w.root.map Prod.fst), w)
  | .mkdtemp, w =>
    (.ok (freshStage w.root), { w with root := put w.root (freshStage w.root) (some (.dir [])) })
  | .copyModel path stage, w =>
    match w.models path with
    | some data => fill w stage .model data
    | none => (.error noSuchFile, w)
  | .writeFile stage file data, w => fill w stage file data
  | .publish stage name, w =>
    match w.root.lookup stage, w.root.lookup name with
    | some (.dir es), none | some (.dir es), some (.dir []) =>
      (.ok (), { w with
        root := put (put w.root stage none) name (some (.dir es))
        published := w.published ++ [(name, .dir es)] })
    | _, _ => (.error (raise .osError "Directory not empty"), w)
  | .removeTree stage, w => (.ok (), { w with root := put w.root stage none })

inductive Fault : (o : Op) → World → Except PyError o.Res × World → Prop
  | fails {o w} (e : PyError) : Fault o w (.error e, w)
  /-- the model path names something else by now -/
  | readModel {path w} (r : Option Bytes) : Fault (.readModel path) w (.ok r, w)
  | copied {path stage w} (data : Bytes) :
      Fault (.copyModel path stage) w (fill w stage .model data)
  | mkdtemp {w} (name : PyStr) : stagePrefix <+: name → name ∉ w.root.map Prod.fst →
      Fault .mkdtemp w (.ok name, { w with root := put w.root name (some (.dir [])) })
  /-- a staging directory is left in pieces -/
  | copyBroken {path stage w} (e : PyError) (es : Entries) :
      Fault (.copyModel path stage) w
        (.error e, { w with root := put w.root stage (some (.dir es)) })
  | writeBroken {stage file data w} (e : PyError) (es : Entries) :
      Fault (.writeFile stage file data) w
        (.error e, { w with root := put w.root stage (some (.dir es)) })
  | removeBroken {stage w} (es : Entries) :
      Fault (.removeTree stage) w (.ok (), { w with root := put w.root stage (some (.dir es)) })

def sem : Sem Op Op.Res PyError World where
  exec := exec
  fault := Fault

/-! ## `add` -/

/-- The arguments of a call of `add`, and the keyring of the registry object it is
called on. -/
structure AddCall where
  keyring : TrustedKeyring
  modelPath : PyStr
  manifest : ManifestObject
  signature : PyStr
  keyId : PyStr

variable (P : Platform)

/-- `validate_semver` of a field of any type. -/
def safeVersionField : Json → Except PyError PyStr
  | .str version => safeVersion version
  | _ => .error (raise .valueError "invalid semantic version")

/-- `verify_artifact`, of what the model path holds. -/
def verifyArtifact (model : Option Bytes) (manifest : ArtifactManifest) : Except PyError Unit :=
  match model with
  | none => .error (raise .artifactIntegrityError (py "model artifact missing " ++
      py "or not a regular file"))
  | some data => do
    raiseIf ((data.length : Int) ≠ manifest.modelBytes)
      (raise .artifactIntegrityError "model size mismatch")
    raiseIf (P.sha256 data ≠ manifest.modelSha256)
      (raise .artifactIntegrityError "model checksum mismatch")

/-- The registry object of a keyring.  Its methods are given the nodes they read. -/
def registry (K : TrustedKeyring) : Registry := ⟨P.trust K, []⟩

/-- `_assert_release_sequence_available` -/
def assertReleaseSequenceAvailable (K : TrustedKeyring) (releaseSequence : Int)
    (version : PyStr) : List PyStr → Cmd Unit
  | [] => pure ()
  | name :: names => do
    (if hidden name then pure () else do
      let entry ← perform (.look name)
      liftM ((registry P K).checkEntry releaseSequence version name entry))
    assertReleaseSequenceAvailable K releaseSequence version names

/-- The checks made before the lock is taken. -/
def checked (c : AddCall) : Cmd ArtifactManifest := do
  let _ ← liftM (safeVersionField c.manifest.version)
  let manifest ← liftM (c.keyring.verify P c.keyId c.manifest c.signature)
  let model ← perform (.readModel c.modelPath)
  liftM (verifyArtifact P model manifest)
  return manifest

/-- The files of an entry other than the model. -/
def writeMetadata (c : AddCall) (stage : PyStr) : Cmd Unit := do
  let text ← liftM (c.manifest.canonicalBytes P)
  perform (.writeFile stage .manifest (text ++ [0x0A]))
  let signature ← liftM (utf8Encode (c.signature ++ [chr 0x0A]))
  perform (.writeFile stage .signature signature)
  let keyId ← liftM (utf8Encode (c.keyId ++ [chr 0x0A]))
  perform (.writeFile stage .keyId keyId)

/-- The bytes a file name may have. -/
def maxNameBytes : Nat := 255

/-- What a system call raises for a name that is too long for any file. -/
def checkName (name : PyStr) : Except PyError Unit :=
  raiseIf (maxNameBytes < (name.flatMap utf8EncodeChar).length)
    (raise .osError "File name too long")

/-- The part of `add` under the lock. -/
def publishSection (c : AddCall) (manifest : ArtifactManifest) : Cmd Unit := do
  liftM (checkName manifest.version)
  let final ← perform (.look manifest.version)
  liftM (raiseIf (final.present = true)
    (raise .registryError "registry versions are immutable"))
  let names ← perform .listdir
  assertReleaseSequenceAvailable P c.keyring manifest.releaseSequence manifest.version names
  let stage ← perform .mkdtemp
  (do
    perform (.copyModel c.modelPath stage)
    writeMetadata P c stage
    let entry ← perform (.look stage)
    let _ ← liftM ((registry P c.keyring).verifyDirectory entry manifest.version)
    perform (.publish stage manifest.version) : Cmd Unit).catch' fun e => do
      perform (.removeTree stage)
      throw e

/-- `Registry.add` -/
def add (c : AddCall) : Party Op Op.Res PyError PyStr := do
  let manifest ← Party.lift (checked P c)
  Party.locked (publishSection P c manifest)
  return manifest.version

end Publish
end EdgeFort
