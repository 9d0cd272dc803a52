/-
`FileRollbackAnchor` (`rollback_anchor.py`), over `atomic_write` and the file lock
(`util.py`).

Every construction and every method does its work in one section under the lock file.  The
anchor file is only ever replaced, so what an open file holds does not change.
-/
import EdgeFort.Anchor.Memory
import EdgeFort.Deploy.Persistence
import EdgeFort.Effect.ReadWrite

namespace EdgeFort
namespace Anchor

open Effect Json

/-! ## Files -/

/-- The directory of the anchor file.  `irregular` is a symlink to one. -/
inductive Parent where
  | missing
  | directory
  | irregular
  deriving DecidableEq

/-- What is at the path of the anchor. -/
inductive Entry where
  | missing
  | file (data : Bytes)
  | special
  | symlink (resolves : Bool)
  deriving DecidableEq

structure World where
  parent : Parent
  entry : Entry
  temps : Nat → Option Bytes
  nextTemp : Nat

inductive FileOp where
  | mkdirParent
  | parentIsRegular
  | pathExists
  | isSymlink
  | openRead
  | mkstemp
  | write (tmp : Nat) (data : Bytes)
  | fsync (tmp : Nat)
  | replace (tmp : Nat)
  | fsyncParent
  | unlink (tmp : Nat)

/-- An opened file answers with its bytes, and with nothing if it is not regular. -/
@[reducible] def FileOp.Res : FileOp → Type
  | .parentIsRegular | .pathExists | .isSymlink => Bool
  | .openRead => Option Bytes
  | .mkstemp => Nat
  | _ => Unit

def notFound : PyError := raise .fileNotFoundError "No such file or directory"

def exec : (o : FileOp) → World → Except PyError o.Res × World
  | .mkdirParent, w =>
    (.ok (), if w.parent = .missing then { w with parent := .directory } else w)
  | .parentIsRegular, w => (.ok (w.parent = .directory), w)
  | .pathExists, w => (.ok (w.entry matches .file _ | .special | .symlink true), w)
  | .isSymlink, w => (.ok (w.entry matches .symlink _), w)
  | .openRead, w =>
    match w.entry with
    | .missing => (.error notFound, w)
    | .symlink _ => (.error (raise .osError "Too many levels of symbolic links"), w)
    | .special => (.ok none, w)
    | .file data => (.ok (some data), w)
  | .mkstemp, w =>
    if w.parent = .missing then (.error notFound, w)
    else (.ok w.nextTemp, { w with
      temps := Function.update w.temps w.nextTemp (some [])
      nextTemp := w.nextTemp + 1 })
  | .write tmp data, w => (.ok (), { w with temps := Function.update w.temps tmp (some data) })
  | .fsync _, w => (.ok (), w)
  | .replace tmp, w =>
    match w.temps tmp with
    | none => (.error notFound, w)
    | some data => (.ok (), { w with
      entry := .file data
      temps := Function.update w.temps tmp none })
  | .fsyncParent, w => (.ok (), w)
  | .unlink tmp, w =>
    match w.temps tmp with
    | none => (.error notFound, w)
    | some _ => (.ok (), { w with temps := Function.update w.temps tmp none })

/-- A disk that works. -/
def sem : Sem FileOp FileOp.Res PyError World where
  exec := exec
  fault _ _ _ := False

abbrev FileProg := Prog FileOp FileOp.Res PyError

def perform (o : FileOp) : FileProg o.Res := Prog.perform o

/-- `atomic_write` -/
def atomicWrite (data : Bytes) : FileProg Unit := do
  perform .mkdirParent
  let tmp ← perform .mkstemp
  Prog.finally'
    (do
      perform (.write tmp data)
      perform (.fsync tmp)
      perform (.replace tmp)
      (perform .fsyncParent).catch' fun e => if Deploy.isOSError e then pure () else throw e)
    ((perform (.unlink tmp)).catch' fun e =>
      if e.cls = .fileNotFoundError then pure () else throw e)

/-! ## The anchor file -/

variable (I : Interpreter)

def maxAnchorBytes : Nat := 4096

def payload (floor : Floor) : Json :=
  .obj [("schema_version", .int 1), ("floor", .int floor.val)]

def anchorFile (floor : Floor) : Except PyError Bytes := do
  let text ← canonicalJsonBytes I (payload floor)
  return text ++ [0x0A]

def deploymentError (text : PyStr) : PyError := raise .deploymentError text

def jsonInt? : Json → Option Int
  | .int i => some i
  | _ => none

/-- The checks of `_read` on what it has loaded. -/
def parseAnchor : Doc → Except PyError Floor
  | .oversized => .error (deploymentError "rollback anchor exceeds size limit")
  | .malformed text => .error (deploymentError (py "invalid rollback anchor: " ++ text))
  | .json (.obj fields) => do
    raiseIf (Json.keysAre fields [py "floor", py "schema_version"] = false)
      (deploymentError "invalid rollback anchor structure")
    raiseIf ((Json.item fields "schema_version").pyEq (.int 1) = false)
      (deploymentError "unsupported rollback anchor schema")
    match validate (jsonInt? (Json.item fields "floor")) with
    | .ok floor => return floor
    | .error e => .error (deploymentError e.text)
  | .json _ => .error (deploymentError "invalid rollback anchor structure")

namespace FileRollbackAnchor

/-- `_read` -/
def read : FileProg Floor := do
  let link ← perform .isSymlink
  liftM (raiseIf (link = true)
    (deploymentError "rollback anchor path must not be a symlink"))
  let raw ← (perform .openRead).catch' fun e =>
    throw (deploymentError (py "rollback anchor cannot be opened safely: " ++ e.text))
  match raw with
  | none => throw (deploymentError "rollback anchor is not a regular file")
  | some raw => liftM (parseAnchor (Deploy.docOf I maxAnchorBytes raw))

/-- `_write` -/
def write (floor : Floor) : FileProg Unit := do
  let data ← liftM (anchorFile I floor)
  atomicWrite data

/-- The thread locks of an instance and of its file lock. -/
inductive Mutex (ι : Type) where
  | thread (i : ι)
  | ipc (i : ι)
  deriving DecidableEq

variable {ι : Type}

/-- What the section of a call gets: a value that `_validate` has let through, or none. -/
abbrev Checked := Option Floor

/-- The constructor up to its section. -/
def prepare (initial : PyObject) : FileProg Checked := do
  let floor ← liftM (validate (argument? initial))
  perform .mkdirParent
  let regular ← perform .parentIsRegular
  liftM (raiseIf (regular = false)
    (raise .valueError "rollback anchor parent must be a regular directory"))
  perform .mkdirParent
  return some floor

/-- The section of the constructor. -/
def provision (initial : Floor) : FileProg (Option Int) := do
  let present ← perform .pathExists
  (if present then pure ()
    else do
      let link ← perform .isSymlink
      if link then pure () else write I initial)
  let _ ← read I
  return none

/-- The section of `advance_to`. -/
def advance (releaseSequence : Floor) : FileProg (Option Int) := do
  let current ← read I
  liftM (raiseIf (releaseSequence.val < current.val) cannotDecrease)
  (if current.val < releaseSequence.val then write I releaseSequence else pure ())
  return some releaseSequence.val

/-- A call that gets no value is none of these. -/
def withValue (section_ : Floor → FileProg (Option Int)) : Checked → FileProg (Option Int)
  | some floor => section_ floor
  | none => throw invalidValue

/-- `__init__`, `read_floor` and `advance_to` -/
def method : AnchorCall ι →
    Method FileOp FileOp.Res PyError (Option Int) Checked (Mutex ι)
  | .construct i initial => {
      prelude := prepare initial
      mutexes := [.thread i, .ipc i]
      mode := .exclusive
      body := withValue (provision I) }
  | .readFloor i => {
      prelude := pure none
      mutexes := [.thread i, .ipc i]
      mode := .shared
      body := fun _ => do
        let floor ← read I
        return some floor.val }
  | .advanceTo i releaseSequence => {
      prelude := do
        let value ← liftM (validate (argument? releaseSequence))
        return some value
      mutexes := [.thread i, .ipc i]
      mode := .exclusive
      body := withValue (advance I) }

variable {τ π : Type}

/-- An instance is made once, by one process, and used by the threads of that process. -/
def may (proc : τ → π) (history : List (Event τ π (AnchorCall ι) (Except PyError (Option Int))))
    (t : τ) : AnchorCall ι → Prop
  | .construct i _ => ∀ id u initial, .call id u (.construct i initial) ∉ history
  | .readFloor i | .advanceTo i _ => ∃ id u initial, proc u = proc t ∧
      .call id u (.construct i initial) ∈ history ∧ .ret id (.ok none) ∈ history

def clients (proc : τ → π) :
    Clients FileOp FileOp.Res PyError (Option Int) Checked (Mutex ι) (AnchorCall ι) τ π where
  proc := proc
  method := method I
  may := may proc

end FileRollbackAnchor
end Anchor
end EdgeFort
