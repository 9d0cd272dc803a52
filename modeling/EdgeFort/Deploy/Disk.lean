/-
The deployment root, the external anchor and one deployer's memory, with the
operations the deployer performs on them.

Every operation is one step a crash can separate from the next.  A directory is
copied and removed file by file, so a crash inside `copytree` or `rmtree` leaves
part of it.  `atomic_write` fills a temporary file of a fresh name; a crash
leaves the file behind under a name nothing reads, so only the file being written
is kept.
-/
import EdgeFort.Deploy.State
import EdgeFort.Effect.Wp
import EdgeFort.Store.Node

namespace EdgeFort
namespace Deploy

open Effect

/-- The paths below the deployment root. -/
inductive Path where
  | slots
  | slot (s : Slot)
  | candidate (s : Slot)
  | backup (s : Slot)
  | state
  | pending
  deriving DecidableEq, Repr

/-- What a deployer object remembers between calls. -/
structure Self where
  trustedFloor : Option Int
  recoveryRequired : Bool
  deriving DecidableEq, Repr

/-- `history` and `observed` are read by no program: the states `state.json` has
been replaced with, newest first, and the last floor the anchor reported. -/
structure World where
  node : Path → Node
  temp : Option Doc
  floor : Int
  self : Self
  history : List DeploymentState
  observed : Option Int

inductive Op where
  /-- `lstat`, and the content of what is there -/
  | look (p : Path)
  | mkdir (p : Path)
  /-- an empty file `f` in directory `p` -/
  | create (p : Path) (f : FileName)
  /-- the bytes of file `f` in directory `p` -/
  | fill (p : Path) (f : FileName) (data : Bytes)
  | removeEntry (p : Path) (f : FileName)
  | rmdir (p : Path)
  | rename (src dst : Path)
  | unlink (p : Path)
  | mkstemp
  | writeTemp (doc : Doc)
  | fsyncTemp
  /-- `os.replace` of the temporary file -/
  | replaceTemp (p : Path)
  | unlinkTemp
  | fsyncDir
  | readFloor
  | advanceTo (releaseSequence : Int)
  | getSelf
  | setSelf (self : Self)

@[reducible] def Op.Res : Op → Type
  | .look _ => Node
  | .readFloor | .advanceTo _ => Json
  | .getSelf => Self
  | _ => Unit

/-- A method of the deployer. -/
abbrev Cmd := Prog Op Op.Res PyError

def perform (o : Op) : Cmd o.Res := Prog.perform o

namespace World

def set (w : World) (p : Path) (n : Node) : World :=
  { w with node := Function.update w.node p n }

@[simp] theorem set_node (w : World) (p q : Path) (n : Node) :
    (w.set p n).node q = if q = p then n else w.node q := by
  simp [set, Function.update_apply]

@[simp] theorem set_temp (w : World) (p : Path) (n : Node) : (w.set p n).temp = w.temp := rfl
@[simp] theorem set_floor (w : World) (p : Path) (n : Node) : (w.set p n).floor = w.floor := rfl
@[simp] theorem set_self (w : World) (p : Path) (n : Node) : (w.set p n).self = w.self := rfl
@[simp] theorem set_history (w : World) (p : Path) (n : Node) :
    (w.set p n).history = w.history := rfl
@[simp] theorem set_observed (w : World) (p : Path) (n : Node) :
    (w.set p n).observed = w.observed := rfl

/-- The states a document adds to the history when it becomes `p`. -/
def recorded (p : Path) (doc : Doc) : List DeploymentState :=
  match p, doc with
  | .state, .json v => (DeploymentState.parseState v).toOption.toList
  | _, _ => []

end World

/-- The files left after `f` is unlinked. -/
def Entries.remove (es : Entries) (f : FileName) : Entries := es.filter fun e => e.1 ≠ f

/-- The files after `data` is written to `f`. -/
def Entries.fill (es : Entries) (f : FileName) (data : Bytes) : Entries :=
  es.map fun e => if e.1 = f then (f, data) else e

def notFound : PyError := raise .fileNotFoundError "No such file or directory"
def notEmpty : PyError := raise .osError "Directory not empty"
def notADirectory : PyError := raise .notADirectoryError "Not a directory"

def isADirectory : PyError := raise .osError "Is a directory"

/-- Whether `os.replace` can put `src` at a path that names `dst`. -/
def replaceError : Node → Node → Option PyError
  | .missing, _ => some notFound
  | .dir _, .missing | .dir _, .dir [] => none
  | .dir _, .dir _ => some notEmpty
  | .dir _, _ => some notADirectory
  | _, .dir _ => some isADirectory
  | _, _ => none

/-- A slot needs the slots directory above it. -/
def parentError (w : World) : Path → Option PyError
  | .slot _ =>
    match w.node .slots with
    | .dir _ => none
    | _ => some notFound
  | _ => none

/-- `os.replace(src, dst)` -/
def rename (w : World) (src dst : Path) : Except PyError Unit × World :=
  match replaceError (w.node src) (w.node dst), parentError w dst with
  | some e, _ | none, some e => (.error e, w)
  | none, none => (.ok (), (w.set src .missing).set dst (w.node src))

/-- The last floor reported, when the anchor answers `floor`. -/
def observe (floor : Int) (before : Option Int) : Option Int :=
  if -1 ≤ floor ∧ floor ≤ maxReleaseSequence then some floor else before

/-- What each operation does when nothing fails but what must. -/
def exec : (o : Op) → World → Except PyError o.Res × World
  | .look p, w => (.ok (w.node p), w)
  | .mkdir p, w =>
    match w.node p with
    | .missing => (.ok (), w.set p (.dir []))
    | _ => (.error (raise .fileExistsError "File exists"), w)
  | .create p f, w =>
    match w.node p with
    | .dir es => (.ok (), w.set p (.dir (Entries.remove es f ++ [(f, [])])))
    | .missing => (.error notFound, w)
    | _ => (.error notADirectory, w)
  | .fill p f data, w =>
    match w.node p with
    | .dir es => (.ok (), w.set p (.dir (Entries.fill es f data)))
    | .missing => (.error notFound, w)
    | _ => (.error notADirectory, w)
  | .removeEntry p f, w =>
    match w.node p with
    | .dir es => (.ok (), w.set p (.dir (Entries.remove es f)))
    | .missing => (.error notFound, w)
    | _ => (.error notADirectory, w)
  | .rmdir p, w =>
    match w.node p with
    | .dir [] => (.ok (), w.set p .missing)
    | .dir _ => (.error notEmpty, w)
    | .missing => (.error notFound, w)
    | _ => (.error notADirectory, w)
  | .rename src dst, w => rename w src dst
  | .unlink p, w =>
    match w.node p with
    | .missing => (.error notFound, w)
    | .dir _ => (.error isADirectory, w)
    | _ => (.ok (), w.set p .missing)
  | .mkstemp, w => (.ok (), { w with temp := some (.malformed "Expecting value") })
  | .writeTemp doc, w => (.ok (), { w with temp := some doc })
  | .fsyncTemp, w => (.ok (), w)
  | .replaceTemp p, w =>
    match w.temp, w.node p with
    | none, _ => (.error notFound, w)
    | some _, .dir _ => (.error isADirectory, w)
    | some doc, _ =>
      (.ok (), { w.set p (.file doc) with
        temp := none, history := World.recorded p doc ++ w.history })
  | .unlinkTemp, w =>
    match w.temp with
    | none => (.error notFound, w)
    | some _ => (.ok (), { w with temp := none })
  | .fsyncDir, w => (.ok (), w)
  | .readFloor, w => (.ok (.int w.floor), { w with observed := observe w.floor w.observed })
  | .advanceTo r, w =>
    if r < w.floor then (.error (raise .deploymentError "rollback anchor cannot decrease"), w)
    else (.ok (.int r), { w with floor := r, observed := observe r w.observed })
  | .getSelf, w => (.ok w.self, w)
  | .setSelf self, w => (.ok (), { w with self := self })

/-- `advance_to` may raise before the floor advances, or after. -/
inductive AmbiguousAdvance : (o : Op) → World → Except PyError o.Res × World → Prop
  | before {r w} (e : PyError) : AmbiguousAdvance (.advanceTo r) w (.error e, w)
  | after {r w} (e : PyError) : w.floor ≤ r →
      AmbiguousAdvance (.advanceTo r) w (.error e, { w with floor := r })

/-- A working disk and a monotonic anchor whose `advance_to` may raise. -/
def sem : Sem Op Op.Res PyError World where
  exec := exec
  fault := AmbiguousAdvance

end Deploy
end EdgeFort
