/-
The file routines the deployer is written with: `shutil.rmtree`,
`shutil.copytree` and `atomic_write` (`util.py`).
-/
import EdgeFort.Deploy.Disk

namespace EdgeFort
namespace Deploy

open Effect

/-- `isinstance(e, OSError)` -/
def isOSError (e : PyError) : Bool :=
  e.cls matches .osError | .fileNotFoundError | .fileExistsError | .notADirectoryError
    | .timeoutError

/-- Run `p` and drop the exceptions `which` selects. -/
def suppress (which : PyError → Bool) (p : Cmd Unit) : Cmd Unit :=
  p.catch' fun e => if which e then pure () else throw e

/-- A step of `rmtree`, under its `ignore_errors`. -/
def quiet (ignoreErrors : Bool) (p : Cmd Unit) : Cmd Unit :=
  if ignoreErrors then p.ignore else p

def look (p : Path) : Cmd Node := perform (.look p)

def removeAll (ignoreErrors : Bool) (p : Path) : List FileName → Cmd Unit
  | [] => quiet ignoreErrors (perform (.rmdir p))
  | f :: fs => do
    quiet ignoreErrors (perform (.removeEntry p f))
    removeAll ignoreErrors p fs

/-- `shutil.rmtree` -/
def rmtree (ignoreErrors : Bool) (p : Path) : Cmd Unit := do
  match ← look p with
  | .dir es => removeAll ignoreErrors p (es.map Prod.fst)
  | .missing => quiet ignoreErrors (throw notFound)
  | .symlink _ =>
    quiet ignoreErrors (throw (raise .osError "Cannot call rmtree on a symbolic link"))
  | _ => quiet ignoreErrors (throw notADirectory)

def copyFiles (dst : Path) : Entries → Cmd Unit
  | [] => pure ()
  | (f, data) :: es => do
    perform (.create dst f)
    perform (.fill dst f data)
    copyFiles dst es

/-- `shutil.copytree` of a directory with files `es`. -/
def copytree (es : Entries) (dst : Path) : Cmd Unit := do
  perform (.mkdir dst)
  copyFiles dst es

/-- `os.fsync` of the deployment root, best effort. -/
def fsyncRoot : Cmd Unit := suppress isOSError (perform .fsyncDir)

def atomicWrite (p : Path) (doc : Doc) : Cmd Unit := do
  perform .mkstemp
  Prog.finally'
    (do
      perform (.writeTemp doc)
      perform .fsyncTemp
      perform (.replaceTemp p)
      fsyncRoot)
    (suppress (fun e => e.cls = .fileNotFoundError) (perform .unlinkTemp))

/-- `canonical_json_bytes(value)` as the file it will be. -/
def canonicalJson (value : Json) : Except PyError Doc :=
  if value.encodable then .ok (.json value)
  else .error (raise .unicodeEncodeError "surrogates not allowed")

end Deploy
end EdgeFort
