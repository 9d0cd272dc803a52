/-
What a path of the file system names, as the program looks at it.
-/
import EdgeFort.Python.Utf8

namespace EdgeFort

/-- The files of a release directory.  Any other file is copied and removed with
the directory and never read. -/
inductive FileName where
  | model
  | manifest
  | signature
  | keyId
  | other (name : PyStr)
  deriving DecidableEq, Repr

/-- The files of a directory in listing order. -/
abbrev Entries := List (FileName × Bytes)

/-- The content of a JSON file, by what bounded reading and `strict_json_loads`
make of its bytes. -/
inductive Doc where
  | json (value : Json)
  | oversized
  | malformed (reason : PyStr)

/-- What a path names.  `resolves` says whether a symbolic link leads anywhere,
which is what `Path.exists` reports for it. -/
inductive Node where
  | missing
  | file (doc : Doc)
  | dir (entries : Entries)
  | symlink (resolves : Bool)
  | special

namespace Node

/-- `Path.exists()` -/
def exists' : Node → Bool
  | missing => false
  | symlink resolves => resolves
  | _ => true

/-- `Path.is_symlink()` -/
def isSymlink : Node → Bool
  | symlink _ => true
  | _ => false

/-- `Path.is_dir()`, on a path already known not to be a symbolic link. -/
def isDir : Node → Bool
  | dir _ => true
  | _ => false

/-- `exists() or is_symlink()` -/
def present (n : Node) : Bool := n.exists' || n.isSymlink

/-- A directory, or nothing: what the program itself leaves at its work paths. -/
def Removable (n : Node) : Prop := n = .missing ∨ ∃ es, n = .dir es

@[simp] theorem present_missing : Node.missing.present = false := rfl
@[simp] theorem present_dir (es : Entries) : (Node.dir es).present = true := rfl

theorem eq_missing {n : Node} (h : n.present = false) : n = .missing := by
  cases n with
  | missing => rfl
  | symlink resolves => simp [present, isSymlink] at h
  | _ => cases h

theorem Removable.missing : Removable .missing := Or.inl rfl

theorem Removable.dir (es : Entries) : Removable (.dir es) := Or.inr ⟨es, rfl⟩

end Node

end EdgeFort
