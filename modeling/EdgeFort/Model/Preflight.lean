/-
The preflight of a model archive (`model_io.py`).

The directory of the archive and the header of each member are given as `zipfile` and
`numpy.lib.format` read them, an exception of theirs as an error.  The seeks of the file
object are left out.
-/
import EdgeFort.Python.Value
import Mathlib.Algebra.BigOperators.Group.List.Basic
import Mathlib.Algebra.GroupWithZero.Nat
import Mathlib.Algebra.Ring.Int.Defs
import Mathlib.Data.Finset.Image
import Mathlib.Tactic.SplitIfs

namespace EdgeFort

open Effect

/-! ## Headers -/

/-- `np.dtype` of a simple type. -/
structure DType where
  kind : PyStr
  itemsize : Nat
  byteorder : PyStr
  hasobject : Bool
  deriving DecidableEq, Repr

namespace DType

/-- `np.dtype(np.float32)` -/
def float32 : DType := ⟨"f", 4, "=", false⟩

/-- `np.dtype(np.int8)` -/
def int8 : DType := ⟨"i", 1, "|", false⟩

end DType

/-- A dimension in a header, by its Python type. -/
inductive Dim where
  | int (i : Int)
  | bool (b : Bool)
  | other
  deriving DecidableEq, Repr

/-- What a header gives for a shape. -/
inductive HeaderShape where
  | tuple (dims : List Dim)
  | other
  deriving DecidableEq, Repr

/-- What a header reader of `numpy.lib.format` returns. -/
structure NpyHeader where
  shape : HeaderShape
  fortranOrder : Bool
  dtype : DType
  deriving DecidableEq, Repr

/-- An open member: its magic, and what the two header readers make of the rest. -/
structure NpyMember where
  magic : Except PyError (Nat × Nat)
  header10 : Except PyError NpyHeader
  header20 : Except PyError NpyHeader

structure ArrayHeader where
  shape : List Nat
  dtype : DType
  fortranOrder : Bool
  dataBytes : Nat
  deriving DecidableEq, Repr

/-- The bytes of an array of the header. -/
def ArrayHeader.bytes (h : ArrayHeader) : Nat := h.shape.prod * h.dtype.itemsize

namespace Npz

def validationError (text : PyStr) : PyError := raise .validationError text

/-- A dimension that is an integer, not a boolean and not negative. -/
def size? : Dim → Option Nat
  | .int (.ofNat n) => some n
  | _ => none

def sizes? : HeaderShape → Option (List Nat)
  | .tuple dims => dims.mapM size?
  | .other => none

/-- The magic and the header of the version it names. -/
def readHeader (member : NpyMember) : Except PyError NpyHeader := do
  let version ← member.magic
  if version = (1, 0) then member.header10
  else if version = (2, 0) then member.header20
  else .error (raise .valueError (py s!"unsupported NPY version ({version.1}, {version.2})"))

/-- `_read_npy_header` -/
def readNpyHeader (member : NpyMember) : Except PyError ArrayHeader :=
  match readHeader member with
  | .error e => .error (validationError (py "invalid NPY member header: " ++ e.text))
  | .ok header => do
    raiseIf (header.dtype.hasobject = true)
      (validationError (py "object dtypes are forbidden " ++ py "in model artifacts"))
    match sizes? header.shape with
    | none => .error (validationError "invalid array shape in model artifact")
    | some shape =>
      let count := if shape = [] then 1 else shape.prod
      return ⟨shape, header.dtype, header.fortranOrder, count * header.dtype.itemsize⟩

/-! ## The archive -/

/-- `zipfile.ZipInfo` -/
structure ZipInfo where
  filename : PyStr
  flagBits : Nat
  compressType : Nat
  fileSize : Int
  deriving DecidableEq, Repr

/-- `info.is_dir()` -/
def ZipInfo.isDir (info : ZipInfo) : Bool := info.filename.getLast? = some (chr 0x2F)

/-- `infolist()`, each member as `archive.open` opens it. -/
abbrev Archive := List (ZipInfo × Except PyError NpyMember)

/-- `_ALLOWED_COMPRESSION`: stored and deflated. -/
def allowedCompression : List Nat := [0, 8]

/-- The name of an array's member. -/
def memberName (name : PyStr) : PyStr := name ++ py ".npy"

/-- `info.filename[:-4]` -/
def arrayName (filename : PyStr) : PyStr := filename.take (filename.length - 4)

/-- The checks of the member names. -/
def checkNames (expectedArrays : Finset PyStr) (names : List PyStr) : Except PyError Unit := do
  raiseIf (¬names.Nodup) (validationError "duplicate NPZ members are forbidden")
  raiseIf (names.toFinset ≠ expectedArrays.image memberName)
    (validationError (py "unexpected or missing arrays " ++ py "in model artifact"))
  raiseIf (16 < names.length) (validationError "too many arrays in model artifact")

/-- The checks of one member's directory entry, before it is opened. -/
def checkInfo (limit declaredTotal : Int) (info : ZipInfo) : Except PyError Unit := do
  raiseIf (info.isDir = true ∨ chr 0x2F ∈ info.filename ∨ chr 0x5C ∈ info.filename)
    (validationError "nested NPZ members are forbidden")
  raiseIf (info.flagBits &&& 1 ≠ 0) (validationError "encrypted NPZ members are forbidden")
  raiseIf (info.compressType ∉ allowedCompression)
    (validationError "unsupported NPZ compression method")
  raiseIf (info.fileSize < 1) (validationError "empty NPZ member")
  raiseIf (limit < declaredTotal + info.fileSize)
    (validationError "model expanded size exceeds configured limit")

/-- The loop over the members, from what the ones before declare.  The names are distinct,
so no key of the headers is set twice. -/
def checkMembers (limit : Int) (declaredTotal : Int) :
    Archive → Except PyError (List (PyStr × ArrayHeader))
  | [] => .ok []
  | (info, opened) :: rest => do
    checkInfo limit declaredTotal info
    let member ← opened
    let header ← readNpyHeader member
    raiseIf (info.fileSize < header.dataBytes)
      (validationError "array shape exceeds NPZ member size")
    let headers ← checkMembers limit (declaredTotal + info.fileSize) rest
    return (arrayName info.filename, header) :: headers

/-- `OSError`, `zipfile.BadZipFile` and `zipfile.LargeZipFile`. -/
def isArchiveError (e : PyError) : Bool :=
  e.cls matches .osError | .fileNotFoundError | .fileExistsError | .notADirectoryError |
    .timeoutError | .badZipFile | .largeZipFile

/-- The `except` clauses of `preflight_npz`. -/
def archiveErrors {α : Type} (r : Except PyError α) : Except PyError α :=
  match r with
  | .ok a => .ok a
  | .error e =>
    if isArchiveError e then
      .error (validationError (py "invalid NPZ model artifact: " ++ e.text))
    else .error e

/-- `preflight_npz` -/
def preflightNpz (archive : Except PyError Archive) (expectedArrays : Finset PyStr)
    (maxUncompressedBytes : Json) : Except PyError (List (PyStr × ArrayHeader)) :=
  match maxUncompressedBytes with
  | .int limit => do
    raiseIf (limit < 1024) (raise .valueError "max_uncompressed_bytes must be >= 1024")
    raiseIf (expectedArrays = ∅) (raise .valueError "expected_arrays must not be empty")
    archiveErrors do
      let members ← archive
      checkNames expectedArrays (members.map fun m => m.1.filename)
      checkMembers limit 0 members
  | _ => .error (raise .valueError "max_uncompressed_bytes must be an integer")

/-! ## What an accepted archive is -/

variable {limit declaredTotal : Int} {info : ZipInfo} {member : NpyMember} {h : ArrayHeader}
  {members : Archive} {headers : List (PyStr × ArrayHeader)}

theorem readNpyHeader_ok (hread : readNpyHeader member = .ok h) : h.dataBytes = h.bytes := by
  unfold readNpyHeader at hread
  split at hread
  · cases hread
  · rename_i header _
    simp only [bind_eq_ok] at hread
    obtain ⟨_, -, hread⟩ := hread
    split at hread
    · cases hread
    · rename_i shape _
      obtain rfl := Except.ok.inj hread
      cases shape <;> simp [ArrayHeader.bytes]

/-- A header of the member: the archive gives it under the member's name, and it fits. -/
def HeaderOf (member : ZipInfo × Except PyError NpyMember) (entry : PyStr × ArrayHeader) : Prop :=
  entry.1 = arrayName member.1.filename ∧ (∃ m, member.2 = .ok m ∧ readNpyHeader m = .ok entry.2) ∧
    (entry.2.bytes : Int) ≤ member.1.fileSize

/-- The loop gives each member's header, and what the members declare stays within the
limit. -/
theorem checkMembers_ok (hcheck : checkMembers limit declaredTotal members = .ok headers)
    (htotal : declaredTotal ≤ limit) :
    List.Forall₂ HeaderOf members headers ∧
      declaredTotal + (members.map fun m => m.1.fileSize).sum ≤ limit := by
  induction members generalizing declaredTotal headers with
  | nil =>
    obtain rfl := Except.ok.inj hcheck
    exact ⟨.nil, by simpa using htotal⟩
  | cons member rest ih =>
    obtain ⟨info, opened⟩ := member
    simp only [checkMembers, checkInfo, bind_eq_ok, raiseIf_eq_ok, pure_eq_ok, not_lt] at hcheck
    obtain ⟨_, ⟨_, -, _, -, _, -, _, -, hlimit⟩, m, hopened, h, hread, _, hfits, hs, hrest, rfl⟩ :=
      hcheck
    obtain ⟨hheaders, hsum⟩ := ih hrest hlimit
    rw [readNpyHeader_ok hread] at hfits
    refine ⟨.cons ⟨rfl, ⟨m, hopened, hread⟩, hfits⟩ hheaders, ?_⟩
    rw [List.map_cons, List.sum_cons, ← Int.add_assoc]
    exact hsum

/-- The bytes of all arrays. -/
def totalBytes (headers : List (PyStr × ArrayHeader)) : Nat :=
  (headers.map fun e => e.2.bytes).sum

/-- Headers that fit their members take no more than the members declare. -/
theorem totalBytes_le (hs : List.Forall₂ HeaderOf members headers) :
    (totalBytes headers : Int) ≤ (members.map fun m => m.1.fileSize).sum := by
  unfold totalBytes
  induction hs with
  | nil => simp
  | cons hhead _ ih =>
    have hle := hhead.2.2
    simp only [List.map_cons, List.sum_cons]
    omega

theorem arrayName_memberName (name : PyStr) : arrayName (memberName name) = name := by
  have hlen : (memberName name).length - 4 = name.length := by
    rw [memberName, List.length_append]
    rfl
  rw [arrayName, hlen, memberName, List.take_left']
  rfl

theorem headers_names (hs : List.Forall₂ HeaderOf members headers) :
    headers.map Prod.fst = (members.map fun m => m.1.filename).map arrayName := by
  induction hs with
  | nil => rfl
  | cons hhead _ ih => rw [List.map_cons, List.map_cons, List.map_cons, ih, hhead.1]

/-- What `preflight_npz` establishes. -/
structure Accepted (members : Archive) (expectedArrays : Finset PyStr) (limit : Int)
    (headers : List (PyStr × ArrayHeader)) : Prop where
  nodup : (members.map fun m => m.1.filename).Nodup
  names : (members.map fun m => m.1.filename).toFinset = expectedArrays.image memberName
  read : List.Forall₂ HeaderOf members headers
  arrays_nodup : (headers.map Prod.fst).Nodup
  arrays : (headers.map Prod.fst).toFinset = expectedArrays
  bytes_le : (totalBytes headers : Int) ≤ limit

theorem archiveErrors_ok {α : Type} {r : Except PyError α} {a : α} :
    archiveErrors r = .ok a ↔ r = .ok a := by
  cases r with
  | ok b => exact Iff.rfl
  | error e =>
    unfold archiveErrors
    simp only [reduceCtorEq, iff_false]
    split_ifs <;> simp

theorem preflightNpz_ok {archive : Except PyError Archive} {expectedArrays : Finset PyStr}
    {maxUncompressedBytes : Json}
    (hok : preflightNpz archive expectedArrays maxUncompressedBytes = .ok headers) :
    ∃ members limit, archive = .ok members ∧ maxUncompressedBytes = .int limit ∧
      Accepted members expectedArrays limit headers := by
  unfold preflightNpz at hok
  split at hok
  · rename_i limit
    simp only [bind_eq_ok, raiseIf_eq_ok, archiveErrors_ok, checkNames, not_not, not_lt] at hok
    obtain ⟨_, hlimit, _, -, members, harchive, _, ⟨_, hnodup, _, hnames, -⟩, hcheck⟩ := hok
    obtain ⟨hheaders, hsum⟩ := checkMembers_ok hcheck (by omega)
    have hbytes := totalBytes_le hheaders
    -- the names are those of the expected arrays, so cutting them back is one-to-one
    have hback : ∀ f ∈ members.map fun m => m.1.filename, memberName (arrayName f) = f := by
      intro f hf
      have hmem : f ∈ expectedArrays.image memberName := hnames ▸ List.mem_toFinset.mpr hf
      obtain ⟨name, -, rfl⟩ := Finset.mem_image.mp hmem
      rw [arrayName_memberName]
    refine ⟨members, limit, harchive, rfl, hnodup, hnames, hheaders, ?_, ?_, ?_⟩
    · rw [headers_names hheaders]
      refine hnodup.map_on fun f hf g hg hfg => ?_
      rw [← hback f hf, ← hback g hg, hfg]
    · have himage : (headers.map Prod.fst).toFinset =
          (members.map fun m => m.1.filename).toFinset.image arrayName := by
        rw [headers_names hheaders]
        ext name
        simp only [List.mem_toFinset, List.mem_map, Finset.mem_image]
      rw [himage, hnames, Finset.image_image]
      exact (Finset.image_congr fun name _ => arrayName_memberName name).trans Finset.image_id
    · rw [Int.zero_add] at hsum
      exact hbytes.trans hsum
  · cases hok

end Npz
end EdgeFort
