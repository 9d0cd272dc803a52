/-
Numbers in byte strings: `struct` and the buffers of NumPy arrays.
-/
import EdgeFort.Numpy.Array
import EdgeFort.Python.Utf8

namespace EdgeFort

/-- The low bytes of `n`, `w` of them, the lowest first. -/
def leBytes : Nat → Nat → Bytes
  | 0, _ => []
  | w + 1, n => byte (n % 256) :: leBytes w (n / 256)

/-- The number of a byte string, the lowest byte first. -/
def leValue : Bytes → Nat
  | [] => 0
  | b :: rest => b.toNat + 256 * leValue rest

@[simp] theorem length_leBytes (w n : Nat) : (leBytes w n).length = w := by
  induction w generalizing n with
  | zero => rfl
  | succ w ih => rw [leBytes, List.length_cons, ih]

theorem leValue_leBytes {w n : Nat} (h : n < 256 ^ w) : leValue (leBytes w n) = n := by
  induction w generalizing n with
  | zero =>
    have hn : n = 0 := by simpa using h
    rw [hn]
    rfl
  | succ w ih =>
    have hdiv : n / 256 < 256 ^ w := Nat.div_lt_of_lt_mul (by rwa [Nat.pow_succ, Nat.mul_comm] at h)
    rw [leBytes, leValue, ih hdiv, byte_toNat (Nat.mod_lt _ (by decide))]
    exact Nat.mod_add_div n 256

theorem leBytes_leValue (b : Bytes) : leBytes b.length (leValue b) = b := by
  induction b with
  | nil => rfl
  | cons x b ih =>
    have hx := x.toNat_lt
    have hmod : (x.toNat + 256 * leValue b) % 256 = x.toNat := by omega
    have hdiv : (x.toNat + 256 * leValue b) / 256 = leValue b := by omega
    rw [leValue, List.length_cons, leBytes, hmod, hdiv, ih, byte, UInt8.ofNat_toNat]

/-- The first `n` items of `w` bytes each. -/
def readItems (w : Nat) : Nat → Bytes → List Nat
  | 0, _ => []
  | n + 1, b => leValue (b.take w) :: readItems w n (b.drop w)

/-- `np.frombuffer`, of a buffer that holds whole items. -/
def frombuffer (w : Nat) (b : Bytes) : List Nat := readItems w (b.length / w) b

theorem length_flatMap_leBytes (w : Nat) (xs : List Nat) :
    (xs.flatMap (leBytes w)).length = xs.length * w := by
  induction xs with
  | nil => simp
  | cons x xs ih =>
    rw [List.flatMap_cons, List.length_append, ih, length_leBytes, List.length_cons, Nat.succ_mul,
      Nat.add_comm]

/-- A buffer is read back as the items it was written from. -/
theorem frombuffer_flatMap {w : Nat} (hw : 0 < w) {xs : List Nat} (hxs : ∀ x ∈ xs, x < 256 ^ w) :
    frombuffer w (xs.flatMap (leBytes w)) = xs := by
  have hread : readItems w xs.length (xs.flatMap (leBytes w)) = xs := by
    induction xs with
    | nil => rfl
    | cons x xs ih =>
      obtain ⟨hx, hxs⟩ := List.forall_mem_cons.mp hxs
      have htake : (leBytes w x ++ xs.flatMap (leBytes w)).take w = leBytes w x :=
        List.take_left' (length_leBytes w x)
      have hdrop : (leBytes w x ++ xs.flatMap (leBytes w)).drop w = xs.flatMap (leBytes w) :=
        List.drop_left' (length_leBytes w x)
      rw [List.flatMap_cons, List.length_cons, readItems, htake, hdrop, leValue_leBytes hx, ih hxs]
  rw [frombuffer, length_flatMap_leBytes, Nat.mul_div_cancel _ hw, hread]

theorem leValue_lt (b : Bytes) : leValue b < 256 ^ b.length := by
  induction b with
  | nil => exact Nat.one_pos
  | cons x b ih =>
    have hx := x.toNat_lt
    rw [leValue, List.length_cons, Nat.pow_succ]
    omega

/-- A buffer of whole items is the bytes of its items. -/
theorem flatMap_readItems {w : Nat} (n : Nat) {b : Bytes} (h : b.length = n * w) :
    (readItems w n b).flatMap (leBytes w) = b ∧ (readItems w n b).length = n ∧
      ∀ x ∈ readItems w n b, x < 256 ^ w := by
  induction n generalizing b with
  | zero =>
    rw [Nat.zero_mul] at h
    exact ⟨(List.length_eq_zero_iff.mp h).symm, rfl, List.forall_mem_nil _⟩
  | succ n ih =>
    rw [Nat.succ_mul] at h
    have hfirst : (b.take w).length = w := by
      rw [List.length_take]
      omega
    have hitem : leBytes w (leValue (b.take w)) = b.take w := by
      have hself := leBytes_leValue (b.take w)
      rwa [hfirst] at hself
    have hlt : leValue (b.take w) < 256 ^ w := by
      have hself := leValue_lt (b.take w)
      rwa [hfirst] at hself
    have hdrop : (b.drop w).length = n * w := by
      rw [List.length_drop]
      omega
    obtain ⟨hrest, hlen, hall⟩ := ih hdrop
    rw [readItems, List.flatMap_cons, hitem, hrest, List.length_cons, hlen]
    exact ⟨List.take_append_drop w b, rfl, List.forall_mem_cons.mpr ⟨hlt, hall⟩⟩

/-! ## float32 arrays -/

/-- `np.isfinite`, of the bits of a float32: its exponent is not all ones. -/
def isfinite32 (x : UInt32) : Bool := x.toNat / 8388608 % 256 ≠ 255

/-- `a.tobytes(order="C")` of a `<f4` array. -/
def tobytes32 (a : List UInt32) : Bytes := (a.map UInt32.toNat).flatMap (leBytes 4)

/-- `np.frombuffer(b, dtype="<f4")` -/
def frombuffer32 (b : Bytes) : List UInt32 := (frombuffer 4 b).map UInt32.ofNat

theorem length_tobytes32 (a : List UInt32) : (tobytes32 a).length = a.length * 4 := by
  rw [tobytes32, length_flatMap_leBytes, List.length_map]

theorem frombuffer32_tobytes32 (a : List UInt32) : frombuffer32 (tobytes32 a) = a := by
  have hlt : ∀ x ∈ a.map UInt32.toNat, x < 256 ^ 4 := by
    intro x hx
    obtain ⟨y, -, rfl⟩ := List.mem_map.mp hx
    exact y.toNat_lt
  rw [frombuffer32, tobytes32, frombuffer_flatMap (by decide) hlt, List.map_map]
  exact (List.map_congr_left fun x _ => UInt32.ofNat_toNat).trans (List.map_id a)

/-- `np.frombuffer(b, dtype="<f4").reshape((rows, cols))` -/
def reshape32 (b : Bytes) (rows cols : Nat) : Except PyError (NdArray UInt32) :=
  if h : (frombuffer32 b).length = rows * cols then
    .ok ⟨[rows, cols], frombuffer32 b, by simpa using h⟩
  else .error (raise .valueError "cannot reshape array")

/-- A buffer of the values of an array of rank 2, reshaped, is the array. -/
theorem reshape32_tobytes32 {a : NdArray UInt32} {rows cols : Nat} (h : a.shape = [rows, cols]) :
    reshape32 (tobytes32 a.data) rows cols = .ok a := by
  obtain ⟨shape, data, hsize⟩ := a
  dsimp only at h
  subst h
  have hlen : data.length = rows * cols := by
    rw [hsize]
    simp
  simp only [reshape32, frombuffer32_tobytes32 data]
  exact dif_pos hlen

/-- A buffer of the right length is the bytes of the array it is reshaped to. -/
theorem reshape32_eq_ok {b : Bytes} {rows cols : Nat} (h : b.length = rows * cols * 4) :
    ∃ a, reshape32 b rows cols = .ok a ∧ a.shape = [rows, cols] ∧ tobytes32 a.data = b := by
  have hcount : b.length / 4 = rows * cols := by omega
  obtain ⟨hbytes, hlen, hlt⟩ := flatMap_readItems (rows * cols) h
  have hback : (frombuffer32 b).map UInt32.toNat = readItems 4 (rows * cols) b := by
    rw [frombuffer32, frombuffer, hcount, List.map_map]
    refine (List.map_congr_left fun x hx => ?_).trans (List.map_id _)
    exact UInt32.toNat_ofNat_of_lt' (hlt x hx)
  have hsize : (frombuffer32 b).length = rows * cols := by
    rw [frombuffer32, frombuffer, hcount, List.length_map, hlen]
  refine ⟨⟨[rows, cols], frombuffer32 b, by simpa using hsize⟩, dif_pos hsize, rfl, ?_⟩
  rw [tobytes32, hback, hbytes]

/-! ## int64 arrays -/

/-- The bits of an int64. -/
def bits64 (x : Int64) : Nat := x.toBitVec.toNat

/-- `a.tobytes(order="C")` of a `<i8` array. -/
def tobytes64 (a : List Int64) : Bytes := (a.map bits64).flatMap (leBytes 8)

/-- `np.frombuffer(b, dtype="<i8")` -/
def frombuffer64 (b : Bytes) : List Int64 := (frombuffer 8 b).map fun n =>
  Int64.ofBitVec (BitVec.ofNat 64 n)

theorem length_tobytes64 (a : List Int64) : (tobytes64 a).length = a.length * 8 := by
  rw [tobytes64, length_flatMap_leBytes, List.length_map]

theorem frombuffer64_tobytes64 (a : List Int64) : frombuffer64 (tobytes64 a) = a := by
  have hlt : ∀ x ∈ a.map bits64, x < 256 ^ 8 := by
    intro x hx
    obtain ⟨y, -, rfl⟩ := List.mem_map.mp hx
    exact y.toBitVec.isLt
  have hbits : ∀ x : Int64, Int64.ofBitVec (BitVec.ofNat 64 (bits64 x)) = x := by
    intro x
    rw [bits64, BitVec.ofNat_toNat, BitVec.setWidth_eq]
    rfl
  rw [frombuffer64, tobytes64, frombuffer_flatMap (by decide) hlt, List.map_map]
  exact (List.map_congr_left fun x _ => hbits x).trans (List.map_id a)

end EdgeFort
