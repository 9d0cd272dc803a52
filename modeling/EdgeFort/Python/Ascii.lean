/-
The ASCII codec.
-/
import EdgeFort.Python.Utf8

namespace EdgeFort

def isAscii (c : CodePoint) : Bool := c.val < 0x80

/-- `s.encode("ascii")` -/
def asciiEncode (s : PyStr) : Except PyError Bytes :=
  if s.all isAscii then .ok (s.map fun c => byte c.val)
  else .error (raise .unicodeEncodeError "'ascii' codec can't encode characters")

/-- `b.decode("ascii")` -/
def asciiDecode (b : Bytes) : Except PyError PyStr :=
  if b.all fun x => x.toNat < 0x80 then .ok (b.map fun x => chr x.toNat)
  else .error (raise .unicodeDecodeError "'ascii' codec can't decode bytes")

theorem lt_of_isAscii {s : PyStr} (h : s.all isAscii = true) : ∀ c ∈ s, c.val < 0x80 := by
  intro c hc
  simpa [isAscii] using List.all_eq_true.mp h c hc

theorem asciiEncode_eq_ok {s : PyStr} {b : Bytes} :
    asciiEncode s = .ok b ↔ (∀ c ∈ s, c.val < 0x80) ∧ b = s.map fun c => byte c.val := by
  unfold asciiEncode
  split_ifs with h
  · have hall : ∀ c ∈ s, c.val < 0x80 := by simpa [isAscii] using h
    exact ⟨fun e => ⟨hall, (Except.ok.inj e).symm⟩, fun e => e.2 ▸ rfl⟩
  · refine ⟨fun e => False.elim e, fun e => absurd ?_ h⟩
    simpa [isAscii] using e.1

theorem asciiDecode_eq_ok {b : Bytes} {s : PyStr} :
    asciiDecode b = .ok s ↔ (∀ x ∈ b, x.toNat < 0x80) ∧ s = b.map fun x => chr x.toNat := by
  unfold asciiDecode
  split_ifs with h
  · have hall : ∀ x ∈ b, x.toNat < 0x80 := by simpa using h
    exact ⟨fun e => ⟨hall, (Except.ok.inj e).symm⟩, fun e => e.2 ▸ rfl⟩
  · refine ⟨fun e => False.elim e, fun e => absurd ?_ h⟩
    simpa using e.1

/-- The bytes of a text, in number and in range. -/
theorem asciiEncode_bytes {s : PyStr} {b : Bytes} (h : asciiEncode s = .ok b) :
    b.length = s.length ∧ ∀ x ∈ b, x.toNat < 0x80 := by
  obtain ⟨hs, rfl⟩ := asciiEncode_eq_ok.mp h
  refine ⟨List.length_map .., fun x hx => ?_⟩
  obtain ⟨c, hc, rfl⟩ := List.mem_map.mp hx
  have hlt := hs c hc
  rw [byte_toNat (by omega)]
  exact hlt

theorem asciiDecode_encode {s : PyStr} {b : Bytes} (h : asciiEncode s = .ok b) :
    asciiDecode b = .ok s := by
  refine asciiDecode_eq_ok.mpr ⟨(asciiEncode_bytes h).2, ?_⟩
  obtain ⟨hs, rfl⟩ := asciiEncode_eq_ok.mp h
  rw [List.map_map]
  refine ((List.map_congr_left fun c hc => ?_).trans (List.map_id s)).symm
  have hlt := hs c hc
  simp only [Function.comp_apply, id_eq]
  rw [byte_toNat (by omega), chr_coe]

/-- A text without a character has no byte of it. -/
theorem not_mem_asciiEncode {s : PyStr} {b : Bytes} (h : asciiEncode s = .ok b) {n : Nat}
    (hs : ∀ c ∈ s, c.val ≠ n) : ∀ x ∈ b, x.toNat ≠ n := by
  obtain ⟨hlt, rfl⟩ := asciiEncode_eq_ok.mp h
  intro x hx
  obtain ⟨c, hc, rfl⟩ := List.mem_map.mp hx
  have hc' := hlt c hc
  rw [byte_toNat (by omega)]
  exact hs c hc

end EdgeFort
