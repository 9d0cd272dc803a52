/-
Byte strings and their decoding: UTF-8, and the wider encodings `json.loads`
accepts for bytes.
-/
import EdgeFort.Python.Value

namespace EdgeFort

abbrev Bytes := List UInt8

/-! ## UTF-8 -/

def byte (n : Nat) : UInt8 := UInt8.ofNat n

def utf8EncodeChar (c : CodePoint) : Bytes :=
  if c.val < 0x80 then [byte c.val]
  else if c.val < 0x800 then [byte (0xC0 + c.val / 64), byte (0x80 + c.val % 64)]
  else if c.val < 0x10000 then
    [byte (0xE0 + c.val / 4096), byte (0x80 + c.val / 64 % 64), byte (0x80 + c.val % 64)]
  else
    [byte (0xF0 + c.val / 262144), byte (0x80 + c.val / 4096 % 64),
      byte (0x80 + c.val / 64 % 64), byte (0x80 + c.val % 64)]

/-- `s.encode("utf-8")` -/
def utf8Encode (s : PyStr) : Except PyError Bytes :=
  if utf8Encodable s then .ok (s.flatMap utf8EncodeChar)
  else .error (raise .unicodeEncodeError "'utf-8' codec can't encode: surrogates not allowed")

/-- A continuation byte. -/
def isTail (b : UInt8) : Bool := 0x80 ≤ b.toNat && b.toNat < 0xC0

/-- The code point of two bytes, of three and of four, or none where UTF-8 has no
such sequence.  A surrogate passes only under `surrogatepass`. -/
def utf8Two (a b : UInt8) : Option CodePoint :=
  if 0xC2 ≤ a.toNat ∧ a.toNat < 0xE0 ∧ isTail b = true then
    some (chr ((a.toNat - 0xC0) * 64 + (b.toNat - 0x80)))
  else none

def utf8Three (surrogatepass : Bool) (a b c : UInt8) : Option CodePoint :=
  let n := (a.toNat - 0xE0) * 4096 + (b.toNat - 0x80) * 64 + (c.toNat - 0x80)
  if 0xE0 ≤ a.toNat ∧ a.toNat < 0xF0 ∧ isTail b = true ∧ isTail c = true ∧ 0x800 ≤ n ∧
      (surrogatepass = true ∨ isSurrogate (chr n) = false) then some (chr n)
  else none

def utf8Four (a b c d : UInt8) : Option CodePoint :=
  let n := (a.toNat - 0xF0) * 262144 + (b.toNat - 0x80) * 4096 + (c.toNat - 0x80) * 64 +
    (d.toNat - 0x80)
  if 0xF0 ≤ a.toNat ∧ isTail b = true ∧ isTail c = true ∧ isTail d = true ∧ 0x10000 ≤ n ∧
      n < 0x110000 then some (chr n)
  else none

/-- The code points of a byte string, where it is UTF-8. -/
def utf8Chars (surrogatepass : Bool) : Bytes → Option PyStr
  | [] => some []
  | a :: rest =>
    if a.toNat < 0x80 then (utf8Chars surrogatepass rest).map (chr a.toNat :: ·)
    else
      match rest with
      | [] => none
      | b :: rest =>
        match utf8Two a b with
        | some x => (utf8Chars surrogatepass rest).map (x :: ·)
        | none =>
          match rest with
          | [] => none
          | c :: rest =>
            match utf8Three surrogatepass a b c with
            | some x => (utf8Chars surrogatepass rest).map (x :: ·)
            | none =>
              match rest with
              | [] => none
              | d :: rest =>
                match utf8Four a b c d with
                | some x => (utf8Chars surrogatepass rest).map (x :: ·)
                | none => none

/-- `UnicodeDecodeError` -/
def decodeFailure : PyError := raise .unicodeDecodeError "codec can't decode bytes"

/-- `b.decode("utf-8")` -/
def utf8Decode (b : Bytes) : Except PyError PyStr :=
  match utf8Chars false b with
  | some s => .ok s
  | none => .error decodeFailure

/-! ## What is encoded decodes to itself -/

theorem byte_toNat {n : Nat} (h : n < 256) : (byte n).toNat = n := UInt8.toNat_ofNat_of_lt' h

theorem isTail_byte {n : Nat} (h : n < 64) : isTail (byte (0x80 + n)) = true := by
  simp only [isTail, byte_toNat (show 0x80 + n < 256 by omega), Bool.and_eq_true,
    decide_eq_true_eq]
  omega

theorem utf8Two_byte {n : Nat} (hlo : 0x80 ≤ n) (hhi : n < 0x800) :
    utf8Two (byte (0xC0 + n / 64)) (byte (0x80 + n % 64)) = some (chr n) := by
  have ha := byte_toNat (show 0xC0 + n / 64 < 256 by omega)
  have hb := byte_toNat (show 0x80 + n % 64 < 256 by omega)
  have hn : (0xC0 + n / 64 - 0xC0) * 64 + (0x80 + n % 64 - 0x80) = n := by omega
  rw [utf8Two, if_pos ⟨by omega, by omega, isTail_byte (by omega)⟩, ha, hb, hn]

theorem utf8Two_none {a b : UInt8} (h : 0xE0 ≤ a.toNat) : utf8Two a b = none :=
  if_neg fun hc => by omega

theorem utf8Three_byte {n : Nat} (hlo : 0x800 ≤ n) (hhi : n < 0x10000) {surrogatepass : Bool}
    (hs : isSurrogate (chr n) = false) :
    utf8Three surrogatepass (byte (0xE0 + n / 4096)) (byte (0x80 + n / 64 % 64))
      (byte (0x80 + n % 64)) = some (chr n) := by
  have ha := byte_toNat (show 0xE0 + n / 4096 < 256 by omega)
  have hb := byte_toNat (show 0x80 + n / 64 % 64 < 256 by omega)
  have hc := byte_toNat (show 0x80 + n % 64 < 256 by omega)
  have hn : (0xE0 + n / 4096 - 0xE0) * 4096 + (0x80 + n / 64 % 64 - 0x80) * 64 +
      (0x80 + n % 64 - 0x80) = n := by omega
  simp only [utf8Three, ha, hb, hc, hn]
  exact if_pos ⟨by omega, by omega, isTail_byte (by omega), isTail_byte (by omega), hlo,
    Or.inr hs⟩

theorem utf8Three_none {a b c : UInt8} {surrogatepass : Bool} (h : 0xF0 ≤ a.toNat) :
    utf8Three surrogatepass a b c = none :=
  if_neg fun hc => by omega

theorem utf8Four_byte {n : Nat} (hlo : 0x10000 ≤ n) (hhi : n < 0x110000) :
    utf8Four (byte (0xF0 + n / 262144)) (byte (0x80 + n / 4096 % 64))
      (byte (0x80 + n / 64 % 64)) (byte (0x80 + n % 64)) = some (chr n) := by
  have ha := byte_toNat (show 0xF0 + n / 262144 < 256 by omega)
  have hb := byte_toNat (show 0x80 + n / 4096 % 64 < 256 by omega)
  have hc := byte_toNat (show 0x80 + n / 64 % 64 < 256 by omega)
  have hd := byte_toNat (show 0x80 + n % 64 < 256 by omega)
  have hn : (0xF0 + n / 262144 - 0xF0) * 262144 + (0x80 + n / 4096 % 64 - 0x80) * 4096 +
      (0x80 + n / 64 % 64 - 0x80) * 64 + (0x80 + n % 64 - 0x80) = n := by omega
  simp only [utf8Four, ha, hb, hc, hd, hn]
  exact if_pos ⟨by omega, isTail_byte (by omega), isTail_byte (by omega), isTail_byte (by omega),
    hlo, hhi⟩

theorem chr_coe (c : CodePoint) : chr c.val = c := Fin.ext (Nat.mod_eq_of_lt c.isLt)

section

variable {surrogatepass : Bool} {a b c d : UInt8} {x : CodePoint} {rest : Bytes}

theorem utf8Chars_one (ha : a.toNat < 0x80) :
    utf8Chars surrogatepass (a :: rest) =
      (utf8Chars surrogatepass rest).map (chr a.toNat :: ·) := by
  rw [utf8Chars.eq_def]
  exact if_pos ha

theorem utf8Chars_two (ha : ¬a.toNat < 0x80) (h : utf8Two a b = some x) :
    utf8Chars surrogatepass (a :: b :: rest) = (utf8Chars surrogatepass rest).map (x :: ·) := by
  rw [utf8Chars.eq_def]
  simp only [if_neg ha, h]

theorem utf8Chars_three (ha : 0xE0 ≤ a.toNat) (h : utf8Three surrogatepass a b c = some x) :
    utf8Chars surrogatepass (a :: b :: c :: rest) =
      (utf8Chars surrogatepass rest).map (x :: ·) := by
  have hlt : ¬a.toNat < 0x80 := by omega
  rw [utf8Chars.eq_def]
  simp only [if_neg hlt, utf8Two_none ha, h]

theorem utf8Chars_four (ha : 0xF0 ≤ a.toNat) (h : utf8Four a b c d = some x) :
    utf8Chars surrogatepass (a :: b :: c :: d :: rest) =
      (utf8Chars surrogatepass rest).map (x :: ·) := by
  have hlt : ¬a.toNat < 0x80 := by omega
  have htwo : utf8Two a b = none := utf8Two_none (by omega)
  rw [utf8Chars.eq_def]
  simp only [if_neg hlt, htwo, utf8Three_none ha, h]

end

theorem utf8Chars_encodeChar {surrogatepass : Bool} {c : CodePoint}
    (hc : isSurrogate c = false) (rest : Bytes) :
    utf8Chars surrogatepass (utf8EncodeChar c ++ rest) =
      (utf8Chars surrogatepass rest).map (c :: ·) := by
  have hlt : c.val < 0x110000 := c.isLt
  have hcoe := chr_coe c
  unfold utf8EncodeChar
  split_ifs with h₁ h₂ h₃
  · have hb := byte_toNat (show c.val < 256 by omega)
    refine (utf8Chars_one (by omega)).trans ?_
    rw [hb, hcoe]
    rfl
  · have hb := byte_toNat (show 0xC0 + c.val / 64 < 256 by omega)
    have htwo := utf8Two_byte (Nat.le_of_not_lt h₁) h₂
    rw [hcoe] at htwo
    exact utf8Chars_two (by omega) htwo
  · have hb := byte_toNat (show 0xE0 + c.val / 4096 < 256 by omega)
    have hthree : utf8Three surrogatepass _ _ _ = _ :=
      utf8Three_byte (Nat.le_of_not_lt h₂) h₃ (hcoe.symm ▸ hc)
    rw [hcoe] at hthree
    exact utf8Chars_three (by omega) hthree
  · have hb := byte_toNat (show 0xF0 + c.val / 262144 < 256 by omega)
    have hfour := utf8Four_byte (Nat.le_of_not_lt h₃) hlt
    rw [hcoe] at hfour
    exact utf8Chars_four (by omega) hfour

/-- A string that has a UTF-8 encoding is what its encoding decodes to. -/
theorem utf8Chars_flatMap {surrogatepass : Bool} {s : PyStr} (hs : utf8Encodable s = true) :
    utf8Chars surrogatepass (s.flatMap utf8EncodeChar) = some s := by
  induction s with
  | nil => rfl
  | cons c s ih =>
    simp only [utf8Encodable, List.all_cons, Bool.and_eq_true, Bool.not_eq_true'] at hs
    rw [List.flatMap_cons, utf8Chars_encodeChar hs.1, ih hs.2, Option.map_some]

theorem utf8Encode_eq_ok {s : PyStr} {b : Bytes} :
    utf8Encode s = .ok b ↔ utf8Encodable s = true ∧ b = s.flatMap utf8EncodeChar := by
  by_cases h : utf8Encodable s = true
  · rw [utf8Encode, if_pos h]
    exact ⟨fun e => ⟨h, (Except.ok.inj e).symm⟩, fun e => e.2 ▸ rfl⟩
  · rw [utf8Encode, if_neg h]
    exact ⟨fun e => absurd e Effect.error_ne_ok, fun e => absurd e.1 h⟩

theorem utf8Encode_append {s t : PyStr} {b c : Bytes} (hs : utf8Encode s = .ok b)
    (ht : utf8Encode t = .ok c) : utf8Encode (s ++ t) = .ok (b ++ c) := by
  obtain ⟨hencodable, rfl⟩ := utf8Encode_eq_ok.mp hs
  obtain ⟨hencodable', rfl⟩ := utf8Encode_eq_ok.mp ht
  refine utf8Encode_eq_ok.mpr ⟨?_, List.flatMap_append.symm⟩
  rw [utf8Encodable, List.all_append, Bool.and_eq_true]
  exact ⟨hencodable, hencodable'⟩

/-- ASCII text has one byte for each character. -/
theorem length_utf8Encode_ascii {s : PyStr} (hs : ∀ c ∈ s, c.val < 0x80) :
    ∃ b, utf8Encode s = .ok b ∧ b.length = s.length := by
  induction s with
  | nil => exact ⟨[], rfl, rfl⟩
  | cons c s ih =>
    obtain ⟨hc, hs⟩ := List.forall_mem_cons.mp hs
    obtain ⟨b, hb, hlen⟩ := ih hs
    have hone : utf8Encode [c] = .ok [byte c.val] := by
      refine utf8Encode_eq_ok.mpr ⟨?_, ?_⟩
      · simp only [utf8Encodable, isSurrogate, List.all_cons, List.all_nil, Bool.and_true,
          Bool.not_eq_true', Bool.and_eq_false_iff, decide_eq_false_iff_not]
        omega
      · simp [utf8EncodeChar, hc]
    exact ⟨_, utf8Encode_append hone hb, by simp [hlen, Nat.add_comm]⟩

theorem utf8Decode_encode {s : PyStr} {b : Bytes} (h : utf8Encode s = .ok b) :
    utf8Decode b = .ok s := by
  obtain ⟨hs, rfl⟩ := utf8Encode_eq_ok.mp h
  rw [utf8Decode, utf8Chars_flatMap hs]

end EdgeFort
