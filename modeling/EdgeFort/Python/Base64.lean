/-
`base64.b64encode`, and `base64.b64decode` with `validate=True`.

Three bytes are four characters.  A last group of one byte or of two is padded
with `=`, and padding may stand nowhere else.
-/
import EdgeFort.Python.Utf8

namespace EdgeFort

namespace Base64

/-- The character of a six-bit value. -/
def char (n : Nat) : CodePoint :=
  if n < 26 then chr (0x41 + n)
  else if n < 52 then chr (0x61 + (n - 26))
  else if n < 62 then chr (0x30 + (n - 52))
  else if n = 62 then chr 0x2B
  else chr 0x2F

def value (c : CodePoint) : Option Nat :=
  if 0x41 ≤ c.val ∧ c.val ≤ 0x5A then some (c.val - 0x41)
  else if 0x61 ≤ c.val ∧ c.val ≤ 0x7A then some (c.val - 0x61 + 26)
  else if 0x30 ≤ c.val ∧ c.val ≤ 0x39 then some (c.val - 0x30 + 52)
  else if c.val = 0x2B then some 62
  else if c.val = 0x2F then some 63
  else none

def padding : CodePoint := chr 0x3D

end Base64

open Base64

def b64encode : Bytes → PyStr
  | [] => []
  | [a] => [char (a.toNat / 4), char (a.toNat % 4 * 16), padding, padding]
  | [a, b] =>
    [char (a.toNat / 4), char (a.toNat % 4 * 16 + b.toNat / 16), char (b.toNat % 16 * 4), padding]
  | a :: b :: c :: rest =>
    char (a.toNat / 4) :: char (a.toNat % 4 * 16 + b.toNat / 16) ::
      char (b.toNat % 16 * 4 + c.toNat / 64) :: char (c.toNat % 64) :: b64encode rest

/-- The bytes of a last group, by its characters before the padding. -/
def b64Last (w x y z : CodePoint) : Option Bytes := do
  let w ← value w
  let x ← value x
  if z ≠ padding then none
  else if y = padding then return [byte (w * 4 + x / 16)]
  else do
    let y ← value y
    return [byte (w * 4 + x / 16), byte (x % 16 * 16 + y / 4)]

def b64Group (w x y z : CodePoint) : Option Bytes := do
  let w ← value w
  let x ← value x
  let y ← value y
  let z ← value z
  return [byte (w * 4 + x / 16), byte (x % 16 * 16 + y / 4), byte (y % 4 * 64 + z)]

/-- `b64decode(s, validate=True)`, or none where it raises. -/
def b64decode : PyStr → Option Bytes
  | [] => some []
  | [w, x, y, z] => (b64Group w x y z).or (b64Last w x y z)
  | w :: x :: y :: z :: rest => do
    let group ← b64Group w x y z
    let bytes ← b64decode rest
    return group ++ bytes
  | _ => none

/-! ## What is encoded decodes to itself -/

theorem value_char {n : Nat} (h : n < 64) : value (char n) = some n := by
  have hall : ∀ m < 64, value (char m) = some m := by decide
  exact hall n h

theorem char_ne_padding {n : Nat} (h : n < 64) : char n ≠ padding := by
  have hall : ∀ m < 64, char m ≠ padding := by decide
  exact hall n h

theorem byte_eq {a : UInt8} {n : Nat} (h : n = a.toNat) : byte n = a := by
  subst h
  exact UInt8.ofNat_toNat

theorem b64Group_encode (a b c : UInt8) :
    b64Group (char (a.toNat / 4)) (char (a.toNat % 4 * 16 + b.toNat / 16))
      (char (b.toNat % 16 * 4 + c.toNat / 64)) (char (c.toNat % 64)) = some [a, b, c] := by
  have ha := a.toNat_lt
  have hb := b.toNat_lt
  have hc := c.toNat_lt
  rw [b64Group, value_char (by omega), value_char (by omega), value_char (by omega),
    value_char (by omega)]
  simp only [Option.bind_eq_bind, Option.bind_some, Option.pure_def]
  rw [byte_eq (a := a) (by omega), byte_eq (a := b) (by omega), byte_eq (a := c) (by omega)]

theorem value_padding : value padding = none := by decide

/-- What is encoded decodes to itself. -/
theorem b64decode_b64encode (b : Bytes) : b64decode (b64encode b) = some b := by
  induction b using b64encode.induct with
  | case1 => rfl
  | case2 a =>
    have ha := a.toNat_lt
    have hnone : ∀ w x, b64Group w x padding padding = none := by
      intro w x
      cases hw : value w <;> cases hx : value x <;> simp [b64Group, hw, hx, value_padding]
    rw [b64encode, b64decode, hnone, Option.none_or, b64Last, value_char (by omega),
      value_char (by omega)]
    simp only [Option.bind_eq_bind, Option.bind_some, ne_eq, not_true_eq_false, if_false, if_true,
      Option.pure_def]
    rw [byte_eq (a := a) (by omega)]
  | case3 a b =>
    have ha := a.toNat_lt
    have hb := b.toNat_lt
    have hnone : ∀ w x y, b64Group w x y padding = none := by
      intro w x y
      cases hw : value w <;> cases hx : value x <;> cases hy : value y <;>
        simp [b64Group, hw, hx, hy, value_padding]
    have hne : ¬char (b.toNat % 16 * 4) = padding := char_ne_padding (by omega)
    rw [b64encode, b64decode, hnone, Option.none_or, b64Last, value_char (by omega),
      value_char (by omega), value_char (by omega)]
    simp only [Option.bind_eq_bind, Option.bind_some, ne_eq, not_true_eq_false, if_false,
      if_neg hne, Option.pure_def]
    rw [byte_eq (a := a) (by omega), byte_eq (a := b) (by omega)]
  | case4 a b c rest ih =>
    rw [b64encode]
    cases hr : b64encode rest with
    | nil =>
      rw [hr] at ih
      rw [b64decode, b64Group_encode, Option.some_or]
      exact congrArg (fun t => some (a :: b :: c :: t)) (Option.some.inj ih)
    | cons d t =>
      rw [hr] at ih
      rw [b64decode, b64Group_encode, ih]
      · rfl
      · simp

/-! ## Encoded text -/

/-- Encoded text is of letters, digits and four other characters, none of them white
space. -/
theorem char_mem_b64encode (b : Bytes) : ∀ c ∈ b64encode b, 0x2B ≤ c.val ∧ c.val ≤ 0x7A := by
  have hchar : ∀ n < 64, 0x2B ≤ (char n).val ∧ (char n).val ≤ 0x7A := by decide
  have hpadding : 0x2B ≤ padding.val ∧ padding.val ≤ 0x7A := by decide
  induction b using b64encode.induct with
  | case1 => exact List.forall_mem_nil _
  | case2 a =>
    have ha := a.toNat_lt
    simp only [b64encode, List.forall_mem_cons]
    exact ⟨hchar _ (by omega), hchar _ (by omega), hpadding, hpadding, List.forall_mem_nil _⟩
  | case3 a b =>
    have ha := a.toNat_lt
    have hb := b.toNat_lt
    simp only [b64encode, List.forall_mem_cons]
    exact ⟨hchar _ (by omega), hchar _ (by omega), hchar _ (by omega), hpadding,
      List.forall_mem_nil _⟩
  | case4 a b c rest ih =>
    have ha := a.toNat_lt
    have hb := b.toNat_lt
    have hc := c.toNat_lt
    simp only [b64encode, List.forall_mem_cons]
    exact ⟨hchar _ (by omega), hchar _ (by omega), hchar _ (by omega), hchar _ (by omega), ih⟩

theorem length_b64encode (b : Bytes) : (b64encode b).length = (b.length + 2) / 3 * 4 := by
  induction b using b64encode.induct with
  | case1 | case2 | case3 => simp [b64encode]
  | case4 a b c rest ih =>
    simp only [b64encode, List.length_cons, ih]
    omega

end EdgeFort
