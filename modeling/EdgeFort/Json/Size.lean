/-
How many bytes a JSON text takes.

A character of a string takes at most six bytes: `\u00XX` for a control character, at most
four for any other.
-/
import EdgeFort.Json.Canonical

namespace EdgeFort
namespace Json

/-- The length of a text in UTF-8. -/
def byteLength (s : PyStr) : Nat := (s.flatMap utf8EncodeChar).length

variable {I : Interpreter} {c : CodePoint} {s t : PyStr}

theorem byteLength_append : byteLength (s ++ t) = byteLength s + byteLength t := by
  rw [byteLength, List.flatMap_append, List.length_append]
  rfl

theorem byteLength_cons : byteLength (c :: s) = (utf8EncodeChar c).length + byteLength s := by
  rw [byteLength, List.flatMap_cons, List.length_append]
  rfl

theorem length_utf8EncodeChar (c : CodePoint) :
    1 ≤ (utf8EncodeChar c).length ∧ (utf8EncodeChar c).length ≤ 4 := by
  unfold utf8EncodeChar
  split_ifs <;> simp

theorem length_utf8EncodeChar_ascii (h : c.val < 0x80) : (utf8EncodeChar c).length = 1 := by
  rw [utf8EncodeChar, if_pos h]
  rfl

theorem length_le_byteLength (s : PyStr) : s.length ≤ byteLength s := by
  induction s with
  | nil => exact Nat.le_refl _
  | cons c s ih =>
    have := (length_utf8EncodeChar c).1
    rw [byteLength_cons, List.length_cons]
    omega

theorem byteLength_ascii (h : ∀ c ∈ s, c.val < 0x80) : byteLength s = s.length := by
  induction s with
  | nil => rfl
  | cons c s ih =>
    obtain ⟨hc, hs⟩ := List.forall_mem_cons.mp h
    rw [byteLength_cons, length_utf8EncodeChar_ascii hc, ih hs, List.length_cons, Nat.add_comm]

/-! ## Strings -/

theorem byteLength_escapeChar (c : CodePoint) :
    1 ≤ byteLength (escapeChar false c) ∧ byteLength (escapeChar false c) ≤ 6 := by
  have hone : ∀ d : CodePoint, byteLength [d] = (utf8EncodeChar d).length := fun d => by
    simp [byteLength]
  unfold escapeChar
  split
  · rename_i l hl
    have hall : ∀ e ∈ shortEscapes, byteLength [backslash, chr e.2] = 2 := by decide
    obtain ⟨pre, post, hsplit, -⟩ := List.lookup_eq_some_iff.mp hl
    have hmem : (c.val, l) ∈ shortEscapes := hsplit ▸ List.mem_append_right _ List.mem_cons_self
    rw [hall _ hmem]
    omega
  · rename_i hnone
    by_cases hlow : c.val < 0x20
    · have hascii : ∀ n < 0x20, byteLength (unicodeEscape n) = 6 := by decide
      rw [if_pos (by simp [hlow]), if_pos (by omega), hascii _ hlow]
      omega
    · have := length_utf8EncodeChar c
      rw [if_neg (by simp [hlow]), hone]
      omega

theorem byteLength_escapeString (s : PyStr) :
    s.length ≤ byteLength (escapeString false s) ∧
      byteLength (escapeString false s) ≤ 6 * s.length := by
  induction s with
  | nil => exact ⟨Nat.le_refl _, Nat.le_refl _⟩
  | cons c s ih =>
    have hc := byteLength_escapeChar c
    rw [escapeString, List.flatMap_cons, byteLength_append, List.length_cons]
    rw [escapeString] at ih
    omega

theorem byteLength_renderString (s : PyStr) :
    s.length + 2 ≤ byteLength (renderString false s) ∧
      byteLength (renderString false s) ≤ 6 * s.length + 2 := by
  have h := byteLength_escapeString s
  have hquote : (utf8EncodeChar quote).length = 1 := rfl
  have hend : byteLength [quote] = 1 := rfl
  rw [renderString, List.cons_append, byteLength_cons, byteLength_append, hquote, hend]
  omega

/-! ## Numbers -/

theorem decimal_ascii (n : Nat) : ∀ c ∈ decimal n, c.val < 0x80 := by
  intro c hc
  have hdigit := isDigit_of_mem_decimal hc
  simp only [isDigit, Bool.and_eq_true, decide_eq_true_eq] at hdigit
  omega

theorem byteLength_intRepr (i : Int) :
    byteLength (intRepr i) ≤ (decimal i.natAbs).length + 1 := by
  have hascii := byteLength_ascii (decimal_ascii i.natAbs)
  unfold intRepr
  split_ifs
  · rw [byteLength_cons, hascii, Nat.add_comm]
    exact Nat.le_refl _
  · omega

theorem length_decimal {n k : Nat} (hk : 0 < k) (h : n < 10 ^ k) : (decimal n).length ≤ k := by
  unfold decimal
  split_ifs with hn
  · exact hk
  · rw [List.length_reverse, List.length_map]
    exact (Nat.digits_length_le_iff (by decide) n).mpr h

/-! ## Objects -/

/-- The items of an object that is printed are printed. -/
theorem refusal_items {n : Nat} {fields : List (PyStr × Json)}
    (h : (Json.obj fields).refusal n = none) : ∃ m, ∀ f ∈ fields, f.2.refusal m = none := by
  cases n with
  | zero => cases h
  | succ m => exact ⟨m, refusalFields_eq_none.mp (refusal_obj.mp h).2⟩

/-- What the items of an object take. -/
def itemsLength (I : Interpreter) (fields : List (PyStr × Json)) : Nat :=
  (fields.map fun f => byteLength (renderString false f.1) +
    byteLength (render I false f.2) + 2).sum

theorem byteLength_renderFields (fields : List (PyStr × Json)) :
    byteLength (renderFields I false fields) = itemsLength I fields + 1 := by
  induction fields with
  | nil => rfl
  | cons f fields ih =>
    obtain ⟨k, x⟩ := f
    have hcomma : (utf8EncodeChar comma).length = 1 := rfl
    have hcolon : (utf8EncodeChar colon).length = 1 := rfl
    rw [renderFields, byteLength_cons, byteLength_append, byteLength_cons, byteLength_append, ih,
      hcomma, hcolon]
    simp only [itemsLength, List.map_cons, List.sum_cons]
    omega

/-- The text of an object takes its items and its two braces, a comma fewer than items. -/
theorem byteLength_render_obj (f : PyStr × Json) (fields : List (PyStr × Json)) :
    byteLength (render I false (.obj (f :: fields))) = itemsLength I (f :: fields) + 1 := by
  obtain ⟨k, x⟩ := f
  have hbrace : (utf8EncodeChar openBrace).length = 1 := rfl
  have hcolon : (utf8EncodeChar colon).length = 1 := rfl
  rw [render, byteLength_cons, byteLength_append, byteLength_cons, byteLength_append,
    byteLength_renderFields, hbrace, hcolon]
  simp only [itemsLength, List.map_cons, List.sum_cons]
  omega

end Json
end EdgeFort
