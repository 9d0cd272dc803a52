/-
Version strings (`util.py`).

`_SEMVER` is matched from the left.  Each of its repetitions is followed by a
character it cannot consume, so the leftmost greedy reading is the only one and
the matcher needs no backtracking.
-/
import EdgeFort.Python.Repr

namespace EdgeFort

def maxReleaseSequence : Int := 0x7FFFFFFFFFFFFFFF

/-- The zeros of the decimal digit blocks; `\d` matches each and the nine code
points after it. -/
def decimalZeros : List Nat :=
  [0x30, 0x660, 0x6f0, 0x7c0, 0x966, 0x9e6, 0xa66, 0xae6, 0xb66, 0xbe6, 0xc66, 0xce6, 0xd66,
    0xde6, 0xe50, 0xed0, 0xf20, 0x1040, 0x1090, 0x17e0, 0x1810, 0x1946, 0x19d0, 0x1a80, 0x1a90,
    0x1b50, 0x1bb0, 0x1c40, 0x1c50, 0xa620, 0xa8d0, 0xa900, 0xa9d0, 0xa9f0, 0xaa50, 0xabf0,
    0xff10, 0x104a0, 0x10d30, 0x11066, 0x110f0, 0x11136, 0x111d0, 0x112f0, 0x11450, 0x114d0,
    0x11650, 0x116c0, 0x11730, 0x118e0, 0x11950, 0x11c50, 0x11d50, 0x11da0, 0x16a60, 0x16ac0,
    0x16b50, 0x1d7ce, 0x1d7d8, 0x1d7e2, 0x1d7ec, 0x1d7f6, 0x1e140, 0x1e2f0, 0x1e950, 0x1fbf0]

/-- `\d` -/
def isDecimal (c : CodePoint) : Bool :=
  decimalZeros.any fun z => z ≤ c.val && c.val ≤ z + 9

def isAsciiDigit (c : CodePoint) : Bool := 0x30 ≤ c.val && c.val ≤ 0x39

def isAsciiLetter (c : CodePoint) : Bool :=
  (0x41 ≤ c.val && c.val ≤ 0x5A) || (0x61 ≤ c.val && c.val ≤ 0x7A)

/-- `[0-9A-Za-z.-]` -/
def isSuffixChar (c : CodePoint) : Bool :=
  isAsciiDigit c || isAsciiLetter c || c.val = 0x2E || c.val = 0x2D

/-- `0|[1-9]\d*`, giving the rest of the string. -/
def takeNumber : PyStr → Option PyStr
  | [] => none
  | c :: rest =>
    if c.val = 0x30 then some rest
    else if isAsciiDigit c then some (rest.dropWhile isDecimal)
    else none

/-- `\.` -/
def takeDot : PyStr → Option PyStr
  | [] => none
  | c :: rest => if c.val = 0x2E then some rest else none

/-- `$` without `re.MULTILINE`: the end, or the newline that ends the string. -/
def atEnd : PyStr → Bool
  | [] => true
  | [c] => c.val = 0x0A
  | _ => false

/-- `(?:[-+][0-9A-Za-z.-]+)?$` -/
def matchSuffix : PyStr → Bool
  | c :: d :: rest =>
    if c.val = 0x2D || c.val = 0x2B then isSuffixChar d && atEnd (rest.dropWhile isSuffixChar)
    else false
  | rest => atEnd rest

/-- `_SEMVER.match(version)` -/
def semverMatch (version : PyStr) : Bool :=
  match takeNumber version >>= takeDot >>= takeNumber >>= takeDot >>= takeNumber with
  | some rest => matchSuffix rest
  | none => false

/-! ## A version has a UTF-8 encoding -/

theorem isDecimal_not_surrogate {c : CodePoint} (h : isDecimal c = true) :
    isSurrogate c = false := by
  have hzeros : ∀ z ∈ decimalZeros, z + 9 < 0xD800 ∨ 0xDFFF < z := by decide
  obtain ⟨z, hz, hc⟩ := List.any_eq_true.mp h
  simp only [Bool.and_eq_true, decide_eq_true_eq] at hc
  simp only [isSurrogate, Bool.and_eq_false_iff, decide_eq_false_iff_not]
  rcases hzeros z hz with hlt | hgt <;> omega

theorem isSuffixChar_not_surrogate {c : CodePoint} (h : isSuffixChar c = true) :
    isSurrogate c = false := by
  simp only [isSuffixChar, isAsciiDigit, isAsciiLetter, Bool.or_eq_true, Bool.and_eq_true,
    decide_eq_true_eq] at h
  simp only [isSurrogate, Bool.and_eq_false_iff, decide_eq_false_iff_not]
  omega

theorem utf8Encodable_of_dropWhile {p : CodePoint → Bool}
    (hp : ∀ c, p c = true → isSurrogate c = false) {s : PyStr}
    (h : utf8Encodable (s.dropWhile p) = true) : utf8Encodable s = true := by
  induction s with
  | nil => exact h
  | cons c s ih =>
    by_cases hc : p c = true
    · rw [List.dropWhile_cons_of_pos hc] at h
      simpa [utf8Encodable, hp c hc] using ih h
    · rwa [List.dropWhile_cons_of_neg hc] at h

theorem takeNumber_utf8 {s rest : PyStr} (h : takeNumber s = some rest)
    (hrest : utf8Encodable rest = true) : utf8Encodable s = true := by
  unfold takeNumber at h
  split at h
  · cases h
  · rename_i c s
    have hcons : isAsciiDigit c = true → utf8Encodable s = true → utf8Encodable (c :: s) = true := by
      intro hc hs
      have := isSuffixChar_not_surrogate (c := c) (by simp [isSuffixChar, hc])
      simpa [utf8Encodable, this] using hs
    split_ifs at h with hzero hdigit
    · exact hcons (by simp [isAsciiDigit, hzero]) (Option.some.inj h ▸ hrest)
    · exact hcons hdigit
        (utf8Encodable_of_dropWhile (fun _ => isDecimal_not_surrogate) (Option.some.inj h ▸ hrest))

theorem takeDot_utf8 {s rest : PyStr} (h : takeDot s = some rest)
    (hrest : utf8Encodable rest = true) : utf8Encodable s = true := by
  unfold takeDot at h
  split at h
  · cases h
  · rename_i c s
    split_ifs at h with hdot
    have := isSuffixChar_not_surrogate (c := c) (by simp [isSuffixChar, hdot])
    simpa [utf8Encodable, this, Option.some.inj h] using hrest

theorem atEnd_utf8 {s : PyStr} (h : atEnd s = true) : utf8Encodable s = true := by
  unfold atEnd at h
  split at h
  · rfl
  · rename_i c
    have hc : c.val = 0x0A := by simpa using h
    simp [utf8Encodable, isSurrogate, hc]
  · cases h

theorem matchSuffix_utf8 {s : PyStr} (h : matchSuffix s = true) : utf8Encodable s = true := by
  unfold matchSuffix at h
  split at h
  · rename_i c d rest
    split_ifs at h with hsign
    obtain ⟨hd, hend⟩ := Bool.and_eq_true_iff.mp h
    have hrest : utf8Encodable rest = true :=
      utf8Encodable_of_dropWhile (fun _ => isSuffixChar_not_surrogate) (atEnd_utf8 hend)
    have hc : isSurrogate c = false := by
      simp only [Bool.or_eq_true, decide_eq_true_eq] at hsign
      simp only [isSurrogate, Bool.and_eq_false_iff, decide_eq_false_iff_not]
      omega
    simpa [utf8Encodable, hc, isSuffixChar_not_surrogate hd] using hrest
  · exact atEnd_utf8 h

theorem semverMatch_utf8 {v : PyStr} (h : semverMatch v = true) : utf8Encodable v = true := by
  unfold semverMatch at h
  split at h
  · rename_i rest hrest
    simp only [Option.bind_eq_bind, Option.bind_eq_some_iff] at hrest
    obtain ⟨s₄, ⟨s₃, ⟨s₂, ⟨s₁, h₁, h₂⟩, h₃⟩, h₄⟩, h₅⟩ := hrest
    exact takeNumber_utf8 h₁ (takeDot_utf8 h₂ (takeNumber_utf8 h₃ (takeDot_utf8 h₄
      (takeNumber_utf8 h₅ (matchSuffix_utf8 h)))))
  · cases h

/-! ## The check -/

def validateSemver (version : PyStr) : Except PyError Unit :=
  raiseIf (semverMatch version = false)
    (raise .valueError (py "invalid semantic version: " ++ pyRepr version))

def safeVersion (version : PyStr) : Except PyError PyStr := do
  validateSemver version
  return version

theorem safeVersion_ok_iff {version v : PyStr} :
    safeVersion version = .ok v ↔ semverMatch version = true ∧ version = v := by
  simp only [safeVersion, validateSemver, Effect.bind_eq_ok, Effect.pure_eq_ok, raiseIf_eq_ok,
    Bool.not_eq_false, exists_const]

end EdgeFort
