/-
Strings in JSON text: the escapes `json` writes and the ones its scanner reads.

Printing for an ASCII text writes a code point past 0xFFFF as two surrogate
escapes, and the scanner joins such a pair.  A string that holds a pair of
surrogates of its own therefore reads back as another string; every other string
reads back as itself.
-/
import EdgeFort.Json.Number

namespace EdgeFort.Json

def quote : CodePoint := chr 0x22
def backslash : CodePoint := chr 0x5C

/-! ## Printing -/

/-- The characters printed as a backslash and a letter, with the letter. -/
def shortEscapes : List (Nat × Nat) :=
  [(0x22, 0x22), (0x5C, 0x5C), (0x0A, 0x6E), (0x0D, 0x72), (0x09, 0x74), (0x0C, 0x66),
    (0x08, 0x62)]

def hexDigit (d : Nat) : CodePoint := if d < 10 then chr (0x30 + d) else chr (0x57 + d)

/-- `'\\u{0:04x}'.format(n)` -/
def unicodeEscape (n : Nat) : PyStr :=
  [backslash, chr 0x75, hexDigit (n / 4096 % 16), hexDigit (n / 256 % 16),
    hexDigit (n / 16 % 16), hexDigit (n % 16)]

/-- One character of a string, for a text in ASCII (`ensure_ascii`) or not. -/
def escapeChar (ascii : Bool) (c : CodePoint) : PyStr :=
  match shortEscapes.lookup c.val with
  | some l => [backslash, chr l]
  | none =>
    if c.val < 0x20 || ascii && 0x7E < c.val then
      if c.val < 0x10000 then unicodeEscape c.val
      else
        unicodeEscape (0xD800 + (c.val - 0x10000) / 1024) ++
          unicodeEscape (0xDC00 + (c.val - 0x10000) % 1024)
    else [c]

def escapeString (ascii : Bool) (s : PyStr) : PyStr := s.flatMap (escapeChar ascii)

def renderString (ascii : Bool) (s : PyStr) : PyStr := quote :: escapeString ascii s ++ [quote]

/-! ## Scanning -/

def decodeError (text : PyStr) : PyError := raise .jsonDecodeError text

/-- The character a one-letter escape stands for. -/
def shortUnescape (c : CodePoint) : Option CodePoint :=
  ([(0x22, 0x22), (0x5C, 0x5C), (0x2F, 0x2F), (0x62, 0x08), (0x66, 0x0C), (0x6E, 0x0A),
    (0x72, 0x0D), (0x74, 0x09)].lookup c.val).map chr

def hexValue (c : CodePoint) : Option Nat :=
  if 0x30 ≤ c.val ∧ c.val ≤ 0x39 then some (c.val - 0x30)
  else if 0x61 ≤ c.val ∧ c.val ≤ 0x66 then some (c.val - 0x57)
  else if 0x41 ≤ c.val ∧ c.val ≤ 0x46 then some (c.val - 0x37)
  else none

/-- The four hexadecimal digits of `\uXXXX`. -/
def takeHex : PyStr → Option (Nat × PyStr)
  | a :: b :: c :: d :: rest => do
    let a ← hexValue a
    let b ← hexValue b
    let c ← hexValue c
    let d ← hexValue d
    return (a * 4096 + b * 256 + c * 16 + d, rest)
  | _ => none

/-- The digits of a `\uXXXX` that follows at once. -/
def takeUnicodeEscape : PyStr → Option PyStr
  | a :: b :: rest => if a = backslash ∧ b = chr 0x75 then some rest else none
  | _ => none

/-- The code point of a `\uXXXX` whose digits say `n`.  The escape of a low
surrogate right after that of a high one is joined with it. -/
def joinSurrogates (n : Nat) (rest : PyStr) : Except PyError (CodePoint × PyStr) :=
  if 0xD800 ≤ n ∧ n ≤ 0xDBFF then
    match takeUnicodeEscape rest with
    | none => .ok (chr n, rest)
    | some digits =>
      match takeHex digits with
      | none => .error (decodeError "Invalid \\uXXXX escape")
      | some (m, rest') =>
        if 0xDC00 ≤ m ∧ m ≤ 0xDFFF then
          .ok (chr (0x10000 + (n - 0xD800) * 1024 + (m - 0xDC00)), rest')
        else .ok (chr n, rest)
  else .ok (chr n, rest)

/-- What follows a backslash. -/
def scanEscape : PyStr → Except PyError (CodePoint × PyStr)
  | [] => .error (decodeError "Unterminated string starting at")
  | c :: rest =>
    if c.val = 0x75 then
      match takeHex rest with
      | none => .error (decodeError "Invalid \\uXXXX escape")
      | some (n, rest) => joinSurrogates n rest
    else
      match shortUnescape c with
      | none => .error (decodeError "Invalid \\escape: ")
      | some c' => .ok (c', rest)

/-- `scanstring`, after the opening quote.  Each round takes a character at
least, so a text is read within as many rounds as it has characters. -/
def scanChars : Nat → PyStr → Except PyError (PyStr × PyStr)
  | 0, _ | _, [] => .error (decodeError "Unterminated string starting at")
  | n + 1, c :: rest =>
    if c = quote then .ok ([], rest)
    else if c = backslash then do
      let (c, rest) ← scanEscape rest
      let (s, rest) ← scanChars n rest
      return (c :: s, rest)
    else if c.val < 0x20 then .error (decodeError "Invalid control character at")
    else do
      let (s, rest) ← scanChars n rest
      return (c :: s, rest)

def scanString (s : PyStr) : Except PyError (PyStr × PyStr) := scanChars s.length s

/-! ## A string reads back as itself -/

theorem hexValue_hexDigit {d : Nat} (h : d < 16) : hexValue (hexDigit d) = some d := by
  by_cases hd : d < 10
  · have hv : (hexDigit d).val = 0x30 + d := by
      rw [hexDigit, if_pos hd]
      exact chr_val (by omega)
    rw [hexValue, if_pos (by omega), hv]
    exact congrArg some (by omega)
  · have hv : (hexDigit d).val = 0x57 + d := by
      rw [hexDigit, if_neg hd]
      exact chr_val (by omega)
    rw [hexValue, if_neg (by omega), if_pos (by omega), hv]
    exact congrArg some (by omega)

theorem takeHex_unicodeEscape {n : Nat} (h : n < 0x10000) (rest : PyStr) :
    takeHex ((unicodeEscape n).drop 2 ++ rest) = some (n, rest) := by
  have hn : n / 4096 % 16 * 4096 + n / 256 % 16 * 256 + n / 16 % 16 * 16 + n % 16 = n := by
    omega
  simp only [unicodeEscape, List.drop_succ_cons, List.drop_zero, List.cons_append,
    List.nil_append, takeHex, hexValue_hexDigit (Nat.mod_lt _ (Nat.succ_pos 15)),
    Option.bind_eq_bind, Option.bind_some, hn]
  rfl

theorem scanEscape_unicodeEscape {n : Nat} (h : n < 0x10000) (rest : PyStr) :
    scanEscape ((unicodeEscape n).tail ++ rest) = joinSurrogates n rest := by
  have hhex := takeHex_unicodeEscape h rest
  have hu : (chr 0x75).val = 0x75 := rfl
  simp only [unicodeEscape, List.drop_succ_cons, List.drop_zero, List.cons_append,
    List.nil_append] at hhex
  simp only [unicodeEscape, List.tail_cons, List.cons_append, List.nil_append, scanEscape, hu,
    if_true, hhex]

theorem takeUnicodeEscape_unicodeEscape (n : Nat) (rest : PyStr) :
    takeUnicodeEscape (unicodeEscape n ++ rest) = some ((unicodeEscape n).drop 2 ++ rest) := by
  simp [unicodeEscape, takeUnicodeEscape]

/-- A code point that is no surrogate is one escape. -/
theorem joinSurrogates_of_not_high {n : Nat} (h : ¬(0xD800 ≤ n ∧ n ≤ 0xDBFF)) (rest : PyStr) :
    joinSurrogates n rest = .ok (chr n, rest) := if_neg h

/-- A high surrogate is joined with the low one after it. -/
theorem joinSurrogates_low {high low : Nat} (hhigh : 0xD800 ≤ high ∧ high ≤ 0xDBFF)
    (hlow : 0xDC00 ≤ low ∧ low ≤ 0xDFFF) (rest : PyStr) :
    joinSurrogates high (unicodeEscape low ++ rest) =
      .ok (chr (0x10000 + (high - 0xD800) * 1024 + (low - 0xDC00)), rest) := by
  have hhex := takeHex_unicodeEscape (n := low) (by omega) rest
  simp only [joinSurrogates, if_pos hhigh, takeUnicodeEscape_unicodeEscape, hhex, if_pos hlow]

theorem shortUnescape_of_shortEscapes {n l : Nat} (h : shortEscapes.lookup n = some l) :
    (chr l).val ≠ 0x75 ∧ shortUnescape (chr l) = some (chr n) := by
  have hall : ∀ p ∈ shortEscapes, (chr p.2).val ≠ 0x75 ∧ shortUnescape (chr p.2) = some (chr p.1) := by
    decide
  have hmem : (n, l) ∈ shortEscapes := by
    revert h
    simp only [shortEscapes, List.lookup_cons]
    intro h
    repeat' split at h
    all_goals simp_all
  exact hall _ hmem

theorem scanEscape_short {n l : Nat} (h : shortEscapes.lookup n = some l) (rest : PyStr) :
    scanEscape (chr l :: rest) = .ok (chr n, rest) := by
  obtain ⟨hne, hu⟩ := shortUnescape_of_shortEscapes h
  simp only [scanEscape, if_neg hne, hu]

theorem scanChars_backslash {s rest : PyStr} {c : CodePoint} {n : Nat}
    (h : scanEscape s = .ok (c, rest)) :
    scanChars (n + 1) (backslash :: s) =
      (scanChars n rest).map fun p => (c :: p.1, p.2) := by
  have hne : backslash ≠ quote := by decide
  rw [scanChars, if_neg hne, if_pos rfl, h]
  simp only [Effect.ok_bind]
  cases scanChars n rest with
  | error e => rfl
  | ok p => rfl

theorem scanChars_plain {c : CodePoint} {rest : PyStr} {n : Nat} (hq : c ≠ quote)
    (hb : c ≠ backslash) (hc : ¬c.val < 0x20) :
    scanChars (n + 1) (c :: rest) = (scanChars n rest).map fun p => (c :: p.1, p.2) := by
  rw [scanChars, if_neg hq, if_neg hb, if_neg hc]
  cases scanChars n rest with
  | error e => rfl
  | ok p => rfl

/-- A character without a short escape is neither a quote nor a backslash. -/
theorem ne_of_not_shortEscapes {c : CodePoint} (h : shortEscapes.lookup c.val = none) :
    c ≠ quote ∧ c ≠ backslash := by
  constructor <;> (rintro rfl; revert h; decide)

/-! ### Surrogates -/

def isHighSurrogate (c : CodePoint) : Bool := 0xD800 ≤ c.val && c.val ≤ 0xDBFF

def isLowSurrogate (c : CodePoint) : Bool := 0xDC00 ≤ c.val && c.val ≤ 0xDFFF

/-- No high surrogate stands right before a low one. -/
def unpaired : PyStr → Bool
  | [] | [_] => true
  | c :: d :: s => !(isHighSurrogate c && isLowSurrogate d) && unpaired (d :: s)

/-- Whether a printed string reads back as itself. -/
def readableString (ascii : Bool) (s : PyStr) : Bool := !ascii || unpaired s

theorem unpaired_of_utf8Encodable {s : PyStr} (hs : utf8Encodable s = true) : unpaired s = true := by
  induction s with
  | nil => rfl
  | cons c s ih =>
    simp only [utf8Encodable, List.all_cons, Bool.and_eq_true, Bool.not_eq_true'] at hs
    have hc : isHighSurrogate c = false := by
      have := hs.1
      simp only [isSurrogate, isHighSurrogate, Bool.and_eq_false_iff, decide_eq_false_iff_not]
        at this ⊢
      omega
    cases s with
    | nil => rfl
    | cons d s => simp [unpaired, hc, ih hs.2]

theorem readableString_of_utf8Encodable {ascii : Bool} {s : PyStr} (hs : utf8Encodable s = true) :
    readableString ascii s = true := by
  rw [readableString, unpaired_of_utf8Encodable hs, Bool.or_true]

/-- A text that does not start with the escape of a low surrogate. -/
def NoLowEscape (rest : PyStr) : Prop :=
  ∀ digits, takeUnicodeEscape rest = some digits →
    ∃ m rest', takeHex digits = some (m, rest') ∧ ¬(0xDC00 ≤ m ∧ m ≤ 0xDFFF)

theorem noLowEscape_of_ne {c : CodePoint} {rest : PyStr} (hc : c ≠ backslash) :
    NoLowEscape (c :: rest) := by
  intro digits h
  cases rest with
  | nil => cases h
  | cons d rest => simp [takeUnicodeEscape, hc] at h

theorem noLowEscape_unicodeEscape {n : Nat} (hn : n < 0x10000) (hlow : ¬(0xDC00 ≤ n ∧ n ≤ 0xDFFF))
    (rest : PyStr) : NoLowEscape (unicodeEscape n ++ rest) := by
  intro digits h
  rw [takeUnicodeEscape_unicodeEscape] at h
  exact ⟨n, rest, Option.some.inj h ▸ takeHex_unicodeEscape hn rest, hlow⟩

/-- A high surrogate that no low one follows stands alone. -/
theorem joinSurrogates_lone {n : Nat} {rest : PyStr} (h : NoLowEscape rest) :
    joinSurrogates n rest = .ok (chr n, rest) := by
  unfold joinSurrogates
  split_ifs
  · cases hrest : takeUnicodeEscape rest with
    | none => rfl
    | some digits =>
      obtain ⟨m, rest', hhex, hlow⟩ := h digits hrest
      simp only [hhex, if_neg hlow]
  · rfl

/-- Only a low surrogate has the escape of one. -/
theorem noLowEscape_escapeChar {ascii : Bool} {c : CodePoint} (hc : isLowSurrogate c = false)
    (rest : PyStr) : NoLowEscape (escapeChar ascii c ++ rest) := by
  have hlt : c.val < 0x110000 := c.isLt
  simp only [isLowSurrogate, Bool.and_eq_false_iff, decide_eq_false_iff_not] at hc
  unfold escapeChar
  split
  · rename_i l hl
    intro digits h
    have hu : chr l ≠ chr 0x75 := fun e => (shortUnescape_of_shortEscapes hl).1 (e ▸ rfl)
    simp [takeUnicodeEscape, hu] at h
  · rename_i hl
    obtain ⟨-, hb⟩ := ne_of_not_shortEscapes hl
    split_ifs with hesc hbmp
    · exact noLowEscape_unicodeEscape hbmp (by omega) rest
    · rw [List.append_assoc]
      exact noLowEscape_unicodeEscape (by omega) (by omega) _
    · exact noLowEscape_of_ne hb

/-- The scanner takes one printed character in one round.  After a high surrogate
in ASCII mode the text must not go on with the escape of a low one. -/
theorem scanChars_escapeChar {ascii : Bool} {c : CodePoint} (n : Nat) {rest : PyStr}
    (hc : ascii = true → isHighSurrogate c = true → NoLowEscape rest) :
    scanChars (n + 1) (escapeChar ascii c ++ rest) =
      (scanChars n rest).map fun p => (c :: p.1, p.2) := by
  have hlt : c.val < 0x110000 := c.isLt
  have hchr : chr c.val = c := Fin.ext (chr_val hlt)
  unfold escapeChar
  split
  · rename_i l hl
    exact scanChars_backslash (hchr ▸ scanEscape_short hl rest)
  · rename_i hl
    obtain ⟨hq, hb⟩ := ne_of_not_shortEscapes hl
    split_ifs with hesc hbmp
    · -- one escape
      refine scanChars_backslash ((scanEscape_unicodeEscape hbmp rest).trans ?_)
      by_cases hhigh : isHighSurrogate c = true
      · have hascii : ascii = true := by
          simp only [isHighSurrogate, Bool.and_eq_true, decide_eq_true_eq] at hhigh
          simp only [Bool.or_eq_true, Bool.and_eq_true, decide_eq_true_eq] at hesc
          rcases hesc with hesc | hesc
          · omega
          · exact hesc.1
        rw [joinSurrogates_lone (hc hascii hhigh), hchr]
      · simp only [isHighSurrogate, Bool.and_eq_true, decide_eq_true_eq] at hhigh
        rw [joinSurrogates_of_not_high hhigh, hchr]
    · -- a pair of them
      rw [List.append_assoc]
      refine scanChars_backslash ((scanEscape_unicodeEscape (by omega) _).trans ?_)
      rw [joinSurrogates_low (by omega) (by omega)]
      refine congrArg (fun x => Except.ok (x, rest)) (Fin.ext ?_)
      rw [chr_val (by omega)]
      omega
    · simp only [Bool.or_eq_true, decide_eq_true_eq, not_or] at hesc
      exact scanChars_plain hq hb hesc.1

theorem scanChars_escapeString {ascii : Bool} {s : PyStr} (hs : readableString ascii s = true)
    (rest : PyStr) {n : Nat} (hn : s.length < n) :
    scanChars n (escapeString ascii s ++ quote :: rest) = .ok (s, rest) := by
  obtain ⟨n, rfl⟩ : ∃ m, n = m + 1 := ⟨n - 1, by omega⟩
  induction s generalizing n with
  | nil => exact if_pos rfl
  | cons c s ih =>
    obtain ⟨n, rfl⟩ : ∃ m, n = m + 1 := ⟨n - 1, by simp at hn; omega⟩
    -- what follows the character starts with the next one, or with the quote
    have hnext : ascii = true → isHighSurrogate c = true →
        NoLowEscape (escapeString ascii s ++ quote :: rest) := by
      intro hascii hhigh
      cases s with
      | nil => exact noLowEscape_of_ne (by decide)
      | cons d s =>
        rw [escapeString, List.flatMap_cons, List.append_assoc]
        simp only [readableString, hascii, unpaired, hhigh, Bool.not_true, Bool.false_or,
          Bool.true_and, Bool.and_eq_true, Bool.not_eq_true'] at hs
        exact noLowEscape_escapeChar hs.1 _
    have htail : readableString ascii s = true := by
      cases ascii with
      | false => rfl
      | true =>
        cases s with
        | nil => rfl
        | cons d s =>
          simp only [readableString, unpaired, Bool.not_true, Bool.false_or, Bool.and_eq_true]
            at hs ⊢
          exact hs.2
    have hrest := ih htail n (by simpa using hn)
    rw [escapeString, List.flatMap_cons, List.append_assoc]
    rw [escapeString] at hnext hrest
    rw [scanChars_escapeChar _ hnext, hrest]
    rfl

theorem length_escapeString (ascii : Bool) (s : PyStr) :
    s.length ≤ (escapeString ascii s).length := by
  induction s with
  | nil => exact Nat.le_refl _
  | cons c s ih =>
    have hpos : 1 ≤ (escapeChar ascii c).length := by
      unfold escapeChar
      split
      · exact Nat.succ_pos 1
      · split_ifs <;> simp [unicodeEscape]
    rw [escapeString] at ih
    rw [escapeString, List.flatMap_cons, List.length_append, List.length_cons]
    omega

/-- A printed string, without its opening quote, reads back as itself. -/
theorem scanString_renderString {ascii : Bool} {s : PyStr} (hs : readableString ascii s = true)
    (rest : PyStr) : scanString (escapeString ascii s ++ quote :: rest) = .ok (s, rest) := by
  have hlen := length_escapeString ascii s
  refine scanChars_escapeString hs rest ?_
  rw [List.length_append, List.length_cons]
  omega

end EdgeFort.Json
