/-
Numbers in JSON text: how `json` prints an integer, and how its scanner splits a
number literal into its parts.

The scanner is greedy.  A literal therefore reads back as itself when what
follows it could not extend it, which is what `numberEnds` says of the rest.
-/
import EdgeFort.Python.Value
import Mathlib.Data.Nat.Digits.Lemmas

namespace EdgeFort

theorem chr_val {n : Nat} (h : n < 0x110000) : (chr n).val = n := Nat.mod_eq_of_lt h

namespace Json

/-! ## Digits -/

def isDigit (c : CodePoint) : Bool := 0x30 ≤ c.val && c.val ≤ 0x39

def digit (d : Nat) : CodePoint := chr (0x30 + d)

def digitValue (c : CodePoint) : Nat := c.val - 0x30

theorem digit_val {d : Nat} (h : d < 10) : (digit d).val = 0x30 + d := chr_val (by omega)

theorem isDigit_digit {d : Nat} (h : d < 10) : isDigit (digit d) = true := by
  have hv := digit_val h
  simp only [isDigit, Bool.and_eq_true, decide_eq_true_eq]
  omega

theorem digitValue_digit {d : Nat} (h : d < 10) : digitValue (digit d) = d := by
  rw [digitValue, digit_val h]
  omega

/-- `str(n)` -/
def decimal (n : Nat) : PyStr :=
  if n = 0 then [digit 0] else ((Nat.digits 10 n).map digit).reverse

/-- `int(s)`, for a string of digits. -/
def decimalValue (s : PyStr) : Nat := Nat.ofDigits 10 (s.reverse.map digitValue)

theorem decimalValue_decimal (n : Nat) : decimalValue (decimal n) = n := by
  by_cases h : n = 0
  · subst h
    rfl
  · have hmap : (Nat.digits 10 n).map (digitValue ∘ digit) = Nat.digits 10 n := by
      refine (List.map_congr_left fun d hd => ?_).trans (List.map_id _)
      exact digitValue_digit (Nat.digits_lt_base (by omega) hd)
    rw [decimal, if_neg h, decimalValue, List.reverse_reverse, List.map_map, hmap,
      Nat.ofDigits_digits]

theorem isDigit_of_mem_decimal {n : Nat} {c : CodePoint} (h : c ∈ decimal n) :
    isDigit c = true := by
  rw [decimal] at h
  split_ifs at h with hn
  · rw [List.mem_singleton.mp h]
    exact isDigit_digit (by omega)
  · obtain ⟨d, hd, rfl⟩ := List.mem_map.mp (List.mem_reverse.mp h)
    exact isDigit_digit (Nat.digits_lt_base (by omega) hd)

/-- A number other than zero is printed without a leading zero. -/
theorem decimal_cons {n : Nat} (h : n ≠ 0) :
    ∃ c ds, decimal n = c :: ds ∧ c ≠ digit 0 := by
  have hnil : Nat.digits 10 n ≠ [] := Nat.digits_ne_nil_iff_ne_zero.mpr h
  have hne : (Nat.digits 10 n).reverse ≠ [] := fun e => hnil (List.reverse_eq_nil_iff.mp e)
  obtain ⟨d, ds, hd⟩ := List.exists_cons_of_ne_nil hne
  have hmem : d ∈ Nat.digits 10 n := List.mem_reverse.mp (hd ▸ List.mem_cons_self)
  have hlast : d ≠ 0 := by
    have hhead : (Nat.digits 10 n).getLast hnil = d := by
      rw [← List.head_reverse hne]
      simp only [hd, List.head_cons]
    exact hhead ▸ Nat.getLast_digit_ne_zero 10 h
  refine ⟨digit d, ds.map digit, ?_, ?_⟩
  · rw [decimal, if_neg h, ← List.map_reverse, hd, List.map_cons]
  · intro he
    have hlt : d < 10 := Nat.digits_lt_base (by omega) hmem
    have := congrArg Fin.val he
    rw [digit_val hlt, digit_val (by omega)] at this
    omega

/-- `int.__repr__` -/
def intRepr (i : Int) : PyStr :=
  if i < 0 then chr 0x2D :: decimal i.natAbs else decimal i.natAbs

/-- The digits `int` reads and prints at most. -/
def maxStrDigits : Nat := 4300

/-! ## Literals -/

/-- The parts of a number literal as they stand in the text. -/
structure Literal where
  sign : PyStr
  whole : PyStr
  fraction : PyStr
  exponent : PyStr
  deriving DecidableEq, Repr

namespace Literal

def text (l : Literal) : PyStr := l.sign ++ l.whole ++ l.fraction ++ l.exponent

def isFloat (l : Literal) : Bool := !l.fraction.isEmpty || !l.exponent.isEmpty

end Literal

/-- `e` or `E` -/
def isExponentMark (c : CodePoint) : Bool := c.val = 0x65 || c.val = 0x45

/-- `+` or `-` -/
def isSign (c : CodePoint) : Bool := c.val = 0x2B || c.val = 0x2D

def takeMinus : PyStr → PyStr × PyStr
  | [] => ([], [])
  | c :: rest => if c.val = 0x2D then ([c], rest) else ([], c :: rest)

def takeWhole : PyStr → Option (PyStr × PyStr)
  | [] => none
  | c :: rest =>
    if c.val = 0x30 then some ([c], rest)
    else if isDigit c then some (c :: rest.takeWhile isDigit, rest.dropWhile isDigit)
    else none

def takeFraction : PyStr → PyStr × PyStr
  | c :: d :: rest =>
    if c.val = 0x2E && isDigit d then
      (c :: d :: rest.takeWhile isDigit, rest.dropWhile isDigit)
    else ([], c :: d :: rest)
  | rest => ([], rest)

def takeSign : PyStr → PyStr × PyStr
  | [] => ([], [])
  | c :: rest => if isSign c then ([c], rest) else ([], c :: rest)

/-- The exponent, or nothing where a mark is not followed by a digit. -/
def takeExponent : PyStr → PyStr × PyStr
  | [] => ([], [])
  | c :: rest =>
    if isExponentMark c && ((takeSign rest).2.head?.any isDigit) then
      (c :: (takeSign rest).1 ++ (takeSign rest).2.takeWhile isDigit,
        (takeSign rest).2.dropWhile isDigit)
    else ([], c :: rest)

/-- `_match_number_unicode`, up to the conversion of the text it has matched. -/
def scanLiteral (s : PyStr) : Option (Literal × PyStr) :=
  match takeWhole (takeMinus s).2 with
  | none => none
  | some (whole, rest) =>
    let fraction := takeFraction rest
    let exponent := takeExponent fraction.2
    some (⟨(takeMinus s).1, whole, fraction.1, exponent.1⟩, exponent.2)

/-! ## A literal reads back as itself -/

/-- What follows a number and cannot extend it. -/
def numberEnds : PyStr → Bool
  | [] => true
  | c :: _ => !(isDigit c || c.val = 0x2E || isExponentMark c)

/-- The grammar of number literals. -/
structure Literal.WellFormed (l : Literal) : Prop where
  sign : l.sign = [] ∨ l.sign = [chr 0x2D]
  whole : l.whole = [digit 0] ∨
    ∃ c ds, l.whole = c :: ds ∧ c ≠ digit 0 ∧ ∀ d ∈ c :: ds, isDigit d = true
  fraction : l.fraction = [] ∨
    ∃ d ds, l.fraction = chr 0x2E :: d :: ds ∧ ∀ e ∈ d :: ds, isDigit e = true
  exponent : l.exponent = [] ∨
    ∃ c sign d ds, l.exponent = c :: (sign ++ d :: ds) ∧ isExponentMark c = true ∧
      (sign = [] ∨ ∃ s, sign = [s] ∧ isSign s = true) ∧ ∀ e ∈ d :: ds, isDigit e = true

theorem takeWhile_digits {ds rest : PyStr} (hds : ∀ d ∈ ds, isDigit d = true)
    (hrest : rest.head?.any isDigit = false) :
    (ds ++ rest).takeWhile isDigit = ds ∧ (ds ++ rest).dropWhile isDigit = rest := by
  have hnil : rest.takeWhile isDigit = [] ∧ rest.dropWhile isDigit = rest := by
    cases rest with
    | nil => exact ⟨rfl, rfl⟩
    | cons c rest =>
      have hc : isDigit c = false := hrest
      simp [hc]
  rw [List.takeWhile_append_of_pos hds, List.dropWhile_append_of_pos hds, hnil.1, hnil.2]
  exact ⟨List.append_nil ds, rfl⟩

theorem numberEnds_head {rest : PyStr} (h : numberEnds rest = true) :
    rest.head?.any isDigit = false ∧ rest.head?.any (fun c => c.val = 0x2E) = false ∧
      rest.head?.any isExponentMark = false := by
  cases rest with
  | nil => exact ⟨rfl, rfl, rfl⟩
  | cons c rest =>
    simp only [numberEnds, Bool.not_eq_true', Bool.or_eq_false_iff] at h
    exact ⟨h.1.1, h.1.2, h.2⟩

theorem isDigit_val {c : CodePoint} (h : isDigit c = true) : 0x30 ≤ c.val ∧ c.val ≤ 0x39 := by
  simpa only [isDigit, Bool.and_eq_true, decide_eq_true_eq] using h

theorem takeMinus_minus (rest : PyStr) : takeMinus (chr 0x2D :: rest) = ([chr 0x2D], rest) := rfl

theorem takeMinus_other {c : CodePoint} {rest : PyStr} (h : c.val ≠ 0x2D) :
    takeMinus (c :: rest) = ([], c :: rest) := if_neg h

theorem takeFraction_none {rest : PyStr} (h : rest.head?.any (fun c => c.val = 0x2E) = false) :
    takeFraction rest = ([], rest) := by
  unfold takeFraction
  split
  · rename_i c d rest
    have hc : ¬c.val = 0x2E := by simpa using h
    simp [hc]
  · rfl

theorem takeExponent_none {rest : PyStr} (h : rest.head?.any isExponentMark = false) :
    takeExponent rest = ([], rest) := by
  cases rest with
  | nil => rfl
  | cons c rest =>
    have hc : isExponentMark c = false := h
    simp [takeExponent, hc]

namespace Literal.WellFormed

variable {l : Literal} {rest : PyStr}

/-- The whole part starts with a digit. -/
theorem whole_cons (h : l.WellFormed) : ∃ c ds, l.whole = c :: ds ∧ isDigit c = true := by
  rcases h.whole with hz | ⟨c, ds, hl, -, hd⟩
  · exact ⟨digit 0, [], hz, rfl⟩
  · exact ⟨c, ds, hl, hd c List.mem_cons_self⟩

theorem takeMinus_text (h : l.WellFormed) (s : PyStr) :
    takeMinus (l.sign ++ (l.whole ++ s)) = (l.sign, l.whole ++ s) := by
  rcases h.sign with hs | hs
  · obtain ⟨c, ds, hl, hc⟩ := h.whole_cons
    have := isDigit_val hc
    rw [hs, hl]
    exact takeMinus_other (by omega)
  · rw [hs]
    exact takeMinus_minus _

theorem takeWhole_text (h : l.WellFormed) {s : PyStr} (hs : s.head?.any isDigit = false) :
    takeWhole (l.whole ++ s) = some (l.whole, s) := by
  rcases h.whole with hz | ⟨c, ds, hl, hc, hd⟩
  · rw [hz]
    rfl
  · have hne : ¬c.val = 0x30 := fun e => hc (Fin.ext e)
    obtain ⟨ht, hr⟩ := takeWhile_digits (fun d hmem => hd d (List.mem_cons_of_mem _ hmem)) hs
    rw [hl, List.cons_append, takeWhole, if_neg hne, if_pos (hd c List.mem_cons_self), ht, hr]

theorem takeFraction_text (h : l.WellFormed) {s : PyStr} (hs : s.head?.any isDigit = false)
    (hdot : s.head?.any (fun c => c.val = 0x2E) = false) :
    takeFraction (l.fraction ++ s) = (l.fraction, s) := by
  rcases h.fraction with hf | ⟨d, ds, hf, hd⟩
  · rw [hf]
    exact takeFraction_none hdot
  · obtain ⟨ht, hr⟩ := takeWhile_digits (fun e hmem => hd e (List.mem_cons_of_mem _ hmem)) hs
    have hc : (chr 0x2E).val = 0x2E := rfl
    simp only [hf, List.cons_append, takeFraction, hc, hd d List.mem_cons_self, decide_true,
      Bool.and_self, if_true, ht, hr]

theorem takeExponent_text (h : l.WellFormed) {s : PyStr} (hs : s.head?.any isDigit = false)
    (hmark : s.head?.any isExponentMark = false) :
    takeExponent (l.exponent ++ s) = (l.exponent, s) := by
  rcases h.exponent with he | ⟨c, sign, d, ds, he, hc, hsign, hd⟩
  · rw [he]
    exact takeExponent_none hmark
  · have htake : takeSign (sign ++ (d :: ds ++ s)) = (sign, d :: ds ++ s) := by
      rcases hsign with rfl | ⟨c', rfl, hc'⟩
      · have hdig := isDigit_val (hd d List.mem_cons_self)
        have hnot : isSign d = false := by
          simp only [isSign, Bool.or_eq_false_iff, decide_eq_false_iff_not]
          omega
        simp [takeSign, hnot]
      · simp [takeSign, hc']
    obtain ⟨ht, hr⟩ := takeWhile_digits hd hs
    have hhead : (d :: ds ++ s).head?.any isDigit = true := hd d List.mem_cons_self
    simp only [he, List.cons_append, List.append_assoc] at htake ⊢
    simp only [takeExponent, htake, hc, Bool.true_and]
    rw [← List.cons_append, hhead, if_pos rfl, ht, hr]
    simp

end Literal.WellFormed

/-- A literal of the grammar is scanned whole, up to a text that cannot extend it. -/
theorem scanLiteral_text {l : Literal} (h : l.WellFormed) {rest : PyStr}
    (hrest : numberEnds rest = true) : scanLiteral (l.text ++ rest) = some (l, rest) := by
  obtain ⟨hdigit, hdot, hmark⟩ := numberEnds_head hrest
  have hexp : (l.exponent ++ rest).head?.any isDigit = false ∧
      (l.exponent ++ rest).head?.any (fun c => c.val = 0x2E) = false := by
    rcases h.exponent with he | ⟨c, sign, d, ds, he, hc, -⟩
    · rw [he]
      exact ⟨hdigit, hdot⟩
    · rw [he]
      simp only [isExponentMark, Bool.or_eq_true, decide_eq_true_eq] at hc
      simp only [List.cons_append, List.head?_cons, Option.any_some, isDigit,
        Bool.and_eq_false_iff, decide_eq_false_iff_not]
      omega
  have hfrac : (l.fraction ++ (l.exponent ++ rest)).head?.any isDigit = false := by
    rcases h.fraction with hf | ⟨d, ds, hf, -⟩
    · rw [hf]
      exact hexp.1
    · rw [hf]
      rfl
  have hshape : l.text ++ rest =
      l.sign ++ (l.whole ++ (l.fraction ++ (l.exponent ++ rest))) := by
    simp only [Literal.text, List.append_assoc]
  simp only [scanLiteral, hshape, h.takeMinus_text, h.takeWhole_text hfrac,
    h.takeFraction_text hexp.1 hexp.2, h.takeExponent_text hdigit hmark]

/-- A literal starts with a digit or a minus sign. -/
theorem Literal.WellFormed.text_cons {l : Literal} (h : l.WellFormed) :
    ∃ c t, l.text = c :: t ∧ (isDigit c = true ∨ c.val = 0x2D) := by
  obtain ⟨c, ds, hl, hc⟩ := h.whole_cons
  rcases h.sign with hs | hs
  · exact ⟨c, ds ++ l.fraction ++ l.exponent, by simp [Literal.text, hs, hl], Or.inl hc⟩
  · exact ⟨chr 0x2D, l.whole ++ l.fraction ++ l.exponent, by simp [Literal.text, hs], Or.inr rfl⟩

/-! ## Integers -/

/-- The literal of an integer. -/
def intLiteral (i : Int) : Literal :=
  ⟨if i < 0 then [chr 0x2D] else [], decimal i.natAbs, [], []⟩

theorem intLiteral_text (i : Int) : (intLiteral i).text = intRepr i := by
  by_cases h : i < 0 <;> simp [intLiteral, Literal.text, intRepr, h]

theorem intLiteral_wellFormed (i : Int) : (intLiteral i).WellFormed where
  sign := by
    by_cases h : i < 0
    · exact Or.inr (if_pos h)
    · exact Or.inl (if_neg h)
  whole := by
    by_cases h : i.natAbs = 0
    · exact Or.inl (if_pos h)
    · obtain ⟨c, ds, hd, hc⟩ := decimal_cons h
      exact Or.inr ⟨c, ds, hd, hc, fun d hmem =>
        isDigit_of_mem_decimal (n := i.natAbs) (hd ▸ hmem)⟩
  fraction := Or.inl rfl
  exponent := Or.inl rfl

/-- `int` of an integer literal. -/
def Literal.intValue (l : Literal) : Int :=
  if l.sign.isEmpty then decimalValue l.whole else -decimalValue l.whole

theorem intValue_intLiteral (i : Int) : (intLiteral i).intValue = i := by
  have hv : decimalValue (intLiteral i).whole = i.natAbs := decimalValue_decimal _
  by_cases h : i < 0
  · have hs : (intLiteral i).sign.isEmpty = false := by simp [intLiteral, h]
    rw [Literal.intValue, hs, hv]
    simp only [Bool.false_eq_true, if_false]
    omega
  · have hs : (intLiteral i).sign.isEmpty = true := by simp [intLiteral, h]
    rw [Literal.intValue, hs, hv]
    simp only [if_true]
    omega

end Json

end EdgeFort
