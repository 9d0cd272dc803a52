/-
Values of a running program, as `json.dumps` writes them.

The keys of a dict need not be strings.  `sort_keys` puts the items in the order of
the keys themselves, and each key is turned into a string afterwards, so the strings
need not be in order.
-/
import EdgeFort.Json.Characters

namespace EdgeFort

open Effect

/-- A key of a dict.  `foreign` is one of a type that `json` does not write. -/
inductive PyKey where
  | null
  | bool (b : Bool)
  | int (i : Int)
  | float (x : PyFloat)
  | str (s : PyStr)
  | foreign (typeName : PyStr)
  deriving DecidableEq, Repr

/-- A value.  `list` is a list or a tuple, which are written the same way. -/
inductive PyObject where
  | null
  | bool (b : Bool)
  | int (i : Int)
  | float (x : PyFloat)
  | str (s : PyStr)
  | list (items : List PyObject)
  | dict (items : List (PyKey × PyObject))
  | foreign (typeName : PyStr)
  deriving Repr

namespace PyKey

/-- The number a key counts as in a comparison. -/
def num? : PyKey → Option PyNum
  | bool b => some (.int (if b then 1 else 0))
  | int i => some (.int i)
  | float x => some (.float x)
  | _ => none

/-- `a == b`.  Two foreign keys of one dict differ. -/
def pyEq (a b : PyKey) : Bool :=
  match a, b with
  | null, null => true
  | str s, str t => s = t
  | a, b =>
    match a.num?, b.num? with
    | some x, some y => x.eq y
    | _, _ => false

/-- `a <= b`, of two strings or two numbers. -/
def le (a b : PyKey) : Bool :=
  match a, b with
  | str s, str t => s ≤ t
  | a, b =>
    match a.num?, b.num? with
    | some x, some y => x.le y
    | _, _ => false

def isStr : PyKey → Bool
  | str _ => true
  | _ => false

variable (I : Interpreter)

/-- The string that is written for a key. -/
def text : PyKey → Except PyError PyStr
  | null => .ok "null"
  | bool true => .ok "true"
  | bool false => .ok "false"
  | int i =>
    if Json.maxStrDigits < (Json.decimal i.natAbs).length then
      .error (raise .valueError "Exceeds the limit (4300 digits) for integer string conversion")
    else .ok (Json.intRepr i)
  | float x =>
    if x.isFinite64 then .ok (I.reprFloat x)
    else .error (raise .valueError "Out of range float values are not JSON compliant")
  | str s => .ok s
  | foreign typeName =>
    .error (raise .typeError (py "keys must be str, int, " ++ py "float, bool or None, not " ++
      typeName))

end PyKey

namespace PyObject

/-- `sorted(d.items())`.  Keys of different types are not compared. -/
def sortItems {β : Type} (items : List (PyKey × β)) : Except PyError (List (PyKey × β)) :=
  let keys := items.map Prod.fst
  if items.length ≤ 1 then .ok items
  else if keys.all PyKey.isStr || keys.all (fun k => k.num?.isSome) then
    .ok (items.insertionSort fun f g => f.1.le g.1 = true)
  else .error (raise .typeError "'<' not supported between instances of two types")

variable (I : Interpreter)

/-- What `default` of the encoder raises: the call takes a level of recursion, and making the
exception another. -/
def defaultError (room : Nat) (typeName : PyStr) : PyError :=
  match room with
  | 0 => raise .recursionError "maximum recursion depth exceeded"
  | 1 => raise .recursionError (py "maximum recursion depth exceeded while " ++
      py "calling a Python object")
  | _ => raise .typeError (py "Object of type " ++ typeName ++ py " is not JSON " ++
      py "serializable")

/-- The items of a dict in the order they are written: the key of each, then its value. -/
def writeItems : List (PyKey × Except PyError Json) → Except PyError (List (PyStr × Json))
  | [] => .ok []
  | (key, value) :: items => do
    let name ← key.text I
    let x ← value
    let fields ← writeItems items
    return (name, x) :: fields

mutual
/-- What `json.dumps(..., sort_keys=True, allow_nan=False)` writes, with `n` levels of
recursion left: one for each container inside another, and one to sort two items or more. -/
def written : Nat → PyObject → Except PyError Json
  | _, null => .ok .null
  | _, bool b => .ok (.bool b)
  | _, int i =>
    if Json.maxStrDigits < (Json.decimal i.natAbs).length then
      .error (raise .valueError "Exceeds the limit (4300 digits) for integer string conversion")
    else .ok (.int i)
  | _, float x =>
    if x.isFinite64 then .ok (.float x)
    else .error (raise .valueError "Out of range float values are not JSON compliant")
  | _, str s => .ok (.str s)
  | 0, list _ | 0, dict _ =>
    .error (raise .recursionError
      "maximum recursion depth exceeded while encoding a JSON object")
  | n + 1, list items => do
    let xs ← writtenItems n items
    return .arr xs
  | n + 1, dict items => do
    raiseIf (Json.sorts n items.length = false) Json.comparisonError
    let sorted ← sortItems (writtenFields n items)
    let fields ← writeItems I sorted
    return .obj fields
  | n, foreign typeName => .error (defaultError n typeName)

def writtenItems : Nat → List PyObject → Except PyError (List Json)
  | _, [] => .ok []
  | n, v :: items => do
    let x ← written n v
    let xs ← writtenItems n items
    return x :: xs

def writtenFields : Nat → List (PyKey × PyObject) → List (PyKey × Except PyError Json)
  | _, [] => []
  | n, (key, v) :: items => (key, written n v) :: writtenFields n items
end

/-- `canonical_json_bytes` (`util.py`) -/
def canonicalBytes (v : PyObject) : Except PyError Bytes := do
  let w ← written I I.dumpsNesting v
  utf8Encode (Json.render I false w)

mutual
/-- No dict has two keys that are equal. -/
def distinct : PyObject → Bool
  | list items => distinctItems items
  | dict items => (items.map Prod.fst).Pairwise (fun a b => a.pyEq b = false) &&
      distinctFields items
  | _ => true

def distinctItems : List PyObject → Bool
  | [] => true
  | v :: items => v.distinct && distinctItems items

def distinctFields : List (PyKey × PyObject) → Bool
  | [] => true
  | (_, v) :: items => v.distinct && distinctFields items
end

variable (I : Interpreter)

/-- The string of a key that has one. -/
def name (k : PyKey) : PyStr :=
  match k.text I with
  | .ok s => s
  | .error _ => []

mutual
/-- Where the keys of a dict are in order, so are their strings. -/
def keysInOrder : PyObject → Bool
  | list items => keysInOrderItems items
  | dict items =>
    (match sortItems items with
      | .ok sorted => (sorted.map fun f => name I f.1).Pairwise (· ≤ ·)
      | .error _ => true) && keysInOrderFields items
  | _ => true

def keysInOrderItems : List PyObject → Bool
  | [] => true
  | v :: items => v.keysInOrder && keysInOrderItems items

def keysInOrderFields : List (PyKey × PyObject) → Bool
  | [] => true
  | (_, v) :: items => v.keysInOrder && keysInOrderFields items
end

/-! ## Copies -/

mutual
/-- How many calls `dataclasses.asdict` makes one inside the other to copy a value: two
for a container, and three for `copy.deepcopy` of any other value. -/
def copyDepth : PyObject → Nat
  | list items => copyDepthItems items + 2
  | dict items => copyDepthFields items + 2
  | _ => 3

def copyDepthItems : List PyObject → Nat
  | [] => 0
  | v :: items => max v.copyDepth (copyDepthItems items)

/-- Keys are copied as well. -/
def copyDepthFields : List (PyKey × PyObject) → Nat
  | [] => 0
  | (_, v) :: items => max (max 3 v.copyDepth) (copyDepthFields items)
end

end PyObject

variable {I : Interpreter}

/-! ## The strings of keys -/

namespace PyKey

open Json

/-- The string of a number is `true`, `false` or a literal. -/
theorem text_number {k : PyKey} {x : PyNum} {s : PyStr} (hk : k.num? = some x)
    (hs : k.text I = .ok s) :
    (∃ b, k = bool b ∧ s = if b then py "true" else py "false") ∨
      ∃ l : Literal, l.WellFormed ∧ s = l.text ∧
        ((∃ i, k = int i ∧ l = intLiteral i) ∨
          ∃ y : PyFloat, k = float y ∧ y.isFinite64 = true ∧ l.isFloat = true ∧
            s = I.reprFloat y) := by
  cases k with
  | bool b =>
    left
    cases b <;> exact ⟨_, rfl, (Except.ok.inj hs).symm⟩
  | int i =>
    right
    simp only [text] at hs
    split_ifs at hs
    exact ⟨intLiteral i, intLiteral_wellFormed i,
      (Except.ok.inj hs).symm.trans (intLiteral_text i).symm, Or.inl ⟨i, rfl, rfl⟩⟩
  | float y =>
    right
    simp only [text] at hs
    split_ifs at hs with hy
    obtain ⟨l, hl, hfloat, htext⟩ := I.repr_literal y hy
    have hs' := (Except.ok.inj hs).symm
    exact ⟨l, hl, hs'.trans htext, Or.inr ⟨y, rfl, hy, hfloat, hs'⟩⟩
  | null | str | foreign => cases hk

theorem text_ne_word {l : Literal} (hl : l.WellFormed) (b : Bool) :
    l.text ≠ if b then py "true" else py "false" := by
  obtain ⟨c, t, ht, hc⟩ := hl.text_cons
  rw [ht]
  intro h
  have hhead : c = chr 0x74 ∨ c = chr 0x66 := by
    cases b
    · exact Or.inr (List.cons.inj h).1
    · exact Or.inl (List.cons.inj h).1
  rcases hhead with rfl | rfl <;> rcases hc with hc | hc <;> cases hc

theorem literal_of_text {l m : Literal} (hl : l.WellFormed) (hm : m.WellFormed)
    (h : l.text = m.text) : l = m := by
  have h₁ : scanLiteral (l.text ++ []) = some (l, []) := scanLiteral_text hl rfl
  have h₂ : scanLiteral (m.text ++ []) = some (m, []) := scanLiteral_text hm rfl
  rw [h, h₂] at h₁
  exact (Prod.mk.inj (Option.some.inj h₁)).1.symm

/-- Two strings, or two numbers, that are written the same way are equal. -/
theorem pyEq_of_text (hI : I.PrintsApart) {a b : PyKey} {s : PyStr}
    (hab : a.isStr = true ∧ b.isStr = true ∨ a.num?.isSome = true ∧ b.num?.isSome = true)
    (ha : a.text I = .ok s) (hb : b.text I = .ok s) : a.pyEq b = true := by
  rcases hab with ⟨ha', hb'⟩ | ⟨ha', hb'⟩
  · cases a <;> cases ha'
    cases b <;> cases hb'
    cases ha
    cases hb
    simp [pyEq]
  · obtain ⟨x, hx⟩ := Option.isSome_iff_exists.mp ha'
    obtain ⟨y, hy⟩ := Option.isSome_iff_exists.mp hb'
    rcases text_number hx ha with ⟨c, rfl, hc⟩ | ⟨l, hl, hls, hl'⟩ <;>
      rcases text_number hy hb with ⟨d, rfl, hd⟩ | ⟨m, hm, hms, hm'⟩
    · have hcd : c = d := by
        rw [hc] at hd
        revert hd
        cases c <;> cases d <;> decide
      subst hcd
      simp [pyEq, num?, PyNum.eq]
    · exact absurd (hms.symm.trans hc) (text_ne_word hm c)
    · exact absurd (hls.symm.trans hd) (text_ne_word hl d)
    · have hlm := literal_of_text hl hm (hls.symm.trans hms)
      subst hlm
      rcases hl' with ⟨i, rfl, hi⟩ | ⟨u, rfl, hu, hfloat, hus⟩ <;>
        rcases hm' with ⟨j, rfl, hj⟩ | ⟨v, rfl, hv, hfloat', hvs⟩
      · have hij : i = j := by
          have h := congrArg Literal.intValue (hi.symm.trans hj)
          rwa [intValue_intLiteral, intValue_intLiteral] at h
        simp [pyEq, num?, PyNum.eq, hij]
      · rw [hi] at hfloat'
        cases hfloat'
      · rw [hj] at hfloat
        cases hfloat
      · have huv : u = v := hI u v hu hv (hus.symm.trans hvs)
        subst huv
        have hnan : PyNum.float u ≠ .float .nan := by
          rintro ⟨⟩
          cases hu
        exact PyNum.eq_refl hnan

end PyKey

end EdgeFort
