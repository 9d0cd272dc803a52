/-
JSON text as `json.dumps` prints it and `json.loads` reads it.

Printing is compact and with sorted keys, the form every text of the program
has.  Reading refuses what its two hooks refuse: a key twice in one object, and
the constants `NaN`, `Infinity` and `-Infinity`.
-/
import EdgeFort.Json.Escape
import Mathlib.Data.List.Sort
import Mathlib.Data.List.Lex

namespace EdgeFort

/-- What `json` takes from the interpreter: the text of a float, the float a
literal reads as, and how many levels of recursion are left, at the least, wherever the
program writes and wherever it reads.  Calls of C and of Python take levels alike, as in
CPython 3.11.  A finite float is printed as a literal with a fraction or an exponent, a
literal reads as a finite float or an infinity, and there is room for the few levels of the
program's own documents. -/
structure Interpreter where
  reprFloat : PyFloat → PyStr
  readFloat : PyStr → PyFloat
  dumpsNesting : Nat
  loadsNesting : Nat
  repr_literal : ∀ x : PyFloat, x.isFinite64 = true →
    ∃ l : Json.Literal, l.WellFormed ∧ l.isFloat = true ∧ reprFloat x = l.text
  readFloat_float : ∀ s, (readFloat s).isFinite64 = true ∨ ∃ negative, readFloat s = .inf negative
  dumpsNesting_ge : 4 ≤ dumpsNesting
  loadsNesting_ge : 4 ≤ loadsNesting

theorem Interpreter.readFloat_ne_nan (I : Interpreter) (s : PyStr) : I.readFloat s ≠ .nan := by
  intro h
  rcases I.readFloat_float s with hs | ⟨negative, hs⟩ <;> rw [h] at hs <;> cases hs

/-- What a caller of `json.loads` raises from `object_pairs_hook` and
`parse_constant`, and what the second does when no level of recursion is left to raise it. -/
structure Hooks where
  duplicateKey : PyStr → PyError
  constant : PyStr → PyError
  duringConstant : PyStr

namespace Json

def comma : CodePoint := chr 0x2C
def colon : CodePoint := chr 0x3A
def openBracket : CodePoint := chr 0x5B
def closeBracket : CodePoint := chr 0x5D
def openBrace : CodePoint := chr 0x7B
def closeBrace : CodePoint := chr 0x7D

/-! ## Printing -/

/-- The order of `sort_keys`: code point by code point. -/
def keyLE (f g : PyStr × Json) : Prop := f.1 ≤ g.1

instance : DecidableRel keyLE := fun f g => inferInstanceAs (Decidable (f.1 ≤ g.1))

mutual
/-- The value with the items of each object in the order they are printed. -/
def sortKeys : Json → Json
  | arr xs => arr (sortItems xs)
  | obj fields => obj ((sortFields fields).insertionSort keyLE)
  | v => v

def sortItems : List Json → List Json
  | [] => []
  | x :: xs => x.sortKeys :: sortItems xs

def sortFields : List (PyStr × Json) → List (PyStr × Json)
  | [] => []
  | (k, x) :: fields => (k, x.sortKeys) :: sortFields fields
end

/-- Two items or more are sorted by comparing keys, which takes a level of recursion. -/
def sorts (room count : Nat) : Bool := 1 ≤ room || count ≤ 1

def comparisonError : PyError :=
  raise .recursionError "maximum recursion depth exceeded in comparison"

mutual
/-- Why a value cannot be printed, by its first part that cannot. -/
def refusal : Nat → Json → Option PyError
  | _, float x =>
    if x.isFinite64 then none
    else some (raise .valueError "Out of range float values are not JSON compliant")
  | _, int i =>
    if maxStrDigits < (decimal i.natAbs).length then
      some (raise .valueError "Exceeds the limit (4300 digits) for integer string conversion")
    else none
  | 0, arr _ | 0, obj _ =>
    some (raise .recursionError "maximum recursion depth exceeded while encoding a JSON object")
  | n + 1, arr xs => refusalItems n xs
  | n + 1, obj fields =>
    if sorts n fields.length then refusalFields n fields else some comparisonError
  | _, _ => none

def refusalItems : Nat → List Json → Option PyError
  | _, [] => none
  | n, x :: xs => (x.refusal n).or (refusalItems n xs)

def refusalFields : Nat → List (PyStr × Json) → Option PyError
  | _, [] => none
  | n, (_, x) :: fields => (x.refusal n).or (refusalFields n fields)
end

variable (I : Interpreter) (H : Hooks)

mutual
/-- The text of a value, its items in the order they stand. -/
def render (ascii : Bool) : Json → PyStr
  | null => "null"
  | bool true => "true"
  | bool false => "false"
  | int i => intRepr i
  | float x => I.reprFloat x
  | str s => renderString ascii s
  | arr [] => [openBracket, closeBracket]
  | arr (x :: xs) => openBracket :: (render ascii x ++ renderItems ascii xs)
  | obj [] => [openBrace, closeBrace]
  | obj ((k, x) :: fields) =>
    openBrace :: (renderString ascii k ++ colon :: (render ascii x ++ renderFields ascii fields))

/-- The items of an array after the first, and its end. -/
def renderItems (ascii : Bool) : List Json → PyStr
  | [] => [closeBracket]
  | x :: xs => comma :: (render ascii x ++ renderItems ascii xs)

def renderFields (ascii : Bool) : List (PyStr × Json) → PyStr
  | [] => [closeBrace]
  | (k, x) :: fields =>
    comma :: (renderString ascii k ++ colon :: (render ascii x ++ renderFields ascii fields))
end

/-- `json.dumps(value, sort_keys=True, separators=(",", ":"), allow_nan=False)` -/
def dumps (ascii : Bool) (value : Json) : Except PyError PyStr :=
  match value.sortKeys.refusal I.dumpsNesting with
  | some e => .error e
  | none => .ok (render I ascii value.sortKeys)

/-! ## Scanning -/

/-- `[ \t\n\r]` -/
def isSpace (c : CodePoint) : Bool :=
  c.val = 0x20 || c.val = 0x09 || c.val = 0x0A || c.val = 0x0D

def skipSpace (s : PyStr) : PyStr := s.dropWhile isSpace

/-- `null`, `true` or `false`. -/
def scanConstant (s : PyStr) : Option (Json × PyStr) :=
  ((s.dropPrefix? (py "null")).map fun rest => (null, rest)).or <|
    ((s.dropPrefix? (py "true")).map fun rest => (bool true, rest)).or <|
      (s.dropPrefix? (py "false")).map fun rest => (bool false, rest)

/-- The name of a constant outside JSON. -/
def scanNonFinite (s : PyStr) : Option PyStr :=
  [py "NaN", py "Infinity", py "-Infinity"].find? fun name => (s.dropPrefix? name).isSome

/-- A number, or nothing. -/
def scanNumber (s : PyStr) : Except PyError (Json × PyStr) :=
  match scanLiteral s with
  | none => .error (decodeError "Expecting value")
  | some (l, rest) =>
    if l.isFloat then .ok (float (I.readFloat l.text), rest)
    else if maxStrDigits < l.whole.length then
      .error (raise .valueError "Exceeds the limit (4300 digits) for integer string conversion")
    else .ok (int l.intValue, rest)

/-- The items of an array up to its end.  Each round takes an item and a comma,
so a text is read within as many rounds as it has characters. -/
def scanItems (value : PyStr → Except PyError (Json × PyStr)) :
    Nat → PyStr → Except PyError (List Json × PyStr)
  | 0, _ => .error (decodeError "Expecting value")
  | n + 1, s => do
    let (x, s) ← value s
    match skipSpace s with
    | [] => .error (decodeError "Expecting ',' delimiter")
    | c :: rest =>
      if c = closeBracket then .ok ([x], rest)
      else if c = comma then do
        let (xs, rest) ← scanItems value n (skipSpace rest)
        return (x :: xs, rest)
      else .error (decodeError "Expecting ',' delimiter")

/-- `_parse_array`, after the opening bracket. -/
def scanArray (value : PyStr → Except PyError (Json × PyStr)) (s : PyStr) :
    Except PyError (Json × PyStr) :=
  match skipSpace s with
  | [] => .error (decodeError "Expecting value")
  | c :: rest =>
    if c = closeBracket then .ok (arr [], rest)
    else do
      let (xs, rest) ← scanItems value (rest.length + 1) (c :: rest)
      return (arr xs, rest)

/-- One item of an object: its key, a colon and its value. -/
def scanField (value : PyStr → Except PyError (Json × PyStr)) :
    PyStr → Except PyError ((PyStr × Json) × PyStr)
  | [] => .error (decodeError "Expecting property name enclosed in double quotes")
  | c :: rest =>
    if c = quote then do
      let (k, rest) ← scanString rest
      match skipSpace rest with
      | [] => .error (decodeError "Expecting ':' delimiter")
      | c :: rest =>
        if c = colon then do
          let (x, rest) ← value (skipSpace rest)
          return ((k, x), rest)
        else .error (decodeError "Expecting ':' delimiter")
    else .error (decodeError "Expecting property name enclosed in double quotes")

/-- The items of an object up to its end. -/
def scanFields (value : PyStr → Except PyError (Json × PyStr)) :
    Nat → PyStr → Except PyError (List (PyStr × Json) × PyStr)
  | 0, _ => .error (decodeError "Expecting property name enclosed in double quotes")
  | n + 1, s => do
    let (f, s) ← scanField value s
    match skipSpace s with
    | [] => .error (decodeError "Expecting ',' delimiter")
    | c :: rest =>
      if c = closeBrace then .ok ([f], rest)
      else if c = comma then do
        let (fields, rest) ← scanFields value n (skipSpace rest)
        return (f :: fields, rest)
      else .error (decodeError "Expecting ',' delimiter")

/-- The first key that has stood in the list before. -/
def firstDuplicate (seen : List PyStr) : List PyStr → Option PyStr
  | [] => none
  | k :: ks => if k ∈ seen then some k else firstDuplicate (k :: seen) ks

/-- A call of a hook with `room` levels of recursion left.  The call takes one, and where it
raises, making the exception takes another. -/
def callHook {α : Type} (room : Nat) (during : PyStr) (answer : Except PyError α) :
    Except PyError α :=
  match room, answer with
  | 0, _ => .error (raise .recursionError "maximum recursion depth exceeded")
  | 1, .error _ =>
    .error (raise .recursionError (py "maximum recursion depth exceeded while " ++ during))
  | _, answer => answer

/-- `object_pairs_hook` -/
def buildObject (fields : List (PyStr × Json)) : Except PyError Json :=
  match firstDuplicate [] (fields.map Prod.fst) with
  | some k => .error (H.duplicateKey k)
  | none => .ok (obj fields)

/-- The items of an object, after the opening brace. -/
def scanMembers (value : PyStr → Except PyError (Json × PyStr)) (s : PyStr) :
    Except PyError (List (PyStr × Json) × PyStr) :=
  match skipSpace s with
  | [] => .error (decodeError "Expecting property name enclosed in double quotes")
  | c :: rest =>
    if c = closeBrace then .ok ([], rest)
    else scanFields value (rest.length + 1) (c :: rest)

/-- `_parse_object`, with `room` levels of recursion left inside the object. -/
def scanObject (room : Nat) (value : PyStr → Except PyError (Json × PyStr)) (s : PyStr) :
    Except PyError (Json × PyStr) := do
  let (fields, rest) ← scanMembers value s
  let v ← callHook room "getting the repr of an object" (buildObject H fields)
  return (v, rest)

/-- `scan_once` with `room` levels of recursion left, and the reader of what stands inside a
container, or none where no level is left for one. -/
def scanOnce (room : Nat) (value : Option (PyStr → Except PyError (Json × PyStr))) (s : PyStr) :
    Except PyError (Json × PyStr) :=
  match s with
  | [] => .error (decodeError "Expecting value")
  | c :: rest =>
    if c = quote then do
      let (t, rest) ← scanString rest
      return (str t, rest)
    else if c = openBrace then
      match value with
      | none => .error (raise .recursionError (py "maximum recursion depth exceeded while " ++
          py "decoding a JSON object from a unicode string"))
      | some value => scanObject H (room - 1) value rest
    else if c = openBracket then
      match value with
      | none => .error (raise .recursionError (py "maximum recursion depth exceeded while " ++
          py "decoding a JSON array from a unicode string"))
      | some value => scanArray value rest
    else
      match scanConstant s, scanNonFinite s with
      | some p, _ => .ok p
      | none, some name => callHook room H.duringConstant (.error (H.constant name))
      | none, none => scanNumber I s

/-- `scan_once` with `n` levels of recursion left: one for each container inside another, and
one for a hook. -/
def scanValue : Nat → PyStr → Except PyError (Json × PyStr)
  | 0 => scanOnce I H 0 none
  | n + 1 => scanOnce I H (n + 1) (some (scanValue n))

/-- `JSONDecoder.decode` -/
def decode (s : PyStr) : Except PyError Json := do
  let (v, rest) ← scanValue I H I.loadsNesting (skipSpace s)
  if skipSpace rest = [] then return v else .error (decodeError "Extra data")

/-- `json.loads(s)` of a string. -/
def loads (s : PyStr) : Except PyError Json :=
  if s.head? = some (chr 0xFEFF) then
    .error (decodeError "Unexpected UTF-8 BOM (decode using utf-8-sig)")
  else decode I H s

end Json

end EdgeFort
