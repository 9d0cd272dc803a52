/-
`canonical_json_bytes` and `strict_json_loads` (`util.py`).
-/
import EdgeFort.Json.Canonical
import EdgeFort.Json.Loads
import EdgeFort.Registry.Version

namespace EdgeFort

variable (I : Interpreter)

def canonicalJsonBytes (value : Json) : Except PyError Bytes := Json.dumpsBytes I value

/-- `object_no_duplicates` and `reject_constant`. -/
def strictHooks : Hooks where
  duplicateKey key := raise .valueError (py "duplicate JSON object key: " ++ pyRepr key)
  constant value :=
    raise .valueError (py "non-finite JSON constant is " ++ py "not allowed: " ++ value)
  duringConstant := "calling a Python object"

/-- What `strict_json_loads` takes: a string or bytes. -/
inductive JsonText where
  | str (s : PyStr)
  | bytes (b : Bytes)

def strictJsonLoads : JsonText → Except PyError Json
  | .str s => Json.loads I strictHooks s
  | .bytes b => Json.loadsBytes I strictHooks b

variable {I}

theorem strictJsonLoads_strict {data : JsonText} {v : Json}
    (h : strictJsonLoads I data = .ok v) : v.strict = true := by
  cases data with
  | str s => exact Json.loads_strict h
  | bytes b => exact Json.loadsBytes_strict h

/-- A text file of canonical JSON and a newline reads as the canonical form. -/
theorem strictJsonLoads_canonicalJsonBytes (hI : I.Lawful) {v : Json} {b : Bytes} {text : PyStr}
    (hs : v.strict = true) (hd : v.readDepth ≤ I.loadsNesting) (hb : canonicalJsonBytes I v = .ok b)
    (htext : utf8Encode text = .ok b) :
    strictJsonLoads I (.str (text ++ [chr 0x0A])) = .ok v.sortKeys :=
  Json.loads_dumpsBytes hI hs hd hb htext rfl

end EdgeFort
