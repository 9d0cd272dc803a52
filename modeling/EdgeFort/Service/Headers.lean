/-
Request headers and the middleware's own responses (`service.py`).
-/
import EdgeFort.Python.Ascii

namespace EdgeFort
namespace Service

/-- `bytes.lower()` -/
def lowerBytes (b : Bytes) : Bytes :=
  b.map fun x => if 0x41 ≤ x.toNat ∧ x.toNat ≤ 0x5A then x + 0x20 else x

/-- The headers of a scope, as the server passes them. -/
abbrev Headers := List (Bytes × Bytes)

/-- The values of the headers of a name, which is given in lower case. -/
def headerValues (name : Bytes) (headers : Headers) : List Bytes :=
  (headers.filter fun h => lowerBytes h.1 = name).map Prod.snd

/-- A header name as the source has it, `b"..."`. -/
def headerName (s : String) : Bytes := s.toList.map fun c => byte c.toNat

def isDigitByte (x : UInt8) : Bool := 0x30 ≤ x.toNat && x.toNat ≤ 0x39

/-- `bytes.isdigit()` -/
def isdigit (b : Bytes) : Bool := b ≠ [] && b.all isDigitByte

/-- The number decimal digits denote. -/
def digitsValue (b : Bytes) : Nat := b.foldl (fun n x => 10 * n + (x.toNat - 0x30)) 0

/-- `JSONResponse({"detail": detail}, status_code=statusCode)` -/
structure JsonResponse where
  detail : PyStr
  statusCode : Nat
  deriving DecidableEq, Repr

end Service
end EdgeFort
