/-
The two checks of the API key (`service.py`).

`APIKeyMiddleware` compares the raw header with the key's UTF-8 bytes.  The endpoints
then compare the header as text, which the framework has decoded from Latin-1, with the
key itself.
-/
import EdgeFort.Service.Headers

namespace EdgeFort
namespace Service

open Effect

/-- `hmac.compare_digest` of two byte strings -/
def compareDigestBytes (a b : Bytes) : Bool := a = b

/-- `hmac.compare_digest` of two strings, which must be ASCII -/
def compareDigest (a b : PyStr) : Except PyError Bool :=
  if a.all isAscii && b.all isAscii then .ok (a = b)
  else .error (raise .typeError "comparing strings with non-ASCII characters is not supported")

/-- `b.decode("latin-1")` -/
def latin1Decode (b : Bytes) : PyStr := b.map fun x => chr x.toNat

structure Scope where
  type : PyStr
  path : Option PyStr
  headers : Headers

/-- The middleware of a service in production. -/
structure APIKeyMiddleware where
  expected : Bytes
  development : Bool

namespace APIKeyMiddleware

/-- `__init__` -/
def init (apiKey : PyStr) (development : Bool) : Except PyError APIKeyMiddleware := do
  let expected ← (if apiKey = [] then .ok [] else utf8Encode apiKey : Except PyError Bytes)
  return ⟨expected, development⟩

def protectedPaths : List PyStr := [py "/readyz", py "/metrics", py "/v1/predict"]

def unauthorized : JsonResponse := ⟨"unauthorized", 401⟩

/-- `__call__` up to the application: the response to a request it stops. -/
def call (M : APIKeyMiddleware) (scope : Scope) : Option JsonResponse :=
  if M.development ∨ scope.type ≠ py "http" ∨ ¬scope.path.any (· ∈ protectedPaths) then none
  else
    match headerValues (headerName "x-api-key") scope.headers with
    | [provided] => if compareDigestBytes provided M.expected then none else some unauthorized
    | _ => some unauthorized

end APIKeyMiddleware

/-- What `auth` raises. -/
inductive AuthError where
  /-- `HTTPException(401, "unauthorized")` -/
  | unauthorized
  | error (e : PyError)
  deriving DecidableEq, Repr

/-- `auth` -/
def auth (development : Bool) (apiKey : PyStr) (xApiKey : Option PyStr) : Except AuthError Unit :=
  if development then .ok ()
  else
    match xApiKey with
    | none => .error .unauthorized
    | some x =>
      match compareDigest x apiKey with
      | .error e => .error (.error e)
      | .ok true => .ok ()
      | .ok false => .error .unauthorized

/-- The value the framework passes for `x_api_key: str | None = Header(None)`. -/
def xApiKey (headers : Headers) : Option PyStr :=
  (headerValues (headerName "x-api-key") headers).head?.map latin1Decode

/-- A request for one of the protected endpoints. -/
def Scope.Guarded (scope : Scope) : Prop :=
  scope.type = py "http" ∧ scope.path.any (· ∈ APIKeyMiddleware.protectedPaths) = true

/-- The checks agree on a key: a request the middleware lets through is authorised, and
a request whose one header has the key's UTF-8 bytes is let through. -/
def Agree (apiKey : PyStr) : Prop :=
  ∀ M, APIKeyMiddleware.init apiKey false = .ok M → ∀ scope : Scope, scope.Guarded →
    (M.call scope = none → auth false apiKey (xApiKey scope.headers) = .ok ()) ∧
      ∀ b, utf8Encode apiKey = .ok b →
        headerValues (headerName "x-api-key") scope.headers = [b] →
          M.call scope = none ∧ auth false apiKey (xApiKey scope.headers) = .ok ()

variable {apiKey : PyStr} {M : APIKeyMiddleware} {scope : Scope} {b : Bytes}

theorem init_ok : APIKeyMiddleware.init apiKey false = .ok M ↔
    utf8Encode apiKey = .ok M.expected ∧ M.development = false := by
  have hempty : ∀ x : Bytes, utf8Encode [] = .ok x ↔ x = [] := fun x => by
    simp [utf8Encode, utf8Encodable, eq_comm]
  simp only [APIKeyMiddleware.init, bind_eq_ok, pure_eq_ok]
  constructor
  · rintro ⟨expected, hexpected, rfl⟩
    refine ⟨?_, rfl⟩
    split_ifs at hexpected with hkey
    · rw [hkey, hempty]
      exact (Except.ok.inj hexpected).symm
    · exact hexpected
  · rintro ⟨hexpected, hdevelopment⟩
    refine ⟨M.expected, ?_, by rw [← hdevelopment]⟩
    split_ifs with hkey
    · rw [hkey, hempty] at hexpected
      rw [hexpected]
    · exact hexpected

/-- The middleware passes a guarded request just when it has one key header, with the
expected bytes. -/
theorem call_eq_none (hguarded : scope.Guarded) (hdevelopment : M.development = false) :
    M.call scope = none ↔
      headerValues (headerName "x-api-key") scope.headers = [M.expected] := by
  have hguard : ¬(M.development = true ∨ scope.type ≠ py "http" ∨
      ¬scope.path.any (· ∈ APIKeyMiddleware.protectedPaths) = true) := by
    rintro (h | h | h)
    · rw [hdevelopment] at h
      cases h
    · exact h hguarded.1
    · exact h hguarded.2
  rw [APIKeyMiddleware.call, if_neg hguard]
  split
  · rename_i provided hvalues
    rw [hvalues, compareDigestBytes]
    by_cases h : provided = M.expected <;> simp [h]
  · rename_i hvalues
    simp only [reduceCtorEq, false_iff]
    exact fun h => hvalues _ h

/-- The text of the header is compared with the key only if both are ASCII. -/
theorem auth_eq_ok {x : PyStr} : auth false apiKey (some x) = .ok () ↔
    x = apiKey ∧ apiKey.all isAscii = true := by
  simp only [auth, compareDigest, Bool.false_eq_true, if_false]
  by_cases hascii : (x.all isAscii && apiKey.all isAscii) = true
  · rw [if_pos hascii]
    rw [Bool.and_eq_true] at hascii
    by_cases h : x = apiKey <;> simp [h, hascii.2]
  · rw [if_neg hascii]
    simp only [reduceCtorEq, false_iff, not_and]
    rintro rfl hx
    exact hascii (by rw [hx]; rfl)

/-- An ASCII text is its UTF-8 bytes read as Latin-1. -/
theorem latin1Decode_utf8Encode (h : apiKey.all isAscii = true) (hb : utf8Encode apiKey = .ok b) :
    latin1Decode b = apiKey := by
  obtain ⟨-, rfl⟩ := utf8Encode_eq_ok.mp hb
  have hlt := lt_of_isAscii h
  clear h hb
  induction apiKey with
  | nil => rfl
  | cons c s ih =>
    have hc := hlt c List.mem_cons_self
    have hchar : utf8EncodeChar c = [byte c.val] := if_pos hc
    rw [List.flatMap_cons, hchar, List.singleton_append, latin1Decode, List.map_cons,
      byte_toNat (by omega), chr_coe]
    exact congrArg (c :: ·) (ih fun d hd => hlt d (List.mem_cons_of_mem _ hd))

/-- A request with the one header `x-api-key: b`. -/
def predictWith (b : Bytes) : Scope where
  type := py "http"
  path := some (py "/v1/predict")
  headers := [(headerName "x-api-key", b)]

theorem guarded_predictWith (b : Bytes) : (predictWith b).Guarded := ⟨rfl, (by decide : (some (py "/v1/predict")).any
    (· ∈ APIKeyMiddleware.protectedPaths) = true)⟩

/-- A key the checks agree on is ASCII, or has no UTF-8 bytes: the endpoint cannot
compare any other with the header the middleware expects. -/
theorem Agree.isAscii (h : Agree apiKey) (hencodable : utf8Encodable apiKey = true) :
    apiKey.all isAscii = true := by
  have hb : utf8Encode apiKey = .ok (apiKey.flatMap utf8EncodeChar) := if_pos hencodable
  have hauth := ((h ⟨_, false⟩ (init_ok.mpr ⟨hb, rfl⟩) _ (guarded_predictWith _)).2 _ hb rfl).2
  exact (auth_eq_ok.mp hauth).2

/-- The two checks agree just on the keys that are ASCII, and on those that have no UTF-8
bytes, with which the service does not start. -/
theorem api_key_checks_agree (apiKey : PyStr) :
    Agree apiKey ↔ apiKey.all isAscii = true ∨ utf8Encodable apiKey = false := by
  constructor
  · intro hagree
    by_cases hencodable : utf8Encodable apiKey = true
    · exact Or.inl (hagree.isAscii hencodable)
    · exact Or.inr (by simpa using hencodable)
  · intro hkey M hM scope hguarded
    obtain ⟨hexpected, hdevelopment⟩ := init_ok.mp hM
    have hascii : apiKey.all isAscii = true := by
      refine hkey.resolve_right fun hnot => ?_
      rw [(utf8Encode_eq_ok.mp hexpected).1] at hnot
      cases hnot
    have hauthorised : headerValues (headerName "x-api-key") scope.headers = [M.expected] →
        auth false apiKey (xApiKey scope.headers) = .ok () := by
      intro hvalues
      rw [xApiKey, hvalues]
      exact auth_eq_ok.mpr ⟨latin1Decode_utf8Encode hascii hexpected, hascii⟩
    refine ⟨fun hcall => hauthorised ((call_eq_none hguarded hdevelopment).mp hcall), ?_⟩
    intro b hb hvalues
    rw [hexpected] at hb
    obtain rfl := Except.ok.inj hb
    exact ⟨(call_eq_none hguarded hdevelopment).mpr hvalues, hauthorised hvalues⟩

/-- With the key "é" the middleware passes the key's own bytes, and `auth` raises. -/
theorem api_key_checks_differ : ¬∀ apiKey : PyStr, apiKey ≠ [] → Agree apiKey := by
  intro hagree
  have hascii := (hagree (py "é") (by decide)).isAscii (by decide)
  revert hascii
  decide

end Service
end EdgeFort
