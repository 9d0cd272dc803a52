/-
IPC frames (`ipc.py`): `encode_frame`, `decode_frame` and the checks on header
fields.

A frame is one line of JSON, at most 4096 bytes of ASCII, and the payload after
it.  The four reserved fields name the protocol, its version, the operation and
the length of the payload.
-/
import EdgeFort.Json.Characters
import EdgeFort.Json.Grammar
import EdgeFort.Python.Ascii
import EdgeFort.Store.CanonicalJson

namespace EdgeFort.Ipc

open Effect

def ipcMagic : PyStr := "EDGEAI-IPC"
def ipcVersion : Int := 1
def maxHeaderBytes : Nat := 4096
def maxErrorTextBytes : Nat := 4096

/-- `IPCProtocolError` -/
def protocolError (text : PyStr) : PyError := raise .ipcProtocolError text

/-- `_unique_object` and `_reject_constant`. -/
def hooks : Hooks where
  duplicateKey key := protocolError (py "duplicate IPC header " ++ py "field " ++ pyRepr key)
  constant value :=
    protocolError (py "non-finite JSON constant " ++ pyRepr value ++ py " is forbidden")
  duringConstant := "getting the repr of an object"

/-! ## Header fields -/

/-- `(1 << 63) - 1` -/
def maxUint : Int := 9223372036854775807

/-- `_uint` -/
def uint (name : PyStr) (value : Json) (maximum : Int) : Except PyError Int :=
  let invalid := protocolError (py "invalid IPC integer " ++ py "field " ++ name)
  match value with
  | .int i => if 0 ≤ i ∧ i ≤ maximum then .ok i else .error invalid
  | _ => .error invalid

/-- `_text` -/
def text (name : PyStr) (value : Json) (maxBytes : Nat) : Except PyError PyStr :=
  let invalid := protocolError (py "invalid IPC text field " ++ name)
  match value with
  | .str s =>
    if s = [] then .error invalid
    else
      match utf8Encode s with
      | .error _ => .error (protocolError (py "invalid UTF-8 IPC field " ++ name))
      | .ok encoded =>
        if maxBytes < encoded.length then
          .error (protocolError (py "IPC text field " ++ name ++ py " is too large"))
        else .ok s
  | _ => .error invalid

/-- The items `encode_frame` starts from. -/
def reservedFields (op : PyStr) (payload : Bytes) : List (PyStr × Json) :=
  [(py "magic", .str ipcMagic), (py "op", .str op), (py "payload_bytes", .int payload.length),
    (py "v", .int ipcVersion)]

def reservedNames : List PyStr := [py "magic", py "op", py "payload_bytes", py "v"]

/-- The loop of `encode_frame` over `fields.items()`. -/
def addFields (header : List (PyStr × Json)) :
    List (PyStr × Json) → Except PyError (List (PyStr × Json))
  | [] => .ok header
  | (key, value) :: fields => do
    raiseIf ((header.lookup key).isSome = true)
      (protocolError (py "reserved IPC header field " ++ pyRepr key))
    raiseIf (key = []) (protocolError (py "IPC header keys must be " ++ py "non-empty strings"))
    addFields (header ++ [(key, value)]) fields

/-- Whether `except (TypeError, ValueError, UnicodeEncodeError)` catches. -/
def notCanonical (e : PyError) : Bool :=
  e.cls matches .typeError | .valueError | .unicodeEncodeError

variable (I : Interpreter)

/-- The header as bytes. -/
def encodeHeader (header : List (PyStr × Json)) : Except PyError Bytes :=
  match Json.dumps I true (.obj header) >>= asciiEncode with
  | .ok encoded => .ok encoded
  | .error e =>
    if notCanonical e then
      .error (protocolError (py "IPC header is not " ++ py "canonical JSON: " ++ e.text))
    else .error e

def encodeFrame (op : PyStr) (fields : List (PyStr × Json)) (payload : Bytes) :
    Except PyError Bytes := do
  let invalid := protocolError "invalid IPC operation"
  raiseIf (op = []) invalid
  match asciiEncode op with
  | .error _ => .error invalid
  | .ok encodedOp => do
    raiseIf (32 < encodedOp.length) invalid
    let header ← addFields (reservedFields op payload) fields
    let encoded ← encodeHeader I header
    raiseIf (maxHeaderBytes < encoded.length)
      (protocolError (py "IPC header exceeds " ++ py "configured bound"))
    return encoded ++ 0x0A :: payload

/-- The header of a frame as JSON. -/
def decodeHeader (header : Bytes) : Except PyError Json :=
  match asciiDecode header >>= Json.loads I hooks with
  | .ok v => .ok v
  | .error e =>
    if e.cls matches .unicodeDecodeError | .jsonDecodeError then
      .error (protocolError (py "invalid IPC JSON header: " ++ e.text))
    else .error e

/-- The first of some names that no field has. -/
def firstMissing (header : List (PyStr × Json)) (names : List PyStr) : Option PyStr :=
  names.find? fun name => (header.lookup name).isNone

def decodeFrame (frame : Bytes) (maxPayloadBytes : Int) :
    Except PyError (List (PyStr × Json) × Bytes) := do
  raiseIf (maxPayloadBytes < 0)
    (raise .valueError (py "max_payload_bytes must " ++ py "be a non-negative integer"))
  match (frame.take (maxHeaderBytes + 1)).idxOf? 0x0A with
  | none => .error (protocolError (py "IPC frame missing " ++ py "bounded header terminator"))
  | some newline => do
    let headerBytes := frame.take newline
    raiseIf (headerBytes = []) (protocolError "IPC frame has empty header")
    match ← decodeHeader I headerBytes with
    | .obj header => do
      match firstMissing header reservedNames with
      | some key => .error (protocolError (py "missing IPC header field " ++ key))
      | none => do
        raiseIf (Json.pyEq (Json.item header (py "magic")) (.str ipcMagic) = false ∨
            Json.pyEq (Json.item header (py "v")) (.int ipcVersion) = false)
          (protocolError "unsupported IPC protocol")
        let _ ← text (py "op") (Json.item header (py "op")) 32
        let payloadBytes ← uint (py "payload_bytes") (Json.item header (py "payload_bytes"))
          maxPayloadBytes
        let payload := frame.drop (newline + 1)
        raiseIf ((payload.length : Int) ≠ payloadBytes)
          (protocolError "IPC payload length mismatch")
        return (header, payload)
    | _ => .error (protocolError "IPC header must be an object")

variable {I}

/-! ## Field checks -/

theorem uint_eq_ok {name : PyStr} {value : Json} {maximum n : Int} :
    uint name value maximum = .ok n ↔ value = .int n ∧ 0 ≤ n ∧ n ≤ maximum := by
  unfold uint
  cases value with
  | int i =>
    dsimp only
    split_ifs with h
    · constructor
      · intro e
        cases e
        exact ⟨rfl, h⟩
      · rintro ⟨e, -⟩
        cases e
        rfl
    · constructor
      · intro e
        cases e
      · rintro ⟨e, hn⟩
        cases e
        exact absurd hn h
  | _ => simp

/-- What a text field holds: a string that is not empty and has an encoding within
the bound. -/
def TextFits (maxBytes : Nat) (s : PyStr) : Prop :=
  s ≠ [] ∧ ∃ encoded, utf8Encode s = .ok encoded ∧ encoded.length ≤ maxBytes

theorem text_eq_ok {name : PyStr} {value : Json} {maxBytes : Nat} {s : PyStr} :
    text name value maxBytes = .ok s ↔ value = .str s ∧ TextFits maxBytes s := by
  unfold text
  cases value with
  | str t =>
    dsimp only
    by_cases hempty : t = []
    · rw [if_pos hempty]
      constructor
      · intro e
        cases e
      · rintro ⟨e, hs, -⟩
        cases e
        exact absurd hempty hs
    · rw [if_neg hempty]
      cases henc : utf8Encode t with
      | error e =>
        constructor
        · intro h
          cases h
        · rintro ⟨h, -, encoded, hok, -⟩
          cases h
          rw [henc] at hok
          cases hok
      | ok encoded =>
        dsimp only
        split_ifs with hlong
        · constructor
          · intro h
            cases h
          · rintro ⟨h, -, encoded', hok, hle⟩
            cases h
            rw [henc] at hok
            cases hok
            omega
        · constructor
          · intro h
            cases h
            exact ⟨rfl, hempty, encoded, henc, Nat.le_of_not_lt hlong⟩
          · rintro ⟨h, -⟩
            cases h
            rfl
  | _ => simp

/-- The fields are added when none is reserved, empty or there already. -/
theorem addFields_eq_ok {fields header result : List (PyStr × Json)} :
    addFields header fields = .ok result ↔ result = header ++ fields ∧
      (fields.map Prod.fst).Nodup ∧
      ∀ f ∈ fields, f.1 ≠ [] ∧ f.1 ∉ header.map Prod.fst := by
  have hlookup : ∀ (h : List (PyStr × Json)) (k : PyStr),
      ¬(h.lookup k).isSome = true ↔ k ∉ h.map Prod.fst := by
    intro h k
    rw [Bool.not_eq_true, Option.isSome_eq_false_iff, Option.isNone_iff_eq_none,
      List.lookup_eq_none_iff, List.mem_map, not_exists]
    refine forall_congr' fun f => ?_
    rw [not_and, bne_iff_ne]
    exact ⟨fun hf hm e => hf hm e.symm, fun hf hm e => hf hm e.symm⟩
  induction fields generalizing header with
  | nil => simp [addFields, eq_comm]
  | cons f fields ih =>
    obtain ⟨k, x⟩ := f
    simp only [addFields, bind_eq_ok, raiseIf_eq_ok, hlookup, exists_const, ih, List.map_append,
      List.map_cons, List.map_nil, List.mem_append, List.mem_singleton, List.nodup_cons,
      List.append_assoc, List.singleton_append, List.forall_mem_cons, not_or]
    constructor
    · rintro ⟨hk, hempty, rfl, hnd, hall⟩
      refine ⟨rfl, ⟨fun hmem => ?_, hnd⟩, ⟨hempty, hk⟩, fun f hf => ⟨(hall f hf).1, (hall f hf).2.1⟩⟩
      obtain ⟨g, hg, hgk⟩ := List.mem_map.mp hmem
      exact (hall g hg).2.2 hgk
    · rintro ⟨rfl, ⟨hk, hnd⟩, ⟨hempty, hkh⟩, hall⟩
      refine ⟨hkh, hempty, rfl, hnd, fun f hf => ⟨(hall f hf).1, (hall f hf).2, fun e => ?_⟩⟩
      exact hk (List.mem_map.mpr ⟨f, hf, e⟩)

/-! ## What an encoded frame is -/

/-- An operation name `encode_frame` takes. -/
def OpFits (op : PyStr) : Prop := op ≠ [] ∧ (∀ c ∈ op, c.val < 0x80) ∧ op.length ≤ 32

/-- Field names `encode_frame` takes. -/
def NamesFit (fields : List (PyStr × Json)) : Prop :=
  (fields.map Prod.fst).Nodup ∧ ∀ f ∈ fields, f.1 ≠ [] ∧ f.1 ∉ reservedNames

theorem encodeHeader_eq_ok {header : List (PyStr × Json)} {encoded : Bytes} :
    encodeHeader I header = .ok encoded ↔
      ∃ t, Json.dumps I true (.obj header) = .ok t ∧ asciiEncode t = .ok encoded := by
  rw [← bind_eq_ok]
  unfold encodeHeader
  cases Json.dumps I true (.obj header) >>= asciiEncode with
  | ok b => exact Iff.rfl
  | error e =>
    dsimp only
    split_ifs
    · exact ⟨False.elim, False.elim⟩
    · exact Iff.rfl

theorem encodeFrame_eq_ok {op : PyStr} {fields : List (PyStr × Json)} {payload frame : Bytes} :
    encodeFrame I op fields payload = .ok frame ↔ OpFits op ∧ NamesFit fields ∧
      ∃ encoded, encodeHeader I (reservedFields op payload ++ fields) = .ok encoded ∧
        encoded.length ≤ maxHeaderBytes ∧ frame = encoded ++ 0x0A :: payload := by
  have hnames : (reservedFields op payload).map Prod.fst = reservedNames := rfl
  unfold encodeFrame
  simp only [bind_eq_ok, raiseIf_eq_ok, exists_const]
  cases hop : asciiEncode op with
  | error e =>
    refine ⟨fun h => absurd h.2 error_ne_ok, fun h => ?_⟩
    have hok := asciiEncode_eq_ok.mpr ⟨h.1.2.1, rfl⟩
    rw [hop] at hok
    cases hok
  | ok encodedOp =>
    obtain ⟨hascii, rfl⟩ := asciiEncode_eq_ok.mp hop
    simp only [bind_eq_ok, raiseIf_eq_ok, exists_const, pure_eq_ok, addFields_eq_ok, hnames,
      List.length_map, Nat.not_lt]
    constructor
    · rintro ⟨hne, hlen, _, ⟨rfl, hnd, hall⟩, encoded, henc, hle, rfl⟩
      exact ⟨⟨hne, hascii, hlen⟩, ⟨hnd, hall⟩, encoded, henc, hle, rfl⟩
    · rintro ⟨⟨hne, -, hlen⟩, ⟨hnd, hall⟩, encoded, henc, hle, rfl⟩
      exact ⟨hne, hlen, _, ⟨rfl, hnd, hall⟩, encoded, henc, hle, rfl⟩

/-! ## What a decoded frame was -/

theorem idxOf?_eq_some {l : Bytes} {x : UInt8} {n : Nat} :
    l.idxOf? x = some n ↔ ∃ l₁ l₂, l = l₁ ++ x :: l₂ ∧ x ∉ l₁ ∧ l₁.length = n := by
  induction l generalizing n with
  | nil => simp
  | cons y l ih =>
    rw [List.idxOf?_cons]
    by_cases hy : y = x
    · subst hy
      simp only [beq_self_eq_true, if_true, Option.some.injEq]
      constructor
      · rintro rfl
        exact ⟨[], l, rfl, List.not_mem_nil, rfl⟩
      · rintro ⟨l₁, l₂, hl, hx, hlen⟩
        cases l₁ with
        | nil => exact hlen
        | cons z l₁ =>
          rw [List.cons_append, List.cons.injEq] at hl
          exact absurd (hl.1 ▸ List.mem_cons_self) hx
    · simp only [beq_iff_eq, hy, if_false, Option.map_eq_some_iff]
      constructor
      · rintro ⟨m, hm, rfl⟩
        obtain ⟨l₁, l₂, rfl, hx, rfl⟩ := ih.mp hm
        refine ⟨y :: l₁, l₂, rfl, fun h => ?_, rfl⟩
        rcases List.mem_cons.mp h with h | h
        · exact hy h.symm
        · exact hx h
      · rintro ⟨l₁, l₂, hl, hx, rfl⟩
        cases l₁ with
        | nil =>
          rw [List.nil_append, List.cons.injEq] at hl
          exact absurd hl.1 hy
        | cons z l₁ =>
          rw [List.cons_append, List.cons.injEq] at hl
          exact ⟨l₁.length, ih.mpr ⟨l₁, l₂, hl.2, fun h => hx (List.mem_cons_of_mem _ h), rfl⟩,
            rfl⟩

/-- The terminator is found within the first 4097 bytes if and only if it ends a
header of at most 4096. -/
theorem terminator_eq_some {frame : Bytes} {n : Nat} :
    (frame.take (maxHeaderBytes + 1)).idxOf? 0x0A = some n ↔
      ∃ h payload, frame = h ++ 0x0A :: payload ∧ 0x0A ∉ h ∧ h.length ≤ maxHeaderBytes ∧
        h.length = n := by
  rw [idxOf?_eq_some]
  constructor
  · rintro ⟨h, rest, hframe, hh, rfl⟩
    have hlen := congrArg List.length hframe
    rw [List.length_take, List.length_append, List.length_cons] at hlen
    refine ⟨h, rest ++ frame.drop (maxHeaderBytes + 1), ?_, hh, by omega, rfl⟩
    calc frame = frame.take (maxHeaderBytes + 1) ++ frame.drop (maxHeaderBytes + 1) :=
          (List.take_append_drop _ _).symm
      _ = h ++ 0x0A :: (rest ++ frame.drop (maxHeaderBytes + 1)) := by
          rw [hframe, List.append_assoc, List.cons_append]
  · rintro ⟨h, payload, rfl, hh, hle, rfl⟩
    refine ⟨h, payload.take (maxHeaderBytes - h.length), ?_, hh, rfl⟩
    rw [List.take_append, List.take_of_length_le (by omega),
      show maxHeaderBytes + 1 - h.length = (maxHeaderBytes - h.length) + 1 by omega,
      List.take_succ_cons]

/-- The checks of `decode_frame` on a header. -/
structure HeaderChecks (header : List (PyStr × Json)) (payload : Bytes)
    (maxPayloadBytes : Int) : Prop where
  present : firstMissing header reservedNames = none
  magic : Json.pyEq (Json.item header (py "magic")) (.str ipcMagic) = true
  version : Json.pyEq (Json.item header (py "v")) (.int ipcVersion) = true
  op : ∃ s, text (py "op") (Json.item header (py "op")) 32 = .ok s
  length : uint (py "payload_bytes") (Json.item header (py "payload_bytes")) maxPayloadBytes =
    .ok (payload.length : Int)

theorem decodeFrame_eq_ok {frame payload : Bytes} {header : List (PyStr × Json)}
    {maxPayloadBytes : Int} :
    decodeFrame I frame maxPayloadBytes = .ok (header, payload) ↔
      0 ≤ maxPayloadBytes ∧ ∃ h, frame = h ++ 0x0A :: payload ∧ 0x0A ∉ h ∧ h ≠ [] ∧
        h.length ≤ maxHeaderBytes ∧ decodeHeader I h = .ok (.obj header) ∧
        HeaderChecks header payload maxPayloadBytes := by
  unfold decodeFrame
  simp only [bind_eq_ok, raiseIf_eq_ok, exists_const, not_lt]
  refine and_congr_right fun _ => ?_
  constructor
  · intro hdec
    cases hterm : (frame.take (maxHeaderBytes + 1)).idxOf? 0x0A with
    | none =>
      rw [hterm] at hdec
      cases hdec
    | some n =>
      rw [hterm] at hdec
      obtain ⟨h, rest, hframe, hh, hle, hn⟩ := terminator_eq_some.mp hterm
      have htake : frame.take n = h := by rw [hframe, ← hn, List.take_left]
      have hdrop : frame.drop (n + 1) = rest := by
        rw [hframe, ← hn, ← List.drop_drop, List.drop_left]
        rfl
      simp only [bind_eq_ok, raiseIf_eq_ok, exists_const, htake, hdrop] at hdec
      obtain ⟨hne, v, hv, hdec⟩ := hdec
      cases v with
      | obj fields =>
        simp only at hdec
        cases hmissing : firstMissing fields reservedNames with
        | some k =>
          rw [hmissing] at hdec
          cases hdec
        | none =>
          simp only [hmissing, bind_eq_ok, raiseIf_eq_ok, exists_const, pure_eq_ok, not_or,
            Bool.not_eq_false, Prod.mk.injEq, not_not] at hdec
          obtain ⟨⟨hmagic, hv'⟩, op, hop, m, hm, hlen, rfl, rfl⟩ := hdec
          exact ⟨h, hframe, hh, hne, hle, hv, hmissing, hmagic, hv', ⟨op, hop⟩, hlen ▸ hm⟩
      | _ => cases hdec
  · rintro ⟨h, rfl, hh, hne, hle, hv, hmissing, hmagic, hv', ⟨op, hop⟩, hm⟩
    have hterm := terminator_eq_some.mpr ⟨h, payload, rfl, hh, hle, rfl⟩
    have hdrop : (h ++ 0x0A :: payload).drop (h.length + 1) = payload := by
      rw [← List.drop_drop, List.drop_left]
      rfl
    simp only [hterm, List.take_left, hdrop, bind_eq_ok, raiseIf_eq_ok, exists_const]
    refine ⟨hne, .obj header, hv, ?_⟩
    simp only [hmissing, bind_eq_ok, raiseIf_eq_ok, exists_const, pure_eq_ok, not_or,
      Bool.not_eq_false, not_not]
    exact ⟨⟨hmagic, hv'⟩, op, hop, _, hm, rfl, trivial⟩

/-- A header that cannot be read is an error of the whole frame. -/
theorem decodeFrame_eq_error {h payload : Bytes} {maxPayloadBytes : Int} {e : PyError}
    (hmax : 0 ≤ maxPayloadBytes) (hh : 0x0A ∉ h) (hne : h ≠ []) (hle : h.length ≤ maxHeaderBytes)
    (hv : decodeHeader I h = .error e) :
    decodeFrame I (h ++ 0x0A :: payload) maxPayloadBytes = .error e := by
  have hterm := terminator_eq_some.mpr ⟨h, payload, rfl, hh, hle, rfl⟩
  rw [decodeFrame, raiseIf_neg (not_lt.mpr hmax), ok_bind]
  simp only [hterm, List.take_left, raiseIf_neg hne, ok_bind, hv]
  rfl

end EdgeFort.Ipc
