/-
What `decode_frame` accepts.

Every check of the header is on the exact type but the one of the version, which
is compared with `!=`: a header whose `v` is `true` or a float equal to one
passes it.
-/
import EdgeFort.Ipc.Frame

namespace EdgeFort.Ipc

open Effect

variable {I : Interpreter}

/-- A frame of the protocol: a line of ASCII that is one JSON object with the
reserved fields, and a payload of the length it states. -/
structure IsFrame (I : Interpreter) (frame : Bytes) (maxPayloadBytes : Int)
    (header : List (PyStr × Json)) (payload : Bytes) : Prop where
  line : ∃ h, frame = h ++ 0x0A :: payload ∧ h ≠ [] ∧ 0x0A ∉ h ∧ h.length ≤ maxHeaderBytes ∧
    (∀ x ∈ h, x.toNat < 0x80) ∧
    ∃ w t w', h.map (fun x => chr x.toNat) = w ++ (t ++ w') ∧ Json.Space w ∧ Json.Space w' ∧
      Json.Text I t (.obj header)
  magic : header.lookup (py "magic") = some (.str ipcMagic)
  version : header.lookup (py "v") = some (.int ipcVersion)
  op : ∃ s, header.lookup (py "op") = some (.str s) ∧ TextFits 32 s
  length : header.lookup (py "payload_bytes") = some (.int payload.length) ∧
    (payload.length : Int) ≤ maxPayloadBytes

/-- A version that equals 1 and is no integer. -/
def looseVersion : Json → Bool
  | .bool b => b
  | .float x => x = .finite 1
  | _ => false

/-- A line that `json.loads` reads as an object with every reserved field in order,
but for a version that is `true` or a float. -/
def LooseFrame (I : Interpreter) (frame : Bytes) (maxPayloadBytes : Int) : Prop :=
  ∃ h payload header, frame = h ++ 0x0A :: payload ∧ h ≠ [] ∧ 0x0A ∉ h ∧
    h.length ≤ maxHeaderBytes ∧ decodeHeader I h = .ok (.obj header) ∧
    header.lookup (py "magic") = some (.str ipcMagic) ∧
    (∃ x, header.lookup (py "v") = some x ∧ looseVersion x = true) ∧
    (∃ s, header.lookup (py "op") = some (.str s) ∧ TextFits 32 s) ∧
    header.lookup (py "payload_bytes") = some (.int payload.length) ∧
    (payload.length : Int) ≤ maxPayloadBytes

/-! ## The checks, by what the fields hold -/

theorem pyEq_str {v : Json} {s : PyStr} : v.pyEq (.str s) = true ↔ v = .str s := by
  cases v <;> simp [Json.pyEq, Json.scalarEq, Json.num?]

theorem pyEq_version {v : Json} :
    v.pyEq (.int ipcVersion) = true ↔ v = .int ipcVersion ∨ looseVersion v = true := by
  cases v with
  | null | str | arr | obj => simp [Json.pyEq, looseVersion]
  | bool b =>
    cases b <;> simp [Json.pyEq, Json.scalarEq, Json.num?, PyNum.eq, ipcVersion, looseVersion]
  | int i => simp [Json.pyEq, Json.scalarEq, Json.num?, PyNum.eq, looseVersion]
  | float x =>
    cases x <;> simp [Json.pyEq, Json.scalarEq, Json.num?, PyNum.eq, PyFloat.rat?, ipcVersion,
      looseVersion]

theorem firstMissing_eq_none {header : List (PyStr × Json)} :
    firstMissing header reservedNames = none ↔
      ∀ name ∈ reservedNames, ∃ v, header.lookup name = some v := by
  rw [firstMissing, List.find?_eq_none]
  refine forall₂_congr fun name _ => ?_
  rw [Bool.not_eq_true, Option.isNone_eq_false_iff, Option.isSome_iff_exists]

theorem item_of_lookup {header : List (PyStr × Json)} {k : PyStr} {v : Json}
    (h : header.lookup k = some v) : Json.item header k = v := by
  rw [Json.item, h, Option.getD_some]

/-- The checks, read as what the reserved fields are. -/
theorem headerChecks_iff {header : List (PyStr × Json)} {payload : Bytes} {maxPayloadBytes : Int} :
    HeaderChecks header payload maxPayloadBytes ↔
      header.lookup (py "magic") = some (.str ipcMagic) ∧
      (∃ x, header.lookup (py "v") = some x ∧ (x = .int ipcVersion ∨ looseVersion x = true)) ∧
      (∃ s, header.lookup (py "op") = some (.str s) ∧ TextFits 32 s) ∧
      header.lookup (py "payload_bytes") = some (.int payload.length) ∧
      (payload.length : Int) ≤ maxPayloadBytes := by
  constructor
  · rintro ⟨hpresent, hmagic, hversion, ⟨s, hop⟩, hlength⟩
    have hall := firstMissing_eq_none.mp hpresent
    obtain ⟨magic, hm⟩ := hall (py "magic") (by simp [reservedNames])
    obtain ⟨version, hv⟩ := hall (py "v") (by simp [reservedNames])
    obtain ⟨op, ho⟩ := hall (py "op") (by simp [reservedNames])
    obtain ⟨length, hl⟩ := hall (py "payload_bytes") (by simp [reservedNames])
    rw [item_of_lookup hm, pyEq_str] at hmagic
    rw [item_of_lookup hv, pyEq_version] at hversion
    rw [item_of_lookup ho, text_eq_ok] at hop
    rw [item_of_lookup hl, uint_eq_ok] at hlength
    exact ⟨hmagic ▸ hm, ⟨version, hv, hversion⟩, ⟨s, hop.1 ▸ ho, hop.2⟩, hlength.1 ▸ hl,
      hlength.2.2⟩
  · rintro ⟨hm, ⟨x, hv, hx⟩, ⟨s, ho, hs⟩, hl, hle⟩
    refine ⟨firstMissing_eq_none.mpr ?_, ?_, ?_, ⟨s, ?_⟩, ?_⟩
    · simp only [reservedNames, List.forall_mem_cons]
      exact ⟨⟨_, hm⟩, ⟨_, ho⟩, ⟨_, hl⟩, ⟨_, hv⟩, List.forall_mem_nil _⟩
    · rw [item_of_lookup hm]
      exact pyEq_str.mpr rfl
    · rw [item_of_lookup hv]
      exact pyEq_version.mpr hx
    · rw [item_of_lookup ho]
      exact text_eq_ok.mpr ⟨rfl, hs⟩
    · rw [item_of_lookup hl]
      exact uint_eq_ok.mpr ⟨rfl, Int.natCast_nonneg _, hle⟩

theorem decodeHeader_eq_ok {h : Bytes} {v : Json} :
    decodeHeader I h = .ok v ↔ (∀ x ∈ h, x.toNat < 0x80) ∧
      Json.loads I hooks (h.map fun x => chr x.toNat) = .ok v := by
  have hbind : decodeHeader I h = .ok v ↔ (asciiDecode h >>= Json.loads I hooks) = .ok v := by
    unfold decodeHeader
    cases asciiDecode h >>= Json.loads I hooks with
    | ok w => exact Iff.rfl
    | error e =>
      dsimp only
      split_ifs
      · exact ⟨False.elim, False.elim⟩
      · exact Iff.rfl
  rw [hbind, bind_eq_ok]
  constructor
  · rintro ⟨s, hs, hv⟩
    obtain ⟨hascii, rfl⟩ := asciiDecode_eq_ok.mp hs
    exact ⟨hascii, hv⟩
  · rintro ⟨hascii, hv⟩
    exact ⟨_, asciiDecode_eq_ok.mpr ⟨hascii, rfl⟩, hv⟩

/-- What is decoded is a frame of the protocol, up to the type of its version. -/
theorem decodeFrame_isFrame {frame payload : Bytes} {header : List (PyStr × Json)}
    {maxPayloadBytes : Int} (h : decodeFrame I frame maxPayloadBytes = .ok (header, payload)) :
    IsFrame I frame maxPayloadBytes header payload ∨ LooseFrame I frame maxPayloadBytes := by
  obtain ⟨-, line, hframe, hbreak, hne, hle, hdec, hchecks⟩ := decodeFrame_eq_ok.mp h
  obtain ⟨hmagic, ⟨x, hv, hx⟩, hop, hlength⟩ := headerChecks_iff.mp hchecks
  obtain ⟨hascii, hloads⟩ := decodeHeader_eq_ok.mp hdec
  rcases hx with rfl | hx
  · exact Or.inl ⟨⟨line, hframe, hne, hbreak, hle, hascii, Json.loads_text hloads⟩, hmagic, hv, hop,
      hlength⟩
  · exact Or.inr ⟨line, payload, header, hframe, hne, hbreak, hle, hdec, hmagic, ⟨x, hv, hx⟩, hop,
      hlength⟩

/-- `decode_frame` is strict on a frame if and only if the frame is not a loose one. -/
theorem decodeFrame_strict_iff (frame : Bytes) (maxPayloadBytes : Int) :
    (∀ header payload, decodeFrame I frame maxPayloadBytes = .ok (header, payload) →
        IsFrame I frame maxPayloadBytes header payload) ↔
      ¬LooseFrame I frame maxPayloadBytes := by
  constructor
  · rintro hstrict ⟨h, payload, header, hframe, hne, hbreak, hle, hdec, hmagic, ⟨x, hv, hx⟩, hop,
      hlength⟩
    have hnonneg : 0 ≤ maxPayloadBytes := by
      have := hlength.2
      omega
    have hok : decodeFrame I frame maxPayloadBytes = .ok (header, payload) :=
      decodeFrame_eq_ok.mpr ⟨hnonneg, h, hframe, hbreak, hne, hle, hdec,
        headerChecks_iff.mpr ⟨hmagic, ⟨x, hv, Or.inr hx⟩, hop, hlength⟩⟩
    have hversion := (hstrict header payload hok).version
    rw [hv, Option.some.injEq] at hversion
    rw [hversion] at hx
    cases hx
  · intro hloose header payload h
    exact (decodeFrame_isFrame h).resolve_right hloose

/-! ## A frame with a version that is no integer -/

/-- `{"magic":"EDGEAI-IPC","op":"x","payload_bytes":0,"v":true}` and a line break. -/
def booleanVersion : Bytes :=
  ((py "\x7b\"magic\":\"EDGEAI-IPC\"," ++ py "\"op\":\"x\",\"payload_bytes\":0," ++
    py "\"v\":true\x7d").map fun c => byte c.val) ++ [0x0A]

theorem boolean_version_accepted : ∃ header,
    decodeFrame Sample.interpreter booleanVersion 0 = .ok (header, []) ∧
    header.lookup (py "v") = some (.bool true) ∧
    ¬IsFrame Sample.interpreter booleanVersion 0 header [] := by
  obtain ⟨⟨header, payload⟩, hall⟩ : ∃ r : List (PyStr × Json) × Bytes, (do
      let decoded ← decodeFrame Sample.interpreter booleanVersion 0
      raiseIf (¬(decoded.2 = [] ∧
        (Json.item decoded.1 (py "v")).same (.bool true) = true)) (protocolError "x")
      return decoded) = .ok r := exists_ok (by decide +kernel)
  simp only [bind_eq_ok, raiseIf_eq_ok, exists_const, pure_eq_ok, not_not] at hall
  obtain ⟨_, hdec, ⟨hpayload, hitem⟩, rfl⟩ := hall
  have hv : header.lookup (py "v") = some (.bool true) := by
    unfold Json.item at hitem
    cases hk : header.lookup (py "v") with
    | none => simp [hk, Json.same] at hitem
    | some x =>
      rw [hk, Option.getD_some] at hitem
      cases x <;> simp_all [Json.same]
  refine ⟨header, hpayload ▸ hdec, hv, fun hframe => ?_⟩
  have hversion := hframe.version
  rw [hv] at hversion
  cases hversion

end EdgeFort.Ipc
