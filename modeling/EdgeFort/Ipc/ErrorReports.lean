/-
Which backend failures the worker can report.

The caller keeps 4096 characters of a message, the text check allows 4096 bytes of
UTF-8, and the header allows 4096 bytes with everything in it escaped to ASCII.
The last bound is the one that counts, and a message with a surrogate fails the
second.  Where the frame cannot be built the worker ends.
-/
import EdgeFort.Ipc.Strictness
import EdgeFort.Ipc.Worker

namespace EdgeFort.Ipc

open Effect

/-- The length of a string in the header, without its quotes. -/
def escapedLength (s : PyStr) : Nat := (Json.escapeString true s).length

/-- The bytes of an error frame's header around the code, the message and the
identifier. -/
def Report.overhead : Report → Nat
  | .load _ => 101
  | .predict _ => 96

/-- The reports that fit: an identifier in range, a code and a message that have an
encoding, and a header within its bound. -/
structure Fits (r : Report) (e : Raised) : Prop where
  identifier : 0 ≤ r.identifier ∧ r.identifier ≤ maxUint
  code : TextFits 64 (r.code e)
  message : utf8Encodable (r.message e) = true
  header : escapedLength (r.code e) + escapedLength (r.message e) +
    (Json.intRepr r.identifier).length + r.overhead ≤ maxHeaderBytes

variable {I : Interpreter}

/-! ## Lengths -/

/-- An escaped character is at least as long as its UTF-8 encoding. -/
theorem length_utf8EncodeChar_le (c : CodePoint) :
    (utf8EncodeChar c).length ≤ (Json.escapeChar true c).length := by
  have hunicode : ∀ n, (Json.unicodeEscape n).length = 6 := fun n => rfl
  have hshort : ∀ l, Json.shortEscapes.lookup c.val = some l → c.val < 0x80 := by
    intro l hl
    have hall : ∀ p ∈ Json.shortEscapes, p.1 < 0x80 := by decide
    obtain ⟨l₁, l₂, hl, -⟩ := List.lookup_eq_some_iff.mp hl
    exact hall (c.val, l) (by rw [hl]; simp)
  unfold Json.escapeChar
  split
  · rename_i l hl
    simp [utf8EncodeChar, hshort l hl]
  · split_ifs with hesc hbmp
    · rw [hunicode]
      unfold utf8EncodeChar
      split_ifs <;> simp
    · rw [List.length_append, hunicode, hunicode]
      unfold utf8EncodeChar
      split_ifs <;> simp
    · simp only [Bool.true_and, Bool.or_eq_true, decide_eq_true_eq, not_or] at hesc
      have hlow : c.val < 0x80 := by omega
      simp [utf8EncodeChar, hlow]

theorem length_utf8_le_escapedLength (s : PyStr) :
    (s.flatMap utf8EncodeChar).length ≤ escapedLength s := by
  induction s with
  | nil => exact Nat.le_refl _
  | cons c s ih =>
    have hc := length_utf8EncodeChar_le c
    simp only [escapedLength, Json.escapeString, List.flatMap_cons, List.length_append] at ih ⊢
    omega

/-- A text that fits the header when escaped fits it in UTF-8. -/
theorem textFits_of_escaped {s : PyStr} {n : Nat} (hne : s ≠ []) (hs : utf8Encodable s = true)
    (hle : escapedLength s ≤ n) : TextFits n s :=
  ⟨hne, _, utf8Encode_eq_ok.mpr ⟨hs, rfl⟩, (length_utf8_le_escapedLength s).trans hle⟩

/-! ## Building the frame -/

theorem cut_ne_nil {message fallback : PyStr} (h : fallback ≠ []) : cut message fallback ≠ [] := by
  unfold cut
  split_ifs with hcut
  · exact h
  · exact hcut

theorem Report.message_ne_nil (r : Report) (e : Raised) : r.message e ≠ [] := by
  cases r with
  | load => exact cut_ne_nil (by decide)
  | predict => exact cut_ne_nil (by decide)

def Report.idName : Report → PyStr
  | .load _ => "generation"
  | .predict _ => "request_id"

/-- The fields of an error frame. -/
def reportFields (r : Report) (e : Raised) : List (PyStr × Json) :=
  [(py "code", .str (r.code e)), (py "message", .str (r.message e)),
    (r.idName, .int r.identifier)]

theorem idField_eq_ok {name : PyStr} {value : Int} {fields : List (PyStr × Json)} :
    idField name (some value) = .ok fields ↔
      (0 ≤ value ∧ value ≤ maxUint) ∧ fields = [(name, .int value)] := by
  simp only [idField, bind_eq_ok, uint_eq_ok, pure_eq_ok, Json.int.injEq]
  constructor
  · rintro ⟨n, ⟨rfl, hn⟩, rfl⟩
    exact ⟨hn, rfl⟩
  · rintro ⟨hn, rfl⟩
    exact ⟨value, ⟨rfl, hn⟩, rfl⟩

/-- An error frame is built when its texts pass their checks, its identifier is in
range and the header can be encoded. -/
theorem errorFrame_eq_ok {r : Report} {e : Raised} {frame : Bytes} :
    errorFrame I r e = .ok frame ↔ TextFits 64 (r.code e) ∧
      TextFits maxErrorTextBytes (r.message e) ∧ (0 ≤ r.identifier ∧ r.identifier ≤ maxUint) ∧
      encodeFrame I r.op (reportFields r e) [] = .ok frame := by
  have htexts : ∀ {s : PyStr} {t : PyStr} {name : PyStr} {n : Nat},
      text name (.str s) n = .ok t ↔ t = s ∧ TextFits n s := by
    intro s t name n
    rw [text_eq_ok]
    constructor
    · rintro ⟨h, hfits⟩
      cases h
      exact ⟨rfl, hfits⟩
    · rintro ⟨rfl, hfits⟩
      exact ⟨rfl, hfits⟩
  have hmessage := r.message_ne_nil e
  have hnone : ∀ {name : PyStr} {fields : List (PyStr × Json)},
      idField name none = .ok fields ↔ fields = [] := by
    intro name fields
    exact ⟨fun h => (Except.ok.inj h).symm, fun h => h ▸ rfl⟩
  cases r with
  | load generation =>
    simp only [errorFrame, encodeError, if_neg hmessage, bind_eq_ok, htexts, hnone, idField_eq_ok]
    constructor
    · rintro ⟨_, ⟨rfl, hcode⟩, _, ⟨rfl, htext⟩, _, rfl, _, ⟨hid, rfl⟩, hframe⟩
      exact ⟨hcode, htext, hid, hframe⟩
    · rintro ⟨hcode, htext, hid, hframe⟩
      exact ⟨_, ⟨rfl, hcode⟩, _, ⟨rfl, htext⟩, _, rfl, _, ⟨hid, rfl⟩, hframe⟩
  | predict requestId =>
    simp only [errorFrame, encodeError, if_neg hmessage, bind_eq_ok, htexts, hnone, idField_eq_ok]
    constructor
    · rintro ⟨_, ⟨rfl, hcode⟩, _, ⟨rfl, htext⟩, _, ⟨hid, rfl⟩, _, rfl, hframe⟩
      exact ⟨hcode, htext, hid, hframe⟩
    · rintro ⟨hcode, htext, hid, hframe⟩
      exact ⟨_, ⟨rfl, hcode⟩, _, ⟨rfl, htext⟩, _, ⟨hid, rfl⟩, _, rfl, hframe⟩

theorem namesFit_reportFields (r : Report) (e : Raised) : NamesFit (reportFields r e) := by
  have hnames : ∀ id : PyStr, id = py "generation" ∨ id = py "request_id" →
      [py "code", py "message", id].Nodup ∧
        ∀ k ∈ [py "code", py "message", id], k ≠ [] ∧ k ∉ reservedNames := by
    rintro id (rfl | rfl)
    · exact ⟨by decide, by decide⟩
    · exact ⟨by decide, by decide⟩
  have hid : r.idName = py "generation" ∨ r.idName = py "request_id" := by
    cases r with
    | load => exact Or.inl rfl
    | predict => exact Or.inr rfl
  obtain ⟨hnd, hall⟩ := hnames r.idName hid
  exact ⟨hnd, fun f hf => hall f.1 (List.mem_map_of_mem hf)⟩

theorem opFits_report (r : Report) : OpFits r.op := by
  have hops : ∀ op : PyStr, op = py "load_error" ∨ op = py "error" → OpFits op := by
    rintro op (rfl | rfl)
    · exact ⟨by decide, lt_of_isAscii (by decide), by decide⟩
    · exact ⟨by decide, lt_of_isAscii (by decide), by decide⟩
  cases r with
  | load => exact hops _ (Or.inl rfl)
  | predict => exact hops _ (Or.inr rfl)

/-- The length of the header of an error frame. -/
theorem length_header (r : Report) (e : Raised) :
    (Json.render I true
      (Json.obj (reservedFields r.op [] ++ reportFields r e)).sortKeys).length =
      escapedLength (r.code e) + escapedLength (r.message e) +
        (Json.intRepr r.identifier).length + r.overhead := by
  have hstring : ∀ s : PyStr, (Json.renderString true s).length = escapedLength s + 2 := by
    intro s
    simp [Json.renderString, escapedLength]
  have hvary : escapedLength r.op + escapedLength r.idName + 81 = r.overhead := by
    cases r with
    | load =>
      show escapedLength (py "load_error") + escapedLength (py "generation") + 81 = 101
      decide
    | predict =>
      show escapedLength (py "error") + escapedLength (py "request_id") + 81 = 96
      decide
  have hfixed : escapedLength (py "magic") = 5 ∧ escapedLength ipcMagic = 10 ∧
      escapedLength (py "op") = 2 ∧ escapedLength (py "payload_bytes") = 13 ∧
      escapedLength (py "v") = 1 ∧ escapedLength (py "code") = 4 ∧
      escapedLength (py "message") = 7 ∧ (Json.intRepr 0).length = 1 ∧
      (Json.intRepr ipcVersion).length = 1 := by decide
  obtain ⟨h₁, h₂, h₃, h₄, h₅, h₆, h₇, h₈, h₉⟩ := hfixed
  rw [Json.length_render_sortKeys (by simp [reservedFields])]
  simp only [reservedFields, reportFields, List.cons_append, List.nil_append, List.map_cons,
    List.map_nil, List.sum_cons, List.sum_nil, Json.itemLength, Json.sortKeys, Json.render,
    hstring, List.length_nil, Nat.cast_zero, h₁, h₂, h₃, h₄, h₅, h₆, h₇, h₈, h₉]
  omega

/-- The header of an error frame can be printed if its digits are within the limit. -/
theorem refusal_header (r : Report) (e : Raised)
    (hdigits : (Json.decimal r.identifier.natAbs).length ≤ Json.maxStrDigits) :
    (Json.obj (reservedFields r.op [] ++ reportFields r e)).sortKeys.refusal I.dumpsNesting = none := by
  have hroom := I.dumpsNesting_ge
  obtain ⟨n, hn⟩ : ∃ n, I.dumpsNesting = n + 1 := ⟨I.dumpsNesting - 1, by omega⟩
  have hfixed : (Json.decimal 0).length ≤ Json.maxStrDigits ∧
      (Json.decimal ipcVersion.natAbs).length ≤ Json.maxStrDigits := by decide
  refine Json.refusal_sortKeys ?_
  rw [hn, Json.refusal_obj]
  refine ⟨Json.sorts_of_pos (by omega) _, ?_⟩
  simp [Json.refusal, Json.refusalFields, reservedFields, reportFields, hfixed.1, hfixed.2,
    hdigits]

/-- The frame of a report can be built if and only if the report fits. -/
theorem exists_errorFrame_iff {r : Report} {e : Raised} :
    (∃ frame, errorFrame I r e = .ok frame) ↔ Fits r e := by
  have hheader : (∃ frame, encodeFrame I r.op (reportFields r e) [] = .ok frame) ↔
      ∃ encoded, encodeHeader I (reservedFields r.op [] ++ reportFields r e) = .ok encoded ∧
        encoded.length ≤ maxHeaderBytes := by
    simp only [encodeFrame_eq_ok]
    constructor
    · rintro ⟨_, -, -, encoded, henc, hle, -⟩
      exact ⟨encoded, henc, hle⟩
    · rintro ⟨encoded, henc, hle⟩
      exact ⟨_, opFits_report r, namesFit_reportFields r e, encoded, henc, hle, rfl⟩
  have hlen : ∀ encoded, encodeHeader I (reservedFields r.op [] ++ reportFields r e) =
      .ok encoded → encoded.length = escapedLength (r.code e) + escapedLength (r.message e) +
        (Json.intRepr r.identifier).length + r.overhead := by
    intro encoded henc
    obtain ⟨t, ht, hascii⟩ := encodeHeader_eq_ok.mp henc
    unfold Json.dumps at ht
    split at ht
    · cases ht
    · obtain rfl := Except.ok.inj ht
      rw [(asciiEncode_bytes hascii).1, length_header]
  constructor
  · rintro ⟨frame, hframe⟩
    obtain ⟨hcode, hmessage, hid, hframe⟩ := errorFrame_eq_ok.mp hframe
    obtain ⟨encoded, henc, hle⟩ := hheader.mp ⟨frame, hframe⟩
    obtain ⟨-, encodedMessage, hutf8, -⟩ := hmessage
    exact ⟨hid, hcode, (utf8Encode_eq_ok.mp hutf8).1, hlen encoded henc ▸ hle⟩
  · intro hfits
    have hle := hfits.header
    have hmax : maxHeaderBytes = 4096 := rfl
    have hmessage : TextFits maxErrorTextBytes (r.message e) :=
      textFits_of_escaped (r.message_ne_nil e) hfits.message
        (show escapedLength (r.message e) ≤ 4096 by omega)
    have hdigits : (Json.decimal r.identifier.natAbs).length ≤ Json.maxStrDigits := by
      have hnonneg : ¬r.identifier < 0 := by
        have := hfits.identifier.1
        omega
      rw [Json.intRepr, if_neg hnonneg] at hle
      show _ ≤ 4300
      omega
    have hrefusal := refusal_header (I := I) r e hdigits
    have hstrings : (Json.obj (reservedFields r.op [] ++ reportFields r e)).stringsAll
        (fun _ => true) = true := by
      simp [Json.stringsAll, Json.stringsAllFields, reservedFields, reportFields]
    have hascii := asciiEncode_eq_ok.mpr ⟨fun c hc => by
      have hplain := Json.isPlain_iff.mp
        (Json.isPlain_of_mem_render (I := I) (Json.stringsAll_sortKeys _ hstrings) c hc)
      omega, rfl⟩
    have henc := encodeHeader_eq_ok.mpr ⟨_, by rw [Json.dumps, hrefusal], hascii⟩
    obtain ⟨frame, hframe⟩ := hheader.mpr ⟨_, henc, hlen _ henc ▸ hle⟩
    exact ⟨frame, errorFrame_eq_ok.mpr ⟨hfits.code, hmessage, hfits.identifier, hframe⟩⟩

/-- `decode_error` inverts it. -/
theorem decodeError_errorFrame (hI : I.Lawful) {r : Report} {e : Raised} {frame : Bytes}
    (h : errorFrame I r e = .ok frame) :
    decodeError I frame r.op r.isRequest = .ok (r.identifier, r.code e, r.message e) := by
  obtain ⟨hcode, hmessage, hid, hframe⟩ := errorFrame_eq_ok.mp h
  have hnames := namesFit_reportFields r e
  have hutf8 : ∀ {n : Nat} {s : PyStr}, TextFits n s → Json.readableString true s = true := by
    rintro n s ⟨-, encoded, henc, -⟩
    exact Json.readableString_of_utf8Encodable (utf8Encode_eq_ok.mp henc).1
  have hidName : Json.readableString true r.idName = true := by
    cases r with
    | load => exact show Json.readableString true (py "generation") = true by decide
    | predict => exact show Json.readableString true (py "request_id") = true by decide
  have hstrings : (Json.obj (reportFields r e)).readable true = true := by
    have hfixed : Json.readableString true (py "code") = true ∧
        Json.readableString true (py "message") = true := by decide
    simp [Json.readable, Json.stringsAll, Json.stringsAllFields, reportFields, hutf8 hcode,
      hutf8 hmessage, hidName, hfixed.1, hfixed.2]
  have hdict : (Json.obj (reportFields r e)).strict = true := by
    simp only [Json.strict, Bool.and_eq_true, decide_eq_true_eq]
    exact ⟨hnames.1, by simp [Json.strictFields, Json.strict, reportFields]⟩
  have hdec := (decodeFrame_encodeFrame hI hdict hstrings (Json.readDepth_flat I rfl) hframe
    (show (([] : Bytes).length : Int) ≤ 0 by decide)).2
  have hitem : ∀ k, Json.item (printedHeader r.op (reportFields r e) []) k =
      (Json.item (reservedFields r.op [] ++ reportFields r e) k).sortKeys :=
    item_printedHeader hnames
  have hkeys : ∀ id, id = r.idName → requireFields (printedHeader r.op (reportFields r e) [])
      [id, py "code", py "message"] = .ok () := by
    rintro id rfl
    refine raiseIf_neg ?_
    rw [keysAre_printedHeader hnames]
    · decide
    · cases r with
      | load => rfl
      | predict => rfl
  have hop : expectOp (printedHeader r.op (reportFields r e) []) r.op = .ok () := by
    refine raiseIf_neg ?_
    have hself : Json.pyEq (.str r.op) (.str r.op) = true := Json.pyEq_refl _ rfl
    rw [hitem]
    exact Bool.not_eq_false _ ▸ hself
  have hempty : expectEmpty [] r.op = .ok () := raiseIf_neg (not_not.mpr rfl)
  have hcodeField : text (py "code")
      (Json.item (printedHeader r.op (reportFields r e) []) (py "code")) 64 = .ok (r.code e) := by
    rw [hitem]
    exact text_eq_ok.mpr ⟨rfl, hcode⟩
  have hmessageField : text (py "message")
      (Json.item (printedHeader r.op (reportFields r e) []) (py "message")) maxErrorTextBytes =
        .ok (r.message e) := by
    rw [hitem]
    exact text_eq_ok.mpr ⟨rfl, hmessage⟩
  have hidField : uint r.idName
      (Json.item (printedHeader r.op (reportFields r e) []) r.idName) maxUint =
        .ok r.identifier := by
    rw [hitem]
    cases r with
    | load => exact uint_eq_ok.mpr ⟨rfl, hid⟩
    | predict => exact uint_eq_ok.mpr ⟨rfl, hid⟩
  have hid : (if r.isRequest = true then py "request_id" else py "generation") = r.idName := by
    cases r with
    | load => rfl
    | predict => rfl
  simp only [decodeError, hdec, ok_bind, hid, hkeys _ rfl, hop, hempty, hidField, hcodeField,
    hmessageField]
  rfl

/-- A failure of the backend is reported, and the worker goes on, if and only if the
report fits. -/
theorem backend_failure_reported_iff (hI : I.Lawful) {ρ : Type}
    {B : Backend ρ} {limits : WorkerLimits} {state : WorkerState ρ} {frame : Bytes} {r : Report}
    {e : Raised} (h : Raises I B limits state frame r e) :
    (∃ response state', serve I B limits state frame = .reply response state' ∧
        decodeError I response r.op r.isRequest = .ok (r.identifier, r.code e, r.message e)) ↔
      Fits r e := by
  obtain ⟨state', hserve⟩ := serve_raises h
  rw [hserve, ← exists_errorFrame_iff]
  cases hframe : errorFrame I r e with
  | error _ =>
    constructor
    · rintro ⟨_, _, hreply, -⟩
      cases hreply
    · rintro ⟨_, hok⟩
      cases hok
  | ok response =>
    exact ⟨fun _ => ⟨response, rfl⟩,
      fun _ => ⟨response, state', rfl, decodeError_errorFrame hI hframe⟩⟩

/-! ## Samples -/

/-- A backend whose every computation raises. -/
def failingBackend (e : Raised) : Backend Unit := ⟨fun _ _ _ _ => .ok (), fun _ _ => .error e⟩

def sampleLimits : WorkerLimits := ⟨8, 8, 8, 8, 8, 65536⟩

/-- A prediction of one zero. -/
def predictFrame : Bytes :=
  ((py "\x7b\"cols\":1,\"generation\":1," ++ py "\"magic\":\"EDGEAI-IPC\"," ++
    py "\"op\":\"predict\"," ++ py "\"payload_bytes\":4," ++ py "\"request_id\":1," ++
    py "\"rows\":1,\"v\":1\x7d").map fun c => byte c.val) ++ [0x0A, 0, 0, 0, 0]

theorem raises_predictFrame (e : Raised) : Raises Sample.interpreter (failingBackend e)
    sampleLimits ⟨some (), some 1⟩ predictFrame (.predict 1) e := by
  obtain ⟨_, hall⟩ : ∃ u : Unit, (do
      let decoded ← decodeFrame Sample.interpreter predictFrame (maxPayload sampleLimits)
      raiseIf (Json.pyEq (Json.item decoded.1 (py "op")) (.str (py "predict")) = false)
        (protocolError "x")
      let p ← decodePredict Sample.interpreter predictFrame 8 8 8
      raiseIf (¬(p.requestId = 1 ∧ p.generation = 1)) (protocolError "x")) = .ok u :=
    exists_ok (by decide +kernel)
  simp only [bind_eq_ok, raiseIf_eq_ok, exists_const, not_not, Bool.not_eq_false] at hall
  obtain ⟨⟨header, payload⟩, hdec, hop, ⟨requestId, generation, inputs⟩, hpredict, hrequest,
    hgeneration⟩ := hall
  dsimp only at hop hrequest hgeneration
  subst hrequest hgeneration
  exact .predict hdec (pyEq_str.mp hop) hpredict rfl rfl rfl

theorem backend_failure_reported_sample : ∃ response state',
    serve Sample.interpreter (failingBackend ⟨py "ValueError", false, py "bad input"⟩) sampleLimits
        ⟨some (), some 1⟩ predictFrame = .reply response state' ∧
      decodeError Sample.interpreter response (py "error") true =
        .ok (1, py "ValueError", py "bad input") :=
  (backend_failure_reported_iff Sample.interpreter_lawful
    (raises_predictFrame ⟨py "ValueError", false, py "bad input"⟩)).mpr
    ⟨by decide, ⟨by decide, _, rfl, by decide⟩, by decide, by decide⟩

/-- A message of 4096 letters. -/
def longMessage : Raised := ⟨py "ValueError", false, List.replicate 4096 (chr 0x78)⟩

theorem escapedLength_replicate (n : Nat) : escapedLength (List.replicate n (chr 0x78)) = n := by
  have hone : Json.escapeChar true (chr 0x78) = [chr 0x78] := by decide
  induction n with
  | zero => rfl
  | succ n ih =>
    rw [escapedLength, Json.escapeString] at ih
    rw [List.replicate_succ, escapedLength, Json.escapeString, List.flatMap_cons, hone,
      List.singleton_append, List.length_cons, ih]

/-- The message is within the bound the text check declares, and ends the worker. -/
theorem long_message_ends_worker :
    Raises Sample.interpreter (failingBackend longMessage) sampleLimits ⟨some (), some 1⟩
        predictFrame (.predict 1) longMessage ∧
      TextFits maxErrorTextBytes longMessage.message ∧
      serve Sample.interpreter (failingBackend longMessage) sampleLimits ⟨some (), some 1⟩
        predictFrame = .ends := by
  have hlen : longMessage.message.length = 4096 := List.length_replicate
  have hne : longMessage.message ≠ [] := by
    intro h
    rw [h] at hlen
    cases hlen
  have htext : TextFits maxErrorTextBytes longMessage.message := by
    refine textFits_of_escaped hne ?_ (Nat.le_of_eq (escapedLength_replicate 4096))
    refine utf8Encodable_of_ascii (s := longMessage.message) fun c hc => ?_
    rw [List.eq_of_mem_replicate hc]
    decide
  have hcut : (Report.predict 1).message longMessage = longMessage.message := by
    have htake : longMessage.message.take 4096 = longMessage.message :=
      List.take_of_length_le (Nat.le_of_eq hlen)
    show cut longMessage.message _ = _
    rw [cut, htake, if_neg hne]
  have hnot : ¬Fits (.predict 1) longMessage := by
    intro hfits
    have hle := hfits.header
    have hescaped : escapedLength longMessage.message = 4096 := escapedLength_replicate 4096
    have hmax : maxHeaderBytes = 4096 := rfl
    have hover : (Report.predict 1).overhead = 96 := rfl
    rw [hcut, hescaped, hmax, hover] at hle
    omega
  obtain ⟨state', hserve⟩ := serve_raises (raises_predictFrame longMessage)
  refine ⟨raises_predictFrame longMessage, htext, ?_⟩
  rw [hserve]
  cases hframe : errorFrame Sample.interpreter (.predict 1) longMessage with
  | error _ => rfl
  | ok frame => exact absurd (exists_errorFrame_iff.mp ⟨frame, hframe⟩) hnot

end EdgeFort.Ipc
