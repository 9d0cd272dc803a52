/-
What `encode_frame` encodes, `decode_frame` decodes.

A pair of surrogates in a string is printed as two escapes, which the scanner joins
to one character, and a header may be printed that is deeper than the scanner recurses.
Every other header comes back as it was given.
-/
import EdgeFort.Ipc.Frame
import EdgeFort.Json.Nesting

namespace EdgeFort.Ipc

open Effect

variable {I : Interpreter} {op : PyStr} {fields : List (PyStr × Json)} {payload frame : Bytes}

theorem utf8Encodable_of_ascii {s : PyStr} (hs : ∀ c ∈ s, c.val < 0x80) :
    utf8Encodable s = true := by
  rw [utf8Encodable, List.all_eq_true]
  intro c hc
  have hlt := hs c hc
  simp only [isSurrogate, Bool.not_eq_true', Bool.and_eq_false_iff, decide_eq_false_iff_not]
  omega

theorem OpFits.textFits (h : OpFits op) : TextFits 32 op := by
  obtain ⟨encoded, henc, hlen⟩ := length_utf8Encode_ascii h.2.1
  have hle := h.2.2
  exact ⟨h.1, encoded, henc, by omega⟩

/-- The header `encode_frame` prints has no key twice. -/
theorem nodup_header (hnames : NamesFit fields) (payload : Bytes) :
    ((reservedFields op payload ++ fields).map Prod.fst).Nodup := by
  have hreserved : reservedNames.Nodup := by decide
  rw [List.map_append, List.nodup_append]
  refine ⟨hreserved, hnames.1, fun a ha b hb hab => ?_⟩
  obtain ⟨f, hf, rfl⟩ := List.mem_map.mp hb
  exact (hnames.2 f hf).2 (hab ▸ ha)

theorem strict_header (hnames : NamesFit fields) (hdict : (Json.obj fields).strict = true)
    (payload : Bytes) : (Json.obj (reservedFields op payload ++ fields)).strict = true := by
  simp only [Json.strict, Bool.and_eq_true, decide_eq_true_eq, Json.strictFields_iff] at hdict ⊢
  refine ⟨nodup_header hnames payload, List.forall_mem_append.mpr ⟨?_, hdict.2⟩⟩
  simp [reservedFields, Json.strict]

theorem readable_header (hop : OpFits op) (hstrings : (Json.obj fields).readable true = true)
    (payload : Bytes) :
    (Json.obj (reservedFields op payload ++ fields)).readable true = true := by
  have hread : Json.readableString true op = true :=
    Json.readableString_of_utf8Encodable (utf8Encodable_of_ascii hop.2.1)
  simp only [Json.readable, Json.stringsAll, Json.stringsAllFields_iff] at hstrings ⊢
  refine List.forall_mem_append.mpr ⟨?_, hstrings⟩
  simp only [reservedFields, List.forall_mem_cons, Json.stringsAll]
  exact ⟨by decide, ⟨by decide, hread⟩, by decide, by decide, List.forall_mem_nil _⟩

/-- The reserved fields add no depth. -/
theorem readDepth_header (op : PyStr) (fields : List (PyStr × Json)) (payload : Bytes) :
    (Json.obj (reservedFields op payload ++ fields)).readDepth = (Json.obj fields).readDepth := by
  simp [reservedFields, Json.readDepth, Json.readDepthFields]

/-- Every field of the encoded header can be looked up in the decoded one. -/
theorem headerChecks_sorted (hop : OpFits op) (hnames : NamesFit fields) {maxPayloadBytes : Int}
    (hmax : (payload.length : Int) ≤ maxPayloadBytes) :
    HeaderChecks ((Json.sortFields (reservedFields op payload ++ fields)).insertionSort
      Json.keyLE) payload maxPayloadBytes := by
  have hnd : ((reservedFields op payload ++ fields).map Prod.fst).Nodup :=
    nodup_header hnames payload
  have hitem := Json.item_sorted hnd
  refine ⟨?_, ?_, ?_, ⟨op, ?_⟩, ?_⟩
  · rw [firstMissing, List.find?_eq_none]
    intro name hname
    rw [Json.lookup_sorted hnd, Bool.not_eq_true, Option.isNone_eq_false_iff, Option.isSome_map]
    simp only [reservedNames, List.mem_cons, List.not_mem_nil, or_false] at hname
    rcases hname with rfl | rfl | rfl | rfl <;> rfl
  · rw [hitem]
    exact Json.pyEq_refl (.str ipcMagic) rfl
  · rw [hitem]
    rfl
  · rw [hitem]
    exact text_eq_ok.mpr ⟨rfl, hop.textFits⟩
  · rw [hitem]
    exact uint_eq_ok.mpr ⟨rfl, Int.natCast_nonneg _, hmax⟩

/-- The text of a header is a line of its own. -/
theorem encodeHeader_line {header : List (PyStr × Json)} {encoded : Bytes}
    (hstrings : (Json.obj header).readable true = true)
    (h : encodeHeader I header = .ok encoded) : 0x0A ∉ encoded ∧ encoded ≠ [] ∧
      (Json.obj header).sortKeys.refusal I.dumpsNesting = none ∧
      asciiDecode encoded = .ok (Json.render I true (Json.obj header).sortKeys ++ []) := by
  obtain ⟨t, ht, henc⟩ := encodeHeader_eq_ok.mp h
  have hsorted := Json.stringsAll_sortKeys _ hstrings
  unfold Json.dumps at ht
  split at ht
  · cases ht
  · rename_i hrefusal
    obtain rfl := Except.ok.inj ht
    refine ⟨fun hmem => ?_, fun hnil => ?_, hrefusal, ?_⟩
    · refine not_mem_asciiEncode henc (n := 0x0A) (fun c hc hval => ?_) _ hmem rfl
      have hplain := Json.isPlain_iff.mp (Json.isPlain_of_mem_render hsorted c hc)
      omega
    · have hlen := (asciiEncode_bytes henc).1
      rw [hnil, Json.sortKeys] at hlen
      cases hfields : (Json.sortFields header).insertionSort Json.keyLE <;>
        simp [hfields, Json.render] at hlen
    · rw [List.append_nil, asciiDecode_encode henc]

/-- The text of a header reads back, if it is within the depth that is read. -/
theorem decodeHeader_encodeHeader (hI : I.Lawful) {header : List (PyStr × Json)} {encoded : Bytes}
    (hdict : (Json.obj header).strict = true) (hstrings : (Json.obj header).readable true = true)
    (hdepth : (Json.obj header).readDepth ≤ I.loadsNesting)
    (h : encodeHeader I header = .ok encoded) :
    decodeHeader I encoded = .ok (Json.obj header).sortKeys := by
  obtain ⟨-, -, hrefusal, hdec⟩ := encodeHeader_line hstrings h
  have hload : Json.loads I hooks (Json.render I true (Json.obj header).sortKeys ++ []) = _ :=
    Json.loads_readable hI (Json.strict_sortKeys _ hdict) (Json.stringsAll_sortKeys _ hstrings)
      hrefusal ((Json.readDepth_sortKeys (.obj header)).symm ▸ hdepth) rfl
  rw [decodeHeader, hdec, ok_bind, hload]

theorem decodeHeader_overflows (hI : I.Lawful) {header : List (PyStr × Json)} {encoded : Bytes}
    (hdict : (Json.obj header).strict = true) (hstrings : (Json.obj header).readable true = true)
    (hdepth : I.loadsNesting < (Json.obj header).readDepth)
    (h : encodeHeader I header = .ok encoded) : Json.Recurses (decodeHeader I encoded) := by
  obtain ⟨-, -, hrefusal, hdec⟩ := encodeHeader_line hstrings h
  have hsorted := Json.stringsAll_sortKeys _ hstrings
  obtain ⟨e, herr, he⟩ : Json.Recurses (Json.decode I hooks
      (Json.render I true (Json.obj header).sortKeys ++ [])) :=
    Json.decode_overflows hI (Json.strict_sortKeys _ hdict) hsorted hrefusal
      ((Json.readDepth_sortKeys (.obj header)).symm ▸ hdepth) rfl
  refine ⟨e, ?_, he⟩
  rw [decodeHeader, hdec, ok_bind, Json.loads_eq_decode hsorted, herr]
  simp [he]

/-- The header of a frame, as it is printed. -/
def printedHeader (op : PyStr) (fields : List (PyStr × Json)) (payload : Bytes) :
    List (PyStr × Json) :=
  (Json.sortFields (reservedFields op payload ++ fields)).insertionSort Json.keyLE

/-- An encoded frame is a line and the payload, and decodes to the printed header. -/
theorem decodeFrame_encodeFrame (hI : I.Lawful) {maxPayloadBytes : Int}
    (hdict : (Json.obj fields).strict = true) (hstrings : (Json.obj fields).readable true = true)
    (hdepth : (Json.obj fields).readDepth ≤ I.loadsNesting)
    (hframe : encodeFrame I op fields payload = .ok frame)
    (hmax : (payload.length : Int) ≤ maxPayloadBytes) :
    (∃ encoded, frame = encoded ++ 0x0A :: payload ∧ 0x0A ∉ encoded) ∧
      decodeFrame I frame maxPayloadBytes = .ok (printedHeader op fields payload, payload) := by
  obtain ⟨hop, hnames, encoded, henc, hle, rfl⟩ := encodeFrame_eq_ok.mp hframe
  have hheader := readable_header hop hstrings payload
  obtain ⟨hbreak, hne, -⟩ := encodeHeader_line hheader henc
  have hdec := decodeHeader_encodeHeader hI (strict_header hnames hdict payload) hheader
    ((readDepth_header op fields payload).symm ▸ hdepth) henc
  exact ⟨⟨encoded, rfl, hbreak⟩, decodeFrame_eq_ok.mpr ⟨by omega, encoded, rfl, hbreak, hne, hle,
    hdec, headerChecks_sorted hop hnames hmax⟩⟩

/-- A frame is decoded to its payload and to the fields it was encoded from, if they nest no
deeper than is read.  The line break after the header is the first one in the frame. -/
theorem decode_encode_frame (hI : I.Lawful) {maxPayloadBytes : Int}
    (hdict : (Json.obj fields).strict = true) (hstrings : (Json.obj fields).readable true = true)
    (hdepth : (Json.obj fields).readDepth ≤ I.loadsNesting)
    (hframe : encodeFrame I op fields payload = .ok frame)
    (hmax : (payload.length : Int) ≤ maxPayloadBytes) :
    ∃ encoded header, frame = encoded ++ 0x0A :: payload ∧ 0x0A ∉ encoded ∧
      decodeFrame I frame maxPayloadBytes = .ok (header, payload) ∧
      (Json.obj header).same (.obj (reservedFields op payload ++ fields)) = true := by
  obtain ⟨⟨encoded, hline, hbreak⟩, hdec⟩ :=
    decodeFrame_encodeFrame hI hdict hstrings hdepth hframe hmax
  have hstrict : (Json.obj (reservedFields op payload ++ fields)).strict = true :=
    strict_header (encodeFrame_eq_ok.mp hframe).2.1 hdict payload
  refine ⟨encoded, _, hline, hbreak, hdec, ?_⟩
  exact Json.same_of_sortKeys_eq (Json.obj _).sortKeys _ hstrict (Json.sortKeys_sortKeys _)

/-- A frame whose fields nest deeper than is read is not decoded, whatever the payload bound. -/
theorem decodeFrame_overflows (hI : I.Lawful) {maxPayloadBytes : Int}
    (hdict : (Json.obj fields).strict = true) (hstrings : (Json.obj fields).readable true = true)
    (hdepth : I.loadsNesting < (Json.obj fields).readDepth)
    (hframe : encodeFrame I op fields payload = .ok frame) (hmax : 0 ≤ maxPayloadBytes) :
    Json.Recurses (decodeFrame I frame maxPayloadBytes) := by
  obtain ⟨hop, hnames, encoded, henc, hle, rfl⟩ := encodeFrame_eq_ok.mp hframe
  have hheader := readable_header hop hstrings payload
  obtain ⟨hbreak, hne, -⟩ := encodeHeader_line hheader henc
  obtain ⟨e, herr, he⟩ := decodeHeader_overflows hI (strict_header hnames hdict payload) hheader
    ((readDepth_header op fields payload).symm ▸ hdepth) henc
  exact ⟨e, decodeFrame_eq_error hmax hbreak hne hle herr, he⟩

/-! ## Fields of a decoded frame -/

/-- A field of the printed header is the field that was encoded. -/
theorem item_printedHeader (hnames : NamesFit fields) (k : PyStr) :
    Json.item (printedHeader op fields payload) k =
      (Json.item (reservedFields op payload ++ fields) k).sortKeys :=
  Json.item_sorted (nodup_header hnames payload) k

theorem keysAre_printedHeader (hnames : NamesFit fields) {keys : List PyStr}
    (h : Json.keysAre (reservedFields op payload ++ fields) keys = true) :
    Json.keysAre (printedHeader op fields payload) keys = true :=
  Json.keysAre_sorted (nodup_header hnames payload) h

/-! ## Samples -/

/-- A line break, a quote and a lone surrogate, in a header whose payload has line
breaks of its own. -/
def sampleFields : List (PyStr × Json) :=
  [(py "note", .str [chr 0x0A, chr 0x22, chr 0xD800, chr 0xE9]), (py "ids", .arr [.int (-7), .null])]

theorem decode_encode_frame_sample : ∃ frame encoded header,
    encodeFrame Sample.interpreter (py "x") sampleFields [0x0A, 0x7B, 0x0A] = .ok frame ∧
    frame = encoded ++ 0x0A :: [0x0A, 0x7B, 0x0A] ∧ 0x0A ∉ encoded ∧
    decodeFrame Sample.interpreter frame 3 = .ok (header, [0x0A, 0x7B, 0x0A]) ∧
    (Json.obj header).same
      (.obj (reservedFields (py "x") [0x0A, 0x7B, 0x0A] ++ sampleFields)) = true := by
  obtain ⟨frame, hframe⟩ : ∃ frame, encodeFrame Sample.interpreter (py "x") sampleFields
      [0x0A, 0x7B, 0x0A] = .ok frame := exists_ok (by rfl)
  obtain ⟨encoded, header, h⟩ := decode_encode_frame Sample.interpreter_lawful
    (by rfl) (by rfl) (by decide) hframe
    (show (([0x0A, 0x7B, 0x0A] : Bytes).length : Int) ≤ 3 by decide)
  exact ⟨frame, encoded, header, hframe, h⟩

/-- A string of two surrogates. -/
def surrogatePair : List (PyStr × Json) := [(py "k", .str [chr 0xD800, chr 0xDC00])]

/-- The pair comes back as one character. -/
theorem surrogate_pair_joined : (Json.obj surrogatePair).strict = true ∧
    ∃ frame header, encodeFrame Sample.interpreter (py "x") surrogatePair [] = .ok frame ∧
      decodeFrame Sample.interpreter frame 0 = .ok (header, []) ∧
      Json.item header (py "k") = .str [chr 0x10000] ∧
      (Json.obj header).same (.obj (reservedFields (py "x") [] ++ surrogatePair)) = false := by
  refine ⟨by rfl, ?_⟩
  obtain ⟨⟨frame, header, payload⟩, hall⟩ : ∃ r : Bytes × List (PyStr × Json) × Bytes, (do
      let frame ← encodeFrame Sample.interpreter (py "x") surrogatePair []
      let decoded ← decodeFrame Sample.interpreter frame 0
      raiseIf (¬(decoded.2 = [] ∧
        (Json.item decoded.1 (py "k")).same (.str [chr 0x10000]) = true ∧
        (Json.obj decoded.1).same (.obj (reservedFields (py "x") [] ++ surrogatePair)) = false))
        (protocolError "x")
      return (frame, decoded)) = .ok r := exists_ok (by decide +kernel)
  simp only [bind_eq_ok, raiseIf_eq_ok, exists_const, pure_eq_ok, not_not, Prod.mk.injEq] at hall
  obtain ⟨frame', hframe, ⟨header', payload'⟩, hdec, ⟨hpayload, hitem, hsame⟩, -⟩ := hall
  simp only at hpayload hitem hsame
  refine ⟨frame', header', hframe, hpayload ▸ hdec, ?_, hsame⟩
  cases hk : Json.item header' (py "k") <;> simp_all [Json.same]

/-- A field of two lists around an empty object. -/
def deepField : List (PyStr × Json) := [(py "k", .arr [.arr [.obj []]])]

/-- It is printed with four levels of recursion, and takes a fifth to be read. -/
theorem deep_field_refused : ∃ frame,
    encodeFrame Sample.shallowInterpreter (py "x") deepField [] = .ok frame ∧
      Json.Recurses (decodeFrame Sample.shallowInterpreter frame 0) := by
  obtain ⟨frame, hframe⟩ : ∃ frame, encodeFrame Sample.shallowInterpreter (py "x") deepField [] =
      .ok frame := exists_ok (by rfl)
  exact ⟨frame, hframe, decodeFrame_overflows Sample.shallowInterpreter_lawful (by rfl)
    (by rfl) (by decide) hframe (le_refl 0)⟩

/-- Two frames that are encoded and do not come back as they were. -/
theorem round_trip_fails :
    ((Json.obj surrogatePair).strict = true ∧
      ∃ frame header, encodeFrame Sample.interpreter (py "x") surrogatePair [] = .ok frame ∧
        decodeFrame Sample.interpreter frame 0 = .ok (header, []) ∧
        (Json.obj header).same (.obj (reservedFields (py "x") [] ++ surrogatePair)) = false) ∧
    (Json.obj deepField).strict = true ∧
      ∃ frame, encodeFrame Sample.shallowInterpreter (py "x") deepField [] = .ok frame ∧
        ∃ e, decodeFrame Sample.shallowInterpreter frame 0 = .error e := by
  obtain ⟨hstrict, frame, header, hframe, hdec, -, hsame⟩ := surrogate_pair_joined
  obtain ⟨deep, hdeep, e, he, -⟩ := deep_field_refused
  exact ⟨⟨hstrict, frame, header, hframe, hdec, hsame⟩, by rfl, deep, hdeep, e, he⟩

end EdgeFort.Ipc
