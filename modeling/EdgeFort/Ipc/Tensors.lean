/-
Tensors from one end to the other (`ipc.py`): which of them `encode_predict` and
`encode_result` encode, and what the other end decodes.

Every field of their headers is a number, so a header is never too long.
-/
import EdgeFort.Ipc.ErrorReports
import EdgeFort.Ipc.Replies
import EdgeFort.Json.Size
import Mathlib.Algebra.Order.BigOperators.Group.List

namespace EdgeFort.Ipc

open Effect

variable {I : Interpreter}

/-- The bound on the payload makes no other difference to what is decoded. -/
theorem decodeFrame_iff {frame payload : Bytes} {header : List (PyStr × Json)} {m n : Int}
    (h : decodeFrame I frame n = .ok (header, payload)) {q : List (PyStr × Json) × Bytes} :
    decodeFrame I frame m = .ok q ↔ q = (header, payload) ∧ (payload.length : Int) ≤ m := by
  obtain ⟨-, line, hframe, hbreak, hne, hle, hdec, hchecks⟩ := decodeFrame_eq_ok.mp h
  obtain ⟨hitem, hpos, -⟩ := uint_eq_ok.mp hchecks.length
  have hterm := terminator_eq_some.mpr ⟨line, payload, hframe, hbreak, hle, rfl⟩
  constructor
  · intro hq
    obtain ⟨header', payload'⟩ := q
    obtain ⟨-, line', hframe', hbreak', -, hle', hdec', hchecks'⟩ := decodeFrame_eq_ok.mp hq
    have hlen := terminator_eq_some.mpr ⟨line', payload', hframe', hbreak', hle', rfl⟩
    rw [hterm, Option.some.injEq] at hlen
    rw [hframe] at hframe'
    obtain ⟨rfl, hrest⟩ := List.append_inj hframe' hlen
    obtain rfl := (List.cons.inj hrest).2
    rw [hdec, Except.ok.injEq, Json.obj.injEq] at hdec'
    obtain rfl := hdec'
    exact ⟨rfl, (uint_eq_ok.mp hchecks'.length).2.2⟩
  · rintro ⟨rfl, hm⟩
    exact decodeFrame_eq_ok.mpr ⟨hpos.trans hm, line, hframe, hbreak, hne, hle, hdec,
      hchecks.present, hchecks.magic, hchecks.version, hchecks.op,
      uint_eq_ok.mpr ⟨hitem, hpos, hm⟩⟩

/-! ## Headers of numbers -/

def countFields (counts : List (PyStr × Nat)) : List (PyStr × Json) :=
  counts.map fun f => (f.1, .int f.2)

/-- An operation and the names of its fields that make a header, whatever numbers of twenty
digits the fields have. -/
def CountsHeader (op : PyStr) (names : List PyStr) : Prop :=
  (op ≠ [] ∧ op.all isAscii = true ∧ op.length ≤ 32) ∧
    (names.Nodup ∧ ∀ k ∈ names, k ≠ [] ∧ k ∉ reservedNames) ∧
    (∀ k ∈ names, Json.readableString true k = true) ∧
    escapedLength op + (names.map fun k => escapedLength k + 24).sum + 73 ≤ maxHeaderBytes

instance (op : PyStr) (names : List PyStr) : Decidable (CountsHeader op names) :=
  inferInstanceAs (Decidable (_ ∧ _))

variable {op : PyStr} {counts : List (PyStr × Nat)} {payload frame : Bytes}

theorem map_fst_countFields : (countFields counts).map Prod.fst = counts.map Prod.fst := by
  rw [countFields, List.map_map]
  rfl

theorem mem_countFields {f : PyStr × Json} (hf : f ∈ countFields counts) :
    ∃ g ∈ counts, f = (g.1, .int g.2) := by
  obtain ⟨g, hg, rfl⟩ := List.mem_map.mp hf
  exact ⟨g, hg, rfl⟩

namespace CountsHeader

theorem opFits {names : List PyStr} (h : CountsHeader op names) : OpFits op :=
  ⟨h.1.1, lt_of_isAscii h.1.2.1, h.1.2.2⟩

theorem namesFit (h : CountsHeader op (counts.map Prod.fst)) : NamesFit (countFields counts) := by
  obtain ⟨-, ⟨hnodup, hnames⟩, -, -⟩ := h
  refine ⟨map_fst_countFields ▸ hnodup, fun f hf => ?_⟩
  obtain ⟨g, hg, rfl⟩ := mem_countFields hf
  exact hnames g.1 (List.mem_map_of_mem hg)

theorem strict (h : CountsHeader op (counts.map Prod.fst)) :
    (Json.obj (countFields counts)).strict = true := by
  rw [Json.strict, Bool.and_eq_true, decide_eq_true_eq, Json.strictFields_iff]
  refine ⟨h.namesFit.1, fun f hf => ?_⟩
  obtain ⟨g, -, rfl⟩ := mem_countFields hf
  rfl

theorem readable (h : CountsHeader op (counts.map Prod.fst)) :
    (Json.obj (countFields counts)).readable true = true := by
  obtain ⟨-, -, hread, -⟩ := h
  rw [Json.readable, Json.stringsAll, Json.stringsAllFields_iff]
  intro f hf
  obtain ⟨g, hg, rfl⟩ := mem_countFields hf
  exact ⟨hread g.1 (List.mem_map_of_mem hg), rfl⟩

theorem readDepth (counts : List (PyStr × Nat)) :
    (Json.obj (countFields counts)).readDepth ≤ I.loadsNesting := by
  refine Json.readDepth_flat I (Nat.le_zero.mp (Json.readDepthFields_le.mpr fun f hf => ?_))
  obtain ⟨g, -, rfl⟩ := mem_countFields hf
  exact le_refl 0

/-- A number of twenty digits. -/
theorem length_count {n : Nat} (hn : n < 10 ^ 20) :
    (Json.decimal n).length ≤ 20 ∧ (Json.intRepr n).length ≤ 20 := by
  have hlen := Json.length_decimal (by decide) hn
  have hpos : ¬(n : Int) < 0 := by omega
  rw [Json.intRepr, if_neg hpos, Int.natAbs_natCast]
  exact ⟨hlen, hlen⟩

theorem refusal (hcounts : ∀ f ∈ counts, f.2 < 10 ^ 20)
    (hpayload : payload.length < 10 ^ 20) :
    (Json.obj (reservedFields op payload ++ countFields counts)).refusal I.dumpsNesting = none := by
  have hint : ∀ {n m : Nat}, n < 10 ^ 20 → (Json.int n).refusal m = none := by
    intro n m hn
    have hlen := (length_count hn).1
    have hmax : ¬Json.maxStrDigits < (Json.decimal (n : Int).natAbs).length := by
      show ¬4300 < _
      rw [Int.natAbs_natCast]
      omega
    rw [Json.refusal, if_neg hmax]
  have hroom := I.dumpsNesting_ge
  obtain ⟨n, hn⟩ : ∃ n, I.dumpsNesting = n + 1 := ⟨I.dumpsNesting - 1, by omega⟩
  rw [hn, Json.refusal_obj, Json.refusalFields_eq_none]
  refine ⟨Json.sorts_of_pos (by omega) _, List.forall_mem_append.mpr ⟨?_, fun f hf => ?_⟩⟩
  · simp only [reservedFields, List.forall_mem_cons]
    exact ⟨rfl, rfl, hint hpayload, hint (n := 1) (by decide), List.forall_mem_nil _⟩
  · obtain ⟨g, hg, rfl⟩ := mem_countFields hf
    exact hint (hcounts g hg)

theorem length_header (h : CountsHeader op (counts.map Prod.fst))
    (hcounts : ∀ f ∈ counts, f.2 < 10 ^ 20) (hpayload : payload.length < 10 ^ 20) :
    (Json.render I true
      (Json.obj (reservedFields op payload ++ countFields counts)).sortKeys).length ≤
        maxHeaderBytes := by
  have hstring : ∀ s : PyStr, (Json.renderString true s).length = escapedLength s + 2 := by
    intro s
    simp [Json.renderString, escapedLength]
  have hfixed : escapedLength (py "magic") = 5 ∧ escapedLength ipcMagic = 10 ∧
      escapedLength (py "op") = 2 ∧ escapedLength (py "payload_bytes") = 13 ∧
      escapedLength (py "v") = 1 ∧ (Json.intRepr ipcVersion).length = 1 := by decide
  obtain ⟨h₁, h₂, h₃, h₄, h₅, h₆⟩ := hfixed
  have hitems : ((countFields counts).map fun f => Json.itemLength I true (f.1, f.2.sortKeys)).sum
      ≤ ((counts.map Prod.fst).map fun k => escapedLength k + 24).sum := by
    rw [countFields, List.map_map, List.map_map]
    refine List.sum_le_sum fun f hf => ?_
    have hlen := (length_count (hcounts f hf)).2
    simp only [Function.comp_apply, Json.itemLength, Json.sortKeys, Json.render, hstring]
    omega
  have hreserved : ((reservedFields op payload).map fun f =>
      Json.itemLength I true (f.1, f.2.sortKeys)).sum ≤ escapedLength op + 72 := by
    have hlen := (length_count hpayload).2
    simp only [reservedFields, List.map_cons, List.map_nil, List.sum_cons, List.sum_nil,
      Json.itemLength, Json.sortKeys, Json.render, hstring, h₁, h₂, h₃, h₄, h₅, h₆]
    omega
  obtain ⟨-, -, -, hmax⟩ := h
  rw [Json.length_render_sortKeys (by simp [reservedFields]), List.map_append, List.sum_append]
  omega

/-- Such a frame can be built. -/
theorem exists_encodeFrame (h : CountsHeader op (counts.map Prod.fst))
    (hcounts : ∀ f ∈ counts, f.2 < 10 ^ 20) (hpayload : payload.length < 10 ^ 20) :
    ∃ frame, encodeFrame I op (countFields counts) payload = .ok frame := by
  have hrefusal : (Json.obj (reservedFields op payload ++ countFields counts)).sortKeys.refusal
      I.dumpsNesting = none := Json.refusal_sortKeys (refusal hcounts hpayload)
  have hstrings : (Json.obj (reservedFields op payload ++ countFields counts)).stringsAll
      (fun _ => true) = true := by
    rw [Json.stringsAll, Json.stringsAllFields_iff]
    refine List.forall_mem_append.mpr ⟨?_, fun f hf => ?_⟩
    · simp [reservedFields, Json.stringsAll]
    · obtain ⟨g, -, rfl⟩ := mem_countFields hf
      exact ⟨rfl, rfl⟩
  have hascii := asciiEncode_eq_ok.mpr ⟨fun c hc => by
    have hplain := Json.isPlain_iff.mp
      (Json.isPlain_of_mem_render (I := I) (Json.stringsAll_sortKeys _ hstrings) c hc)
    omega, rfl⟩
  refine ⟨_, encodeFrame_eq_ok.mpr ⟨h.opFits, h.namesFit, _, encodeHeader_eq_ok.mpr ⟨_, ?_, hascii⟩,
    ?_, rfl⟩⟩
  · rw [Json.dumps, hrefusal]
  · rw [(asciiEncode_bytes hascii).1]
    exact h.length_header hcounts hpayload

/-- It is decoded to its header, as it is printed, and its payload. -/
theorem decodeFrame_eq (hI : I.Lawful) (h : CountsHeader op (counts.map Prod.fst))
    (hframe : encodeFrame I op (countFields counts) payload = .ok frame) {maxPayloadBytes : Int}
    (hmax : (payload.length : Int) ≤ maxPayloadBytes) :
    decodeFrame I frame maxPayloadBytes =
      .ok (printedHeader op (countFields counts) payload, payload) :=
  (decodeFrame_encodeFrame hI h.strict h.readable (readDepth counts) hframe hmax).2

theorem item_eq (h : CountsHeader op (counts.map Prod.fst)) (k : PyStr) (payload : Bytes) :
    Json.item (printedHeader op (countFields counts) payload) k =
      (Json.item (reservedFields op payload ++ countFields counts) k).sortKeys :=
  item_printedHeader h.namesFit k

end CountsHeader

/-! ## Tensors -/

/-- A tensor of rank 2 that passes the checks of a receiver. -/
structure TensorFits (a : NdArray UInt32) (rows cols : Nat) (maxRows maxCols maxValues : Int) :
    Prop where
  shape : a.shape = [rows, cols]
  pos : 1 ≤ rows ∧ 1 ≤ cols
  rows_le : (rows : Int) ≤ maxRows
  cols_le : (cols : Int) ≤ maxCols
  size_le : (rows * cols : Int) ≤ maxValues
  finite : a.data.all isfinite32 = true

namespace TensorFits

variable {a : NdArray UInt32} {rows cols : Nat} {maxRows maxCols maxValues : Int}

theorem length_payload (h : TensorFits a rows cols maxRows maxCols maxValues) :
    (tobytes32 a.data).length = rows * cols * 4 := by
  rw [length_tobytes32, NdArray.length_data h.shape]

theorem payload_le (h : TensorFits a rows cols maxRows maxCols maxValues) :
    ((tobytes32 a.data).length : Int) ≤ maxValues * 4 := by
  have hsize := h.size_le
  rw [h.length_payload]
  push_cast
  omega

end TensorFits

/-- The numbers a tensor's header can have. -/
theorem payload_lt {rows cols : Nat} (hrows : (rows : Int) ≤ maxDimension)
    (hcols : (cols : Int) ≤ maxDimension) : rows * cols * 4 < 10 ^ 20 := by
  have hmax : maxDimension = 2147483647 := rfl
  have hmul : rows * cols ≤ 2147483647 * 2147483647 := Nat.mul_le_mul (by omega) (by omega)
  omega

/-- An identifier that a frame can carry. -/
def InRange (n : Int) : Prop := 0 ≤ n ∧ n ≤ maxUint

theorem InRange.exists_nat {n : Int} (h : InRange n) : ∃ k : Nat, n = k ∧ k < 10 ^ 20 := by
  have hmax : maxUint = 9223372036854775807 := rfl
  obtain ⟨k, rfl⟩ := Int.eq_ofNat_of_zero_le h.1
  have hle := h.2
  exact ⟨k, rfl, by omega⟩

theorem uint_count {name : PyStr} {n : Nat} {maximum m : Int} :
    uint name (.int n) maximum = .ok m ↔ m = n ∧ (n : Int) ≤ maximum := by
  rw [uint_eq_ok, Json.int.injEq]
  constructor
  · rintro ⟨rfl, -, hle⟩
    exact ⟨rfl, hle⟩
  · rintro ⟨rfl, hle⟩
    exact ⟨rfl, Int.natCast_nonneg n, hle⟩

theorem uint_inRange {name : PyStr} {z m : Int} :
    uint name (.int z) maxUint = .ok m ↔ ∃ n : Nat, (z = n ∧ InRange n) ∧ m = n := by
  rw [uint_eq_ok, Json.int.injEq]
  constructor
  · rintro ⟨rfl, hrange⟩
    obtain ⟨n, rfl⟩ := Int.eq_ofNat_of_zero_le hrange.1
    exact ⟨n, ⟨rfl, hrange⟩, rfl⟩
  · rintro ⟨n, ⟨rfl, hrange⟩, rfl⟩
    exact ⟨rfl, hrange⟩

/-! ## The frame of a tensor -/

namespace CountsHeader

variable {counts : List (PyStr × Nat)} {a : NdArray UInt32} {rows cols : Nat}

theorem exists_tensorFrame (h : CountsHeader op (counts.map Prod.fst))
    (hshape : a.shape = [rows, cols])
    (hdims : (rows : Int) ≤ maxDimension ∧ (cols : Int) ≤ maxDimension)
    (hcounts : ∀ f ∈ counts, f.2 < 10 ^ 20) :
    ∃ frame, encodeFrame I op (countFields counts) (tobytes32 a.data) = .ok frame := by
  refine h.exists_encodeFrame hcounts ?_
  rw [length_tobytes32, NdArray.length_data hshape]
  exact payload_lt hdims.1 hdims.2

/-- It is decoded to its payload and a header that is as expected. -/
theorem decode_tensorFrame (hI : I.Lawful) (h : CountsHeader op (counts.map Prod.fst))
    (hshape : a.shape = [rows, cols])
    (hframe : encodeFrame I op (countFields counts) (tobytes32 a.data) = .ok frame) :
    ∃ header, decodeFrame I frame (rows * cols * 4 : Nat) = .ok (header, tobytes32 a.data) ∧
      requireFields header (counts.map Prod.fst) = .ok () ∧
      Json.item header (py "op") = .str op ∧ expectOp header op = .ok () ∧
      ∀ k, Json.item header k =
        (Json.item (reservedFields op (tobytes32 a.data) ++ countFields counts) k).sortKeys := by
  have hlen : (tobytes32 a.data).length = rows * cols * 4 := by
    rw [length_tobytes32, NdArray.length_data hshape]
  have hdec := h.decodeFrame_eq hI hframe (le_refl _)
  rw [hlen] at hdec
  have hitem := fun k => h.item_eq k (tobytes32 a.data)
  have hop : Json.item (printedHeader op (countFields counts) (tobytes32 a.data)) (py "op") =
      .str op := hitem (py "op")
  have hkeys : Json.keysAre (reservedFields op (tobytes32 a.data) ++ countFields counts)
      (reservedNames ++ counts.map Prod.fst) = true := by
    have hall := Json.keysAre_map_fst (reservedFields op (tobytes32 a.data) ++ countFields counts)
    rwa [List.map_append, map_fst_countFields] at hall
  have hsame : Json.pyEq (.str op) (.str op) = true := Json.pyEq_refl _ rfl
  refine ⟨_, hdec, ?_, hop, ?_, hitem⟩
  · rw [requireFields, keysAre_printedHeader h.namesFit hkeys]
    rfl
  · rw [expectOp, hop, hsame]
    rfl

end CountsHeader

/-! ## Predictions -/

def predictFields (cols generation requestId rows : Nat) : List (PyStr × Nat) :=
  [(py "cols", cols), (py "generation", generation), (py "request_id", requestId),
    (py "rows", rows)]

theorem countsHeader_predict (cols generation requestId rows : Nat) :
    CountsHeader (py "predict") ((predictFields cols generation requestId rows).map Prod.fst) := by
  show CountsHeader (py "predict") [py "cols", py "generation", py "request_id", py "rows"]
  decide

variable {p : Predict} {rows cols : Nat} {maxBatch maxFeatures maxValues : Int}

theorem encodePredict_eq_ok (hshape : p.inputs.shape = [rows, cols]) :
    encodePredict I p = .ok frame ↔
      ((rows : Int) ≤ maxDimension ∧ (cols : Int) ≤ maxDimension) ∧
        ∃ generation requestId : Nat, p.generation = generation ∧ p.requestId = requestId ∧
          InRange generation ∧ InRange requestId ∧
          encodeFrame I (py "predict") (countFields (predictFields cols generation requestId rows))
            (tobytes32 p.inputs.data) = .ok frame := by
  rw [encodePredict, hshape]
  simp only [bind_eq_ok, uint_count, uint_inRange]
  constructor
  · rintro ⟨_, ⟨rfl, hcols⟩, _, ⟨g, ⟨hg, hgeneration⟩, rfl⟩, _, ⟨r, ⟨hr, hrequest⟩, rfl⟩, _,
      ⟨rfl, hrows⟩, hframe⟩
    exact ⟨⟨hrows, hcols⟩, g, r, hg, hr, hgeneration, hrequest, hframe⟩
  · rintro ⟨⟨hrows, hcols⟩, g, r, hg, hr, hgeneration, hrequest, hframe⟩
    exact ⟨_, ⟨rfl, hcols⟩, _, ⟨g, ⟨hg, hgeneration⟩, rfl⟩, _, ⟨r, ⟨hr, hrequest⟩, rfl⟩, _,
      ⟨rfl, hrows⟩, hframe⟩

theorem exists_shape_of_encode (h : encodePredict I p = .ok frame) :
    ∃ rows cols, p.inputs.shape = [rows, cols] := by
  unfold encodePredict at h
  split at h
  · rename_i rows cols hshape
    exact ⟨rows, cols, hshape⟩
  · cases h

/-- Which predictions can be encoded. -/
theorem exists_encodePredict_iff (hshape : p.inputs.shape = [rows, cols]) :
    (∃ frame, encodePredict I p = .ok frame) ↔
      ((rows : Int) ≤ maxDimension ∧ (cols : Int) ≤ maxDimension) ∧
        InRange p.generation ∧ InRange p.requestId := by
  simp only [encodePredict_eq_ok hshape]
  constructor
  · rintro ⟨frame, hdims, g, r, hg, hr, hgeneration, hrequest, -⟩
    rw [hg, hr]
    exact ⟨hdims, hgeneration, hrequest⟩
  · rintro ⟨hdims, hgeneration, hrequest⟩
    have hmax : maxDimension = 2147483647 := rfl
    obtain ⟨g, hg, hglt⟩ := hgeneration.exists_nat
    obtain ⟨r, hr, hrlt⟩ := hrequest.exists_nat
    have hcounts : ∀ f ∈ predictFields cols g r rows, f.2 < 10 ^ 20 := by
      simp only [predictFields, List.forall_mem_cons]
      exact ⟨by omega, hglt, hrlt, by omega, List.forall_mem_nil _⟩
    obtain ⟨frame, hframe⟩ :=
      (countsHeader_predict cols g r rows).exists_tensorFrame hshape hdims hcounts
    exact ⟨frame, hdims, g, r, hg, hr, hg ▸ hgeneration, hr ▸ hrequest, hframe⟩

/-- A frame of a tensor is not longer than its bounds allow. -/
theorem TensorFits.length_frame {a : NdArray UInt32}
    (h : TensorFits a rows cols maxBatch maxFeatures maxValues) {fields : List (PyStr × Json)}
    (hframe : encodeFrame I op fields (tobytes32 a.data) = .ok frame) :
    2 ≤ frame.length ∧ (frame.length : Int) ≤ maxHeaderBytes + 1 + maxValues * 4 := by
  have hpayload := h.payload_le
  have hlen := h.length_payload
  have hpos := Nat.mul_pos h.pos.1 h.pos.2
  obtain ⟨-, -, encoded, -, hle, rfl⟩ := encodeFrame_eq_ok.mp hframe
  rw [List.length_append, List.length_cons]
  omega

/-- A prediction is decoded to itself, under limits that it keeps. -/
theorem decodePredict_encodePredict (hI : I.Lawful) (hshape : p.inputs.shape = [rows, cols])
    (hframe : encodePredict I p = .ok frame) :
    (∃ header, decodeFrame I frame (rows * cols * 4 : Nat) = .ok (header, tobytes32 p.inputs.data) ∧
      Json.item header (py "op") = .str (py "predict")) ∧
    ∀ q, decodePredict I frame maxBatch maxFeatures maxValues = .ok q ↔
      q = p ∧ TensorFits p.inputs rows cols maxBatch maxFeatures maxValues := by
  obtain ⟨hdims, g, r, hg, hr, hgeneration, hrequest, hencoded⟩ :=
    (encodePredict_eq_ok hshape).mp hframe
  obtain ⟨header, hdec, hfields, hop, hexpect, hitem⟩ :=
    (countsHeader_predict cols g r rows).decode_tensorFrame hI hshape hencoded
  refine ⟨⟨header, hdec, hop⟩, fun q => ?_⟩
  have hlen : (tobytes32 p.inputs.data).length = rows * cols * 4 := by
    rw [length_tobytes32, NdArray.length_data hshape]
  have hnames : requireFields header [py "cols", py "generation", py "request_id", py "rows"] =
      .ok () := hfields
  have hrows : Json.item header (py "rows") = .int rows := hitem (py "rows")
  have hcols : Json.item header (py "cols") = .int cols := hitem (py "cols")
  have hid : Json.item header (py "request_id") = .int r := hitem (py "request_id")
  have hgen : Json.item header (py "generation") = .int g := hitem (py "generation")
  simp only [decodePredict, bind_eq_ok, decodeFrame_iff hdec, and_assoc, exists_eq_left,
    hnames, hexpect, hrows, hcols, hid, hgen, raiseIf_eq_ok, exists_const, uint_eq_ok,
    Json.int.injEq, pure_eq_ok, exists_eq_left', Int.toNat_natCast, reshape32_tobytes32 hshape,
    hlen, Except.ok.injEq, true_and]
  constructor
  · rintro ⟨hmax, -, -, -, -, -, hrowsLe, -, hcolsLe, hbounds, -, hfinite, rfl⟩
    rw [← hg, ← hr]
    exact ⟨rfl, hshape, ⟨by omega, by omega⟩, hrowsLe, hcolsLe, by omega,
      Bool.eq_true_of_not_eq_false hfinite⟩
  · rintro ⟨rfl, hfits⟩
    have hrowsPos := hfits.pos.1
    have hcolsPos := hfits.pos.2
    have hsize := hfits.size_le
    have hpayload := hfits.payload_le
    rw [hlen] at hpayload
    refine ⟨hpayload, hrequest.1, hrequest.2, hgeneration.1, hgeneration.2, Int.natCast_nonneg _,
      hfits.rows_le, Int.natCast_nonneg _, hfits.cols_le, by omega, ?_, ?_, ?_⟩
    · push_cast
      exact not_not.mpr rfl
    · rw [hfits.finite]
      decide
    · rw [← hg, ← hr]

/-! ## Results -/

def resultFields (cols requestId rows : Nat) : List (PyStr × Nat) :=
  [(py "cols", cols), (py "request_id", requestId), (py "rows", rows)]

theorem countsHeader_result (cols requestId rows : Nat) :
    CountsHeader (py "result") ((resultFields cols requestId rows).map Prod.fst) := by
  show CountsHeader (py "result") [py "cols", py "request_id", py "rows"]
  decide

variable {requestId maxClasses : Int} {logits : NdArray UInt32}

theorem encodeResult_eq_ok (hshape : logits.shape = [rows, cols]) :
    encodeResult I requestId logits = .ok frame ↔
      ((rows : Int) ≤ maxDimension ∧ (cols : Int) ≤ maxDimension) ∧
        ∃ request : Nat, requestId = request ∧ InRange request ∧
          encodeFrame I (py "result") (countFields (resultFields cols request rows))
            (tobytes32 logits.data) = .ok frame := by
  rw [encodeResult, hshape]
  simp only [bind_eq_ok, uint_count, uint_inRange]
  constructor
  · rintro ⟨_, ⟨rfl, hcols⟩, _, ⟨r, ⟨rfl, hrequest⟩, rfl⟩, _, ⟨rfl, hrows⟩, hframe⟩
    exact ⟨⟨hrows, hcols⟩, r, rfl, hrequest, hframe⟩
  · rintro ⟨⟨hrows, hcols⟩, r, rfl, hrequest, hframe⟩
    exact ⟨_, ⟨rfl, hcols⟩, _, ⟨r, ⟨rfl, hrequest⟩, rfl⟩, _, ⟨rfl, hrows⟩, hframe⟩

/-- Which results can be encoded. -/
theorem exists_encodeResult_iff (hshape : logits.shape = [rows, cols]) :
    (∃ frame, encodeResult I requestId logits = .ok frame) ↔
      ((rows : Int) ≤ maxDimension ∧ (cols : Int) ≤ maxDimension) ∧ InRange requestId := by
  simp only [encodeResult_eq_ok hshape]
  constructor
  · rintro ⟨frame, hdims, r, rfl, hrequest, -⟩
    exact ⟨hdims, hrequest⟩
  · rintro ⟨hdims, hrequest⟩
    have hmax : maxDimension = 2147483647 := rfl
    obtain ⟨r, rfl, hrlt⟩ := hrequest.exists_nat
    have hcounts : ∀ f ∈ resultFields cols r rows, f.2 < 10 ^ 20 := by
      simp only [resultFields, List.forall_mem_cons]
      exact ⟨by omega, hrlt, by omega, List.forall_mem_nil _⟩
    obtain ⟨frame, hframe⟩ :=
      (countsHeader_result cols r rows).exists_tensorFrame hshape hdims hcounts
    exact ⟨frame, hdims, r, rfl, hrequest, hframe⟩

/-- A result is decoded to itself, for its own request and under limits that it keeps. -/
theorem decodeResult_encodeResult (hI : I.Lawful) (hshape : logits.shape = [rows, cols])
    (hframe : encodeResult I requestId logits = .ok frame) {request batch : Int} :
    (∃ header, decodeFrame I frame (rows * cols * 4 : Nat) = .ok (header, tobytes32 logits.data) ∧
      Json.item header (py "op") = .str (py "result")) ∧
    ∀ a, decodeResult I frame request batch maxClasses maxValues = .ok a ↔
      (a = logits ∧ request = requestId ∧ batch = rows) ∧ 1 ≤ cols ∧ (cols : Int) ≤ maxClasses ∧
        (rows * cols : Int) ≤ maxValues ∧ logits.data.all isfinite32 = true := by
  obtain ⟨hdims, r, rfl, hrequest, hencoded⟩ := (encodeResult_eq_ok hshape).mp hframe
  obtain ⟨header, hdec, hfields, hop, hexpect, hitem⟩ :=
    (countsHeader_result cols r rows).decode_tensorFrame hI hshape hencoded
  refine ⟨⟨header, hdec, hop⟩, fun a => ?_⟩
  have hlen : (tobytes32 logits.data).length = rows * cols * 4 := by
    rw [length_tobytes32, NdArray.length_data hshape]
  have hnames : requireFields header [py "cols", py "request_id", py "rows"] = .ok () := hfields
  have hrows : Json.item header (py "rows") = .int rows := hitem (py "rows")
  have hcols : Json.item header (py "cols") = .int cols := hitem (py "cols")
  have hid : Json.item header (py "request_id") = .int r := hitem (py "request_id")
  simp only [decodeResult, bind_eq_ok, decodeFrame_iff hdec, and_assoc, exists_eq_left,
    hnames, hexpect, hrows, hcols, hid, raiseIf_eq_ok, exists_const, uint_eq_ok,
    Json.int.injEq, pure_eq_ok, exists_eq_left', Int.toNat_natCast, reshape32_tobytes32 hshape,
    hlen, Except.ok.injEq, true_and]
  constructor
  · rintro ⟨hmax, -, -, hsame, -, -, -, hcolsLe, hbounds, -, hfinite, rfl⟩
    exact ⟨rfl, by omega, by omega, by omega, hcolsLe, by omega,
      Bool.eq_true_of_not_eq_false hfinite⟩
  · rintro ⟨rfl, rfl, rfl, hcolsPos, hcolsLe, hsize, hfinite⟩
    refine ⟨by push_cast; omega, hrequest.1, hrequest.2, not_not.mpr rfl, Int.natCast_nonneg _,
      le_refl _, Int.natCast_nonneg _, hcolsLe, by omega, ?_, ?_, rfl⟩
    · push_cast
      exact not_not.mpr rfl
    · rw [hfinite]
      decide

end EdgeFort.Ipc
