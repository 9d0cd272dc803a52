/-
What a round of the worker makes of the frames its supervisor sends (`ipc.py`,
`_isolated_backend_main` in `runtime.py`).
-/
import EdgeFort.Ipc.Tensors

namespace EdgeFort.Ipc

open Effect

variable {I : Interpreter} {frame reply : Bytes}

/-! ## Model transfer -/

def loadFields (m : LoadArtifact) : List (PyStr × Json) :=
  [(py "generation", .int m.generation), (py "max_uncompressed_bytes", .int m.maxUncompressed),
    (py "model_kind", .str m.modelKind), (py "runtime_abi", .str m.runtimeAbi)]

theorem namesFit_loadFields (m : LoadArtifact) : NamesFit (loadFields m) := by
  refine ⟨show [py "generation", py "max_uncompressed_bytes", py "model_kind",
    py "runtime_abi"].Nodup by decide, ?_⟩
  simp only [loadFields, List.forall_mem_cons]
  exact ⟨by decide, by decide, by decide, by decide,
    List.forall_mem_nil _⟩

theorem text_str {name s t : PyStr} {n : Nat} :
    text name (.str s) n = .ok t ↔ t = s ∧ TextFits n s := by
  rw [text_eq_ok, Json.str.injEq]
  constructor
  · rintro ⟨rfl, hfits⟩
    exact ⟨rfl, hfits⟩
  · rintro ⟨rfl, hfits⟩
    exact ⟨rfl, hfits⟩

theorem uint_int {name : PyStr} {n k maximum : Int} :
    uint name (.int n) maximum = .ok k ↔ k = n ∧ 0 ≤ n ∧ n ≤ maximum := by
  rw [uint_eq_ok, Json.int.injEq]
  constructor
  · rintro ⟨rfl, hrange⟩
    exact ⟨rfl, hrange⟩
  · rintro ⟨rfl, hrange⟩
    exact ⟨rfl, hrange⟩

variable {m : LoadArtifact}

theorem encodeLoadArtifact_eq_ok :
    encodeLoadArtifact I m = .ok frame ↔ m.modelBytes ≠ [] ∧ InRange m.generation ∧
      InRange m.maxUncompressed ∧ TextFits 256 m.modelKind ∧ TextFits 256 m.runtimeAbi ∧
      encodeFrame I (py "load_artifact") (loadFields m) m.modelBytes = .ok frame := by
  simp only [encodeLoadArtifact, bind_eq_ok, raiseIf_eq_ok, exists_const, uint_int, text_str,
    and_assoc, exists_eq_left, InRange, loadFields, ne_eq]

theorem readableString_of_textFits {n : Nat} {s : PyStr} (h : TextFits n s) :
    Json.readableString true s = true := by
  obtain ⟨-, encoded, henc, -⟩ := h
  exact Json.readableString_of_utf8Encodable (utf8Encode_eq_ok.mp henc).1

/-- A model is decoded to itself, or refused. -/
theorem decodeLoadArtifact_encodeLoadArtifact (hI : I.Lawful)
    (hframe : encodeLoadArtifact I m = .ok frame) :
    (∃ header, decodeFrame I frame m.modelBytes.length = .ok (header, m.modelBytes) ∧
      Json.item header (py "op") = .str (py "load_artifact")) ∧
    ∀ n q, decodeLoadArtifact I frame n = .ok q → q = m := by
  obtain ⟨-, -, -, hkind, habi, hencoded⟩ := encodeLoadArtifact_eq_ok.mp hframe
  have hnames := namesFit_loadFields m
  have hdict : (Json.obj (loadFields m)).strict = true := by
    rw [Json.strict, Bool.and_eq_true, decide_eq_true_eq]
    exact ⟨hnames.1, rfl⟩
  have hstrings : (Json.obj (loadFields m)).readable true = true := by
    have hfixed : Json.readableString true (py "generation") = true ∧
        Json.readableString true (py "max_uncompressed_bytes") = true ∧
        Json.readableString true (py "model_kind") = true ∧
        Json.readableString true (py "runtime_abi") = true := by decide
    simp [Json.readable, Json.stringsAll, Json.stringsAllFields, loadFields, hfixed,
      readableString_of_textFits hkind, readableString_of_textFits habi]
  have hdec := (decodeFrame_encodeFrame hI hdict hstrings (Json.readDepth_flat I rfl) hencoded
    (le_refl _)).2
  have hitem : ∀ k, Json.item (printedHeader (py "load_artifact") (loadFields m) m.modelBytes) k =
      (Json.item (reservedFields (py "load_artifact") m.modelBytes ++ loadFields m) k).sortKeys :=
    item_printedHeader hnames
  refine ⟨⟨_, hdec, hitem (py "op")⟩, fun n q hq => ?_⟩
  have hgeneration : Json.item _ (py "generation") = .int m.generation :=
    hitem (py "generation")
  have hmax : Json.item _ (py "max_uncompressed_bytes") = .int m.maxUncompressed :=
    hitem (py "max_uncompressed_bytes")
  have hkind' : Json.item _ (py "model_kind") = .str m.modelKind := hitem (py "model_kind")
  have habi' : Json.item _ (py "runtime_abi") = .str m.runtimeAbi := hitem (py "runtime_abi")
  simp only [decodeLoadArtifact, bind_eq_ok, decodeFrame_iff hdec, and_assoc, exists_eq_left,
    raiseIf_eq_ok, exists_const, hgeneration, hmax, hkind', habi', uint_int, text_str,
    pure_eq_ok] at hq
  obtain ⟨-, _, -, _, -, -, -, -, -, -, -, -, -, rfl⟩ := hq
  rfl

/-! ## Reports -/

theorem countsHeader_loaded (generation : Nat) :
    CountsHeader (py "loaded") ([(py "generation", generation)].map Prod.fst) := by
  show CountsHeader (py "loaded") [py "generation"]
  decide

/-- The answer to a model that was loaded. -/
theorem decode_loaded (hI : I.Lawful) {generation : Int}
    (hframe : encodeGeneration I (py "loaded") generation = .ok frame) :
    ∃ header, decodeFrame I frame 0 = .ok (header, []) ∧
      Json.item header (py "op") = .str (py "loaded") := by
  simp only [encodeGeneration, bind_eq_ok, uint_int, and_assoc, exists_eq_left] at hframe
  obtain ⟨hpos, -, hencoded⟩ := hframe
  obtain ⟨g, rfl⟩ := Int.eq_ofNat_of_zero_le hpos
  have hheader := countsHeader_loaded g
  exact ⟨_, hheader.decodeFrame_eq hI hencoded (le_refl _), hheader.item_eq (py "op") []⟩

/-- The answer of a failure. -/
theorem decode_errorFrame (hI : I.Lawful) {r : Report} {e : Raised}
    (hframe : errorFrame I r e = .ok frame) :
    ∃ header, decodeFrame I frame 0 = .ok (header, []) ∧
      Json.item header (py "op") = .str r.op := by
  have hdec := decodeError_errorFrame hI hframe
  simp only [decodeError, expectOp, expectEmpty, bind_eq_ok, raiseIf_eq_ok, exists_const,
    not_not, Bool.not_eq_false] at hdec
  obtain ⟨⟨header, payload⟩, hframe, _, -, hop, rfl, -⟩ := hdec
  exact ⟨header, hframe, pyEq_str.mp hop⟩

/-! ## Rounds -/

variable {ρ : Type} {B : Backend ρ} {limits : WorkerLimits} {s s' : WorkerState ρ}

theorem replyWith_eq_reply {r : Except PyError Bytes} :
    replyWith r s = .reply reply s' ↔ r = .ok reply ∧ s = s' := by
  cases r with
  | ok f =>
    rw [replyWith, Served.reply.injEq, Except.ok.injEq]
  | error e => exact ⟨nofun, fun h => nomatch h.1⟩

/-- A round that answers has read the header of its frame. -/
theorem decoded_of_serve {header : List (PyStr × Json)} {payload : Bytes} {n : Int}
    (hdec : decodeFrame I frame n = .ok (header, payload))
    (h : serve I B limits s frame = .reply reply s') :
    decodeFrame I frame (maxPayload limits) = .ok (header, payload) := by
  cases hq : decodeFrame I frame (maxPayload limits) with
  | ok q => rw [((decodeFrame_iff hdec).mp hq).1]
  | error e =>
    rw [serve, hq] at h
    cases h

/-- A model that was sent has been loaded, or refused. -/
theorem serve_load (hI : I.Lawful) (hframe : encodeLoadArtifact I m = .ok frame)
    (h : serve I B limits s frame = .reply reply s') :
    (∃ runtime, B.loadRuntime m.modelBytes m.modelKind m.runtimeAbi m.maxUncompressed =
        .ok runtime ∧ s' = ⟨some runtime, some m.generation⟩ ∧
        encodeGeneration I (py "loaded") m.generation = .ok reply) ∨
      s' = ⟨none, none⟩ ∧ (∃ e, loadModel I B limits frame = .error e) ∧
        ∃ g e, errorFrame I (.load g) e = .ok reply := by
  obtain ⟨⟨header, hdec, hop⟩, hself⟩ := decodeLoadArtifact_encodeLoadArtifact hI hframe
  have hclose : Json.pyEq (.str (py "load_artifact")) (.str (py "close")) = false := by
    decide
  have hload : Json.pyEq (.str (py "load_artifact")) (.str (py "load_artifact")) = true := by
    decide
  simp only [serve, decoded_of_serve hdec h, hop, hclose, hload, Bool.false_eq_true, if_false,
    if_true] at h
  cases hmodel : loadModel I B limits frame with
  | error e =>
    rw [hmodel] at h
    obtain ⟨hreport, rfl⟩ := replyWith_eq_reply.mp h
    exact Or.inr ⟨rfl, ⟨e, rfl⟩, _, e, hreport⟩
  | ok loaded =>
    obtain ⟨g, runtime⟩ := loaded
    rw [hmodel] at h
    obtain ⟨hloaded, rfl⟩ := replyWith_eq_reply.mp h
    unfold loadModel at hmodel
    split at hmodel
    · cases hmodel
    · rename_i q hq
      obtain rfl := hself _ _ hq
      obtain ⟨runtime', hruntime, hpair⟩ := bind_eq_ok.mp hmodel
      obtain ⟨rfl, rfl⟩ := Prod.mk.inj (Except.ok.inj hpair)
      exact Or.inl ⟨runtime', hruntime, rfl, hloaded⟩

/-- The logits of some inputs under a runtime, where they pass the worker's checks. -/
def Computes (B : Backend ρ) (limits : WorkerLimits) (runtime : ρ) (inputs logits : NdArray UInt32) :
    Prop :=
  ∃ raw, B.logits runtime inputs = .ok raw ∧
    validateLogits limits (inputs.shape.headD 0) raw = .ok logits

theorem Computes.shape {runtime : ρ} {inputs array : NdArray UInt32}
    (h : Computes B limits runtime inputs array) :
    ∃ classes, array.shape = [inputs.shape.headD 0, classes] := by
  obtain ⟨raw, -, hvalid⟩ := h
  cases raw with
  | none => cases hvalid
  | some raw =>
    rw [validateLogits] at hvalid
    split at hvalid
    · rename_i rows classes hshape
      simp only [bind_eq_ok, raiseIf_eq_ok, exists_const, not_not] at hvalid
      obtain ⟨rfl, -, -, -, hvalid⟩ := hvalid
      split at hvalid
      · cases hvalid
      · rename_i normalized hnormalized
        simp only [bind_eq_ok, pure_eq_ok] at hvalid
        obtain ⟨_, -, rfl⟩ := hvalid
        exact ⟨classes, (raw.shape_float32 _ hnormalized).trans hshape⟩
    · cases hvalid

theorem computeResult_eq_ok {runtime : ρ} {p : Predict} :
    computeResult I B limits runtime p = .ok reply ↔
      ∃ logits, Computes B limits runtime p.inputs logits ∧
        encodeResult I p.requestId logits = .ok reply := by
  rw [computeResult, bind_eq_ok]
  constructor
  · rintro ⟨raw, hraw, hreply⟩
    dsimp only at hreply
    split at hreply
    · cases hreply
    · rename_i response hresponse
      obtain ⟨logits, hlogits, hencoded⟩ := bind_eq_ok.mp hresponse
      obtain rfl := Except.ok.inj hreply
      exact ⟨logits, ⟨raw, hraw, hlogits⟩, hencoded⟩
  · rintro ⟨logits, ⟨raw, hraw, hlogits⟩, hencoded⟩
    refine ⟨raw, hraw, ?_⟩
    dsimp only
    rw [hlogits, ok_bind, hencoded]

/-- What the worker reports when it does not hold the generation. -/
def mismatch : Raised :=
  ⟨py "BackendProcessError", false, py "worker runtime " ++ py "generation mismatch"⟩

theorem errorFrame_mismatch (requestId : Int) :
    errorFrame I (.predict requestId) mismatch = encodeError I (py "error") (some requestId) none
      (py "BackendProcessError") (py "worker runtime " ++ py "generation mismatch") := by
  have hcut : (Report.predict requestId).message mismatch =
      py "worker runtime " ++ py "generation mismatch" := by
    show cut _ _ = _
    decide
  rw [errorFrame, hcut]
  rfl

/-- A prediction is answered by the worker's own runtime, for its own generation. -/
theorem serve_predict (hI : I.Lawful) {p : Predict} {rows cols : Nat}
    (hshape : p.inputs.shape = [rows, cols]) (hframe : encodePredict I p = .ok frame)
    (h : serve I B limits s frame = .reply reply s') :
    s' = s ∧ ((∃ runtime logits, s = ⟨some runtime, some p.generation⟩ ∧
        Computes B limits runtime p.inputs logits ∧
        encodeResult I p.requestId logits = .ok reply) ∨
      ∃ e, errorFrame I (.predict p.requestId) e = .ok reply) := by
  obtain ⟨⟨header, hdec, hop⟩, hself⟩ := decodePredict_encodePredict hI hshape hframe
  have hclose : Json.pyEq (.str (py "predict")) (.str (py "close")) = false := by
    decide
  have hload : Json.pyEq (.str (py "predict")) (.str (py "load_artifact")) = false := by
    decide
  have hsame : Json.pyEq (.str (py "predict")) (.str (py "predict")) = true := by
    decide
  simp only [serve, decoded_of_serve hdec h, hop, hclose, hload, hsame, Bool.false_eq_true,
    Bool.true_eq_false, if_false] at h
  cases hq : decodePredict I frame limits.maxBatch limits.maxInputFeatures
      limits.maxInputValues with
  | error e =>
    rw [hq] at h
    cases h
  | ok q =>
    obtain rfl := ((hself q).mp hq).1
    rw [hq] at h
    dsimp only at h
    split at h
    · rename_i runtime hruntime hgeneration
      have hs : s = ⟨some runtime, some q.generation⟩ := by
        obtain ⟨runtime', generation'⟩ := s
        rw [WorkerState.mk.injEq]
        exact ⟨hruntime, of_decide_eq_true hgeneration⟩
      split at h
      · rename_i response hresponse
        obtain ⟨rfl, rfl⟩ := Served.reply.inj h
        obtain ⟨logits, hcomputes, hencoded⟩ := computeResult_eq_ok.mp hresponse
        exact ⟨rfl, Or.inl ⟨runtime, logits, hs, hcomputes, hencoded⟩⟩
      · rename_i e hraised
        obtain ⟨hreport, rfl⟩ := replyWith_eq_reply.mp h
        exact ⟨rfl, Or.inr ⟨e, hreport⟩⟩
    · obtain ⟨hreport, rfl⟩ := replyWith_eq_reply.mp h
      exact ⟨rfl, Or.inr ⟨mismatch, (errorFrame_mismatch q.requestId).trans hreport⟩⟩

/-- A prediction within the limits, whose logits can be computed and sent, is answered. -/
theorem serve_of_computes (hI : I.Lawful) {p : Predict} {rows cols : Nat} {runtime : ρ}
    {logits : NdArray UInt32}
    (hfits : TensorFits p.inputs rows cols limits.maxBatch limits.maxInputFeatures
      limits.maxInputValues)
    (hframe : encodePredict I p = .ok frame)
    (hcomputes : Computes B limits runtime p.inputs logits)
    (hreply : encodeResult I p.requestId logits = .ok reply) :
    serve I B limits ⟨some runtime, some p.generation⟩ frame =
      .reply reply ⟨some runtime, some p.generation⟩ := by
  obtain ⟨⟨header, hdec, hop⟩, hself⟩ := decodePredict_encodePredict hI hfits.shape hframe
  have hp : decodePredict I frame limits.maxBatch limits.maxInputFeatures limits.maxInputValues =
      .ok p := (hself p).mpr ⟨rfl, hfits⟩
  have hclose : Json.pyEq (.str (py "predict")) (.str (py "close")) = false := by
    decide
  have hload : Json.pyEq (.str (py "predict")) (.str (py "load_artifact")) = false := by
    decide
  have hsame : Json.pyEq (.str (py "predict")) (.str (py "predict")) = true := by
    decide
  have hmax : ((tobytes32 p.inputs.data).length : Int) ≤ maxPayload limits :=
    hfits.payload_le.trans (le_max_right _ _)
  have hheader : decodeFrame I frame (maxPayload limits) =
      .ok (header, tobytes32 p.inputs.data) := (decodeFrame_iff hdec).mpr ⟨rfl, hmax⟩
  simp only [serve, hheader, hop, hclose, hload, hsame, Bool.false_eq_true, Bool.true_eq_false,
    if_false, hp, decide_true,
    computeResult_eq_ok.mpr ⟨logits, hcomputes, hreply⟩]

end EdgeFort.Ipc
