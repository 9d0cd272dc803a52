/-
Process isolation is transparent: with a healthy worker a prediction in process mode returns
what it returns in thread mode, and it returns exactly if that one does.

The engine, the worker and the two decoders check the same tensors under the same limits, and
the limits of a validated configuration keep every frame inside the format.
-/
import EdgeFort.Config.Usable
import EdgeFort.Engine.Inference
import EdgeFort.Runtime.GenerationAgreement
import EdgeFort.Runtime.HealthyChild

namespace EdgeFort
namespace Config
namespace InferenceEngine

open Effect Ipc Runtime.ProcessRunner
open Runtime.ProcessRunner.Supervised

variable {e : InferenceEngine} {ρ : Type} {B : Backend ρ} {I : Interpreter}

/-! ## The checks of both modes -/

theorem validatedArray_eq_ok {x : Option (NdArray UInt32)} {a : NdArray UInt32} :
    e.validatedArray x = .ok a ↔ x = some a ∧ ∃ rows cols, TensorFits a rows cols e.maxBatch
      e.maxInputFeatures e.maxInputValues := by
  cases x with
  | none => exact iff_of_false (fun h => by cases h) fun h => by cases h.1
  | some b =>
    rw [validatedArray]
    split
    · rename_i rows cols hshape
      have hlen := NdArray.length_data hshape
      simp only [bind_eq_ok, raiseIf_eq_ok, exists_const, pure_eq_ok, Option.some.injEq]
      constructor
      · rintro ⟨hrows, hcols, hsize, hfinite, rfl⟩
        refine ⟨rfl, rows, cols, hshape, by omega, by omega, by omega, ?_,
          Bool.eq_true_of_not_eq_false hfinite⟩
        rw [hlen] at hsize
        push_cast at hsize
        omega
      · rintro ⟨rfl, rows', cols', hfits⟩
        obtain ⟨rfl, rfl⟩ : rows = rows' ∧ cols = cols' := by
          have hsame := hshape.symm.trans hfits.shape
          simpa using hsame
        have hpos := hfits.pos
        have hrows := hfits.rows_le
        have hcols := hfits.cols_le
        have hsize := hfits.size_le
        refine ⟨by omega, by omega, ?_, ?_, rfl⟩
        · rw [hlen]
          push_cast
          omega
        · rw [hfits.finite]
          decide
    · rename_i hshape
      refine iff_of_false (fun h => by cases h) ?_
      rintro ⟨hb, rows, cols, hfits⟩
      obtain rfl := Option.some.inj hb
      exact hshape rows cols hfits.shape

/-- What passes the checks on logits. -/
structure LogitsFit (limits : WorkerLimits) (batch : Nat) (a : NdArray UInt32) (classes : Nat) :
    Prop where
  shape : a.shape = [batch, classes]
  pos : 1 ≤ classes
  classes_le : (classes : Int) ≤ limits.maxOutputClasses
  size_le : (batch * classes : Int) ≤ limits.maxOutputValues
  finite : a.data.all isfinite32 = true

theorem logitsFit_of_validateLogits {limits : WorkerLimits} {batch : Nat} {raw : Option RawArray}
    {a : NdArray UInt32} (h : validateLogits limits batch raw = .ok a) :
    ∃ classes, LogitsFit limits batch a classes := by
  cases raw with
  | none => cases h
  | some raw =>
    rw [validateLogits] at h
    split at h
    · rename_i rows classes hshape
      simp only [bind_eq_ok, raiseIf_eq_ok, exists_const, not_not] at h
      obtain ⟨rfl, hclasses, hsize, -, h⟩ := h
      split at h
      · cases h
      · rename_i normalized hnormalized
        simp only [bind_eq_ok, raiseIf_eq_ok, exists_const, pure_eq_ok] at h
        obtain ⟨hfinite, rfl⟩ := h
        exact ⟨classes, (raw.shape_float32 _ hnormalized).trans hshape, by omega, by omega,
          by omega, Bool.eq_true_of_not_eq_false hfinite⟩
    · cases h

/-- Logits that have passed the checks pass them again, unchanged. -/
theorem LogitsFit.validateLogits {limits : WorkerLimits} {batch classes : Nat}
    {a : NdArray UInt32} (h : LogitsFit limits batch a classes) :
    validateLogits limits batch (some (.ofFloat32 a)) = .ok a := by
  have hpos := h.pos
  have hclasses := h.classes_le
  have hsize := h.size_le
  simp only [Ipc.validateLogits, RawArray.ofFloat32, h.shape, h.finite, bind_eq_ok,
    raiseIf_eq_ok, exists_const, pure_eq_ok, not_not]
  exact ⟨trivial, by omega, by omega, Bool.true_eq_false.mp, Bool.true_eq_false.mp, trivial⟩

/-! ## The request to the worker -/

/-- Every tensor within the limits fits into a frame. -/
structure FitsFormat (e : InferenceEngine) : Prop where
  rows : e.maxBatch.val ≤ maxDimension
  cols : e.maxInputFeatures.val ≤ maxDimension
  classes : e.maxOutputClasses.val ≤ maxDimension
  request : maxHeaderBytes + 1 + e.maxInputValues.val * 4 ≤ maxUint
  reply : e.maxReceive ≤ maxUint

variable {w : Supervised ρ} {c : Child} {runtime : ρ} {snapshot : LoadArtifact}
  {inputs logits : NdArray UInt32} {rows cols : Nat}

theorem computes_of_carries (hI : I.Lawful) {p : Predict} {frame reply : Bytes}
    {s : WorkerState ρ} (hshape : p.inputs.shape = [rows, cols])
    (hframe : encodePredict I p = .ok frame)
    (hserve : serve I B e.workerLimits ⟨some runtime, some p.generation⟩ frame = .reply reply s)
    {batch : Nat} (hcarries : Carries I reply p.requestId batch e.outputLimits logits) :
    Computes B e.workerLimits runtime p.inputs logits := by
  obtain ⟨header, payload, hdec, hop, hresult⟩ := hcarries
  obtain ⟨-, hcomputed | ⟨raised, herror⟩⟩ := serve_predict hI hshape hframe hserve
  · obtain ⟨runtime', logits', hstate, hcomputes, hencoded⟩ := hcomputed
    obtain rfl : runtime = runtime' := Option.some.inj (WorkerState.mk.inj hstate).1
    obtain ⟨_, _, hvalid⟩ := id hcomputes
    obtain ⟨classes, hfit⟩ := logitsFit_of_validateLogits hvalid
    obtain ⟨⟨rfl, -⟩, -⟩ := ((decodeResult_encodeResult hI hfit.shape hencoded).2 logits).mp hresult
    exact hcomputes
  · obtain ⟨header', hdec', hop'⟩ := decode_errorFrame hI herror
    obtain ⟨rfl, -⟩ := Prod.mk.inj ((decodeFrame_iff hdec').mp hdec).1
    rw [isOp_eq hop'] at hop
    cases hop

/-- What a request to the worker returns. -/
theorem run_execute_iff (hI : I.Lawful) (he : e.FitsFormat)
    (hserving : w.Serving c runtime snapshot.generation)
    (hgeneration : InRange snapshot.generation) (hrequest : InRange (w.host.runner.requestId + 1))
    (hinputs : TensorFits inputs rows cols e.maxBatch e.maxInputFeatures e.maxInputValues) :
    ((Supervised.sem I B e.workerLimits).run
        (execute I e.maxReceive ⟨snapshot, inputs⟩ e.outputLimits) w).1 = .ok logits ↔
      Computes B e.workerLimits runtime inputs logits := by
  have hbatch : inputs.shape.headD 0 = rows := by rw [hinputs.shape]; rfl
  rw [hserving.run_execute rfl]
  constructor
  · rintro ⟨frame, reply, hframe, -, ⟨s, hrespond⟩, -, -, hcarries⟩
    exact computes_of_carries hI hinputs.shape hframe (respond_eq_some hrespond).1 hcarries
  · intro hcomputes
    have hlimits := he.request
    have hmaxReply : maxHeaderBytes + 1 + e.maxOutputValues.val * 4 ≤ maxUint := he.reply
    obtain ⟨_, -, hvalid⟩ := id hcomputes
    rw [hbatch] at hvalid
    obtain ⟨classes, hfit⟩ := logitsFit_of_validateLogits hvalid
    have hreplyFits : TensorFits logits rows classes e.maxBatch e.maxOutputClasses
        e.maxOutputValues :=
      ⟨hfit.shape, ⟨hinputs.pos.1, hfit.pos⟩, hinputs.rows_le, hfit.classes_le, hfit.size_le,
        hfit.finite⟩
    obtain ⟨frame, hframe⟩ := (exists_encodePredict_iff (p := ⟨w.host.runner.requestId + 1,
      snapshot.generation, inputs⟩) hinputs.shape).mpr
      ⟨⟨hinputs.rows_le.trans he.rows, hinputs.cols_le.trans he.cols⟩, hgeneration, hrequest⟩
    obtain ⟨reply, hreply⟩ := (exists_encodeResult_iff hfit.shape).mpr
      ⟨⟨hinputs.rows_le.trans he.rows, hfit.classes_le.trans he.classes⟩, hrequest⟩
    obtain ⟨-, g, r, -, -, -, -, hencoded⟩ := (encodePredict_eq_ok hinputs.shape).mp hframe
    obtain ⟨hframeLow, hframeHigh⟩ := hinputs.length_frame hencoded
    obtain ⟨-, r', -, -, hencoded'⟩ := (encodeResult_eq_ok hfit.shape).mp hreply
    obtain ⟨hreplyLow, hreplyHigh⟩ := hreplyFits.length_frame hencoded'
    have hincoming : (frame.length : Int) ≤ maxIncoming e.workerLimits :=
      hframeHigh.trans (Int.add_le_add_left (le_max_right _ _) _)
    have hserve := serve_of_computes hI hinputs hframe hcomputes hreply
    have hrespond : respond I B e.workerLimits ⟨some runtime, some snapshot.generation⟩ frame =
        some (reply, ⟨some runtime, some snapshot.generation⟩) := by
      rw [respond, if_neg (by omega), hserve]
      exact if_neg (by omega)
    obtain ⟨⟨header, hdec, hop⟩, hself⟩ := decodeResult_encodeResult hI hfit.shape hreply
    have hheader : decodeFrame I reply (e.maxOutputValues.val * 4) =
        .ok (header, tobytes32 logits.data) := (decodeFrame_iff hdec).mpr
      ⟨rfl, hreplyFits.payload_le⟩
    have hresult : decodeResult I reply (w.host.runner.requestId + 1) (inputs.shape.headD 0 : Nat)
        e.maxOutputClasses e.maxOutputValues = .ok logits :=
      (hself logits).mpr ⟨⟨rfl, rfl, by rw [hbatch]⟩, by exact_mod_cast hfit.pos, hfit.classes_le,
        hfit.size_le, hfit.finite⟩
    exact ⟨frame, reply, hframe, hframeHigh.trans hlimits, ⟨_, hrespond⟩, hreplyLow, hreplyHigh,
      header, _, hheader, (isOp_eq hop).trans (decide_eq_true rfl), hresult⟩

/-! ## Both modes -/

/-- Logits that have passed the worker's checks are completed as they are. -/
theorem complete_ofFloat32 {batch classes : Nat} (h : LogitsFit e.workerLimits batch logits classes) :
    e.complete batch (some (.ofFloat32 logits)) = .ok ⟨logits.rows.map argmax, logits⟩ := by
  rw [complete, validatedLogits, h.validateLogits]
  rfl

theorem mapError_eq_ok {ε ε' α : Type} {f : ε → ε'} {x : Except ε α} {a : α} :
    x.mapError f = .ok a ↔ x = .ok a := by
  cases x with
  | ok b => rw [Except.mapError, Except.ok.injEq, Except.ok.injEq]
  | error e => exact iff_of_false (fun h => by cases h) fun h => by cases h

theorem predict_eq_ok {x : Option (NdArray UInt32)} {r : Prediction} :
    e.predict B runtime x = .ok r ↔ ∃ inputs logits, e.validatedArray x = .ok inputs ∧
      Computes B e.workerLimits runtime inputs logits ∧ r = ⟨logits.rows.map argmax, logits⟩ := by
  simp only [predict, bind_eq_ok, mapError_eq_ok, complete, validatedLogits, pure_eq_ok, Computes]
  constructor
  · rintro ⟨inputs, hinputs, raw, hraw, logits, hlogits, rfl⟩
    exact ⟨inputs, logits, hinputs, ⟨raw, hraw, hlogits⟩, rfl⟩
  · rintro ⟨inputs, logits, hinputs, ⟨raw, hraw, hlogits⟩, rfl⟩
    exact ⟨inputs, hinputs, raw, hraw, logits, hlogits, rfl⟩

theorem processPredict_iff_predict (hI : I.Lawful) (he : e.FitsFormat)
    (hserving : w.Serving c runtime snapshot.generation)
    (hgeneration : InRange snapshot.generation) (hrequest : InRange (w.host.runner.requestId + 1))
    {x : Option (NdArray UInt32)} {r : Prediction} :
    e.processPredict B I snapshot x w = .ok r ↔ e.predict B runtime x = .ok r := by
  rw [processPredict, predict_eq_ok, bind_eq_ok]
  refine exists_congr fun inputs => ?_
  rw [bind_eq_ok]
  constructor
  · rintro ⟨hinputs, logits, hexecute, hcomplete⟩
    obtain ⟨-, rows, cols, hfits⟩ := validatedArray_eq_ok.mp hinputs
    have hcomputes := (run_execute_iff hI he hserving hgeneration hrequest hfits).mp hexecute
    obtain ⟨_, -, hvalid⟩ := id hcomputes
    obtain ⟨classes, hfit⟩ := logitsFit_of_validateLogits hvalid
    rw [complete_ofFloat32 hfit] at hcomplete
    exact ⟨logits, hinputs, hcomputes, (Except.ok.inj hcomplete).symm⟩
  · rintro ⟨logits, hinputs, hcomputes, rfl⟩
    obtain ⟨-, rows, cols, hfits⟩ := validatedArray_eq_ok.mp hinputs
    obtain ⟨_, -, hvalid⟩ := id hcomputes
    obtain ⟨classes, hfit⟩ := logitsFit_of_validateLogits hvalid
    exact ⟨hinputs, logits,
      (run_execute_iff hI he hserving hgeneration hrequest hfits).mpr hcomputes,
      complete_ofFloat32 hfit⟩

/-! ## Configurations -/

theorem checkedInt_le {p : Int → Prop} [DecidablePred p] {error : PyError} {lo hi : Int}
    {v : Yaml} {a : {i : Int // p i}} (hv : v ∈ RuntimeConfig.ints lo hi)
    (h : checkedInt p error v = .ok a) : a.val ≤ hi := by
  obtain ⟨i, hi', rfl⟩ := hv
  simp only [checkedInt, Yaml.int?] at h
  split_ifs at h with hp
  rw [← Except.ok.inj h]
  exact hi'.2

/-- The limits of a validated configuration fit the format. -/
theorem fitsFormat_of_validate {H : Host} {c : RuntimeConfig} (hH : H.Lawful)
    (hc : c.validate H = .ok ()) (he : c.engine = .ok e) : e.FitsFormat := by
  have hranges := ((RuntimeConfig.accepts_validate hH).mp ⟨(), hc⟩).inRange
  simp only [RuntimeConfig.numericFields, List.forall_mem_cons] at hranges
  obtain ⟨-, hbatch, hfeatures, hinputs, hclasses, houtputs, -⟩ := hranges
  simp only [RuntimeConfig.engine, inferenceEngine, positiveInteger, bind_eq_ok, pure_eq_ok] at he
  obtain ⟨bytes, -, batch, hbatch', features, hfeatures', inputs, hinputs', classes, hclasses',
    outputs, houtputs', rfl⟩ := he
  have hdimension : maxDimension = 2147483647 := rfl
  have huint : maxUint = 9223372036854775807 := rfl
  have hheader : (maxHeaderBytes : Int) = 4096 := rfl
  have hbatchLe := checkedInt_le hbatch hbatch'
  have hfeaturesLe := checkedInt_le hfeatures hfeatures'
  have hinputsLe := checkedInt_le hinputs hinputs'
  have hclassesLe := checkedInt_le hclasses hclasses'
  have houtputsLe := checkedInt_le houtputs houtputs'
  constructor <;> simp only [maxReceive] <;> omega

/-- Under a validated configuration a prediction by a healthy worker and one in the engine's own
process return the same. -/
theorem isolation_transparent {H : Host} {config : RuntimeConfig} (hH : H.Lawful)
    (hI : I.Lawful) (hconfig : config.validate H = .ok ())
    (he : config.engine = .ok e) (hserving : w.Serving c runtime snapshot.generation)
    (hgeneration : InRange snapshot.generation) (hrequest : InRange (w.host.runner.requestId + 1))
    (x : Option (NdArray UInt32)) (r : Prediction) :
    e.processPredict B I snapshot x w = .ok r ↔ e.predict B runtime x = .ok r :=
  processPredict_iff_predict hI (fitsFormat_of_validate hH hconfig he) hserving hgeneration
    hrequest

/-! ## A sample -/

namespace Sample

/-- The default limits. -/
def config : RuntimeConfig where
  deploymentRoot := .str "d"
  registryRoot := .str "r"

def engine : InferenceEngine :=
  ⟨⟨268435456, by decide⟩, ⟨128, by decide⟩, ⟨4096, by decide⟩, ⟨524288, by decide⟩,
    ⟨4096, by decide⟩, ⟨262144, by decide⟩⟩

theorem engine_eq : config.engine = .ok engine := rfl

theorem config_validates : config.validate RuntimeConfig.Sample.host = .ok () := by
  obtain ⟨_, h⟩ := (RuntimeConfig.accepts_validate RuntimeConfig.Sample.host_lawful).mpr
    (RuntimeConfig.accepted_defaults (d := .str "d") (r := .str "r") ⟨_, rfl, by decide⟩
      ⟨_, rfl, by decide⟩
      (RuntimeConfig.literal_mem_numpyNumbers (q := 2116691824864133 / 2251799813685248)
        (by norm_num)))
  exact h

theorem workerState_eq {s : WorkerState ρ} {a : Option ρ} {g : Option Int}
    (hruntime : s.runtime = a) (hgeneration : s.generation = g) : s = ⟨a, g⟩ := by
  rw [← hruntime, ← hgeneration]

/-- The worker that has loaded generation 1. -/
theorem serving : loadedOnce.Serving 0 () 1 where
  process := by decide +kernel
  channel := by decide +kernel
  generation := by decide +kernel
  alive := by decide +kernel
  inbox := by decide +kernel
  stream := by decide +kernel
  state := workerState_eq (by decide +kernel) (by decide +kernel)

end Sample

theorem isolation_transparent_sample :
    Sample.engine.processPredict pickyBackend EdgeFort.Sample.interpreter samplePrepared.artifact
      (some samplePrepared.inputs) loadedOnce = .ok ⟨[0], samplePrepared.inputs⟩ :=
  (isolation_transparent RuntimeConfig.Sample.host_lawful EdgeFort.Sample.interpreter_lawful
    Sample.config_validates Sample.engine_eq Sample.serving ⟨by decide, by decide⟩
    ⟨by decide +kernel, by decide +kernel⟩ (some samplePrepared.inputs) ⟨[0], samplePrepared.inputs⟩).mpr rfl

end InferenceEngine
end Config
end EdgeFort
