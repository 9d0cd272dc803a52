/-
A prediction of `InferenceEngine` (`engine.py`), in thread mode and in process mode.

In process mode the logits come from the worker of a runner, under the engine's own limits.
-/
import EdgeFort.Config.Consumers
import EdgeFort.Ipc.Rounds
import EdgeFort.Runtime.Supervised

namespace EdgeFort
namespace Config
namespace InferenceEngine

open Effect Ipc Runtime.ProcessRunner

/-- What `complete` returns, but for the version: `pred` and `validated`. -/
structure Prediction where
  predictions : List Nat
  logits : NdArray UInt32

/-- The order of finite float32s, of their bits.  The two zeros are equal. -/
def order32 (x : UInt32) : Int :=
  if x.toNat < 2147483648 then x.toNat else 2147483648 - x.toNat

/-- The index of the first of the greatest values of a row. -/
def argmax (row : List UInt32) : Nat :=
  row.findIdx fun x => row.all fun y => order32 y ≤ order32 x

variable (e : InferenceEngine)

/-- `isolation_limits`, as the worker takes them. -/
def workerLimits : WorkerLimits :=
  ⟨e.maxBatch, e.maxInputFeatures, e.maxInputValues, e.maxOutputClasses, e.maxOutputValues,
    e.maxModelUncompressedBytes⟩

/-- `_validated_array`, of an input that NumPy makes no float32 array of, or this one. -/
def validatedArray : Option (NdArray UInt32) → Except PyError (NdArray UInt32)
  | none => .error (raise .validationError (py "input must be a rectangular " ++
      py "numeric rank-2 array"))
  | some a =>
    match a.shape with
    | [rows, cols] => do
      raiseIf (rows < 1 ∨ e.maxBatch.val < rows)
        (raise .validationError (py "batch outside " ++ py "configured bounds"))
      raiseIf (cols < 1 ∨ e.maxInputFeatures.val < cols)
        (raise .validationError (py "feature count outside " ++ py "configured bounds"))
      raiseIf (e.maxInputValues.val < a.data.length)
        (raise .validationError (py "input element count outside " ++ py "configured bounds"))
      raiseIf (a.data.all isfinite32 = false)
        (raise .validationError (py "input contains " ++ py "non-finite values"))
      return a
    | _ => .error (raise .validationError (py "input must be " ++ py "rank-2"))

/-- `_validated_logits`: the checks of the worker, with their messages. -/
def validatedLogits (batchSize : Nat) (logits : Option RawArray) :
    Except PyError (NdArray UInt32) :=
  validateLogits e.workerLimits batchSize logits

/-- `complete`, of `len(prepared.inputs)` inputs. -/
def complete (batchSize : Nat) (logits : Option RawArray) : Except PyError Prediction := do
  let validated ← e.validatedLogits batchSize logits
  return ⟨validated.rows.map argmax, validated⟩

variable {ρ : Type} (B : Backend ρ)

/-- A prediction in thread mode. -/
def predict (runtime : ρ) (x : Option (NdArray UInt32)) : Except Raised Prediction := do
  let inputs ← (e.validatedArray x).mapError .ofPyError
  let logits ← B.logits runtime inputs
  (e.complete (inputs.shape.headD 0) logits).mapError .ofPyError

/-- `_max_receive_frame_bytes` -/
def maxReceive : Int := maxHeaderBytes + 1 + e.maxOutputValues.val * 4

/-- The limits that `execute` is called with. -/
def outputLimits : OutputLimits where
  maxOutputClasses := e.maxOutputClasses
  maxOutputValues := e.maxOutputValues
  values_pos := lt_of_lt_of_le Int.one_pos e.maxOutputValues.property

/-- `_process_predict`, where nothing fails by itself. -/
def processPredict (I : Interpreter) (snapshot : LoadArtifact) (x : Option (NdArray UInt32))
    (w : Supervised ρ) : Except PyError Prediction := do
  let inputs ← e.validatedArray x
  let logits ← ((Supervised.sem I B e.workerLimits).run
    (execute I e.maxReceive ⟨snapshot, inputs⟩ e.outputLimits) w).1
  e.complete (inputs.shape.headD 0) (some (.ofFloat32 logits))

end InferenceEngine
end Config
end EdgeFort
