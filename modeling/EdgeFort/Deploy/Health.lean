/-
The health gate (`health.py`).
-/
import EdgeFort.Registry.Manifest

namespace EdgeFort

structure HealthPolicy where
  minAccuracy : PyNum
  maxAccuracyDrop : PyNum
  maxEce : PyNum
  maxP95LatencyMs : PyNum
  maxRssMb : PyNum

/-- `a - b`; an integer meets a float as a float. -/
def PyNum.sub : PyNum → PyNum → Except PyError PyNum
  | .int a, .int b => .ok (.int (a - b))
  | a, b =>
    match a.toFloat?, b.toFloat? with
    | some x, some y => .ok (.float (x.sub y))
    | _, _ => .error (raise .overflowError "int too large to convert to float")

/-- The accuracy lost against the baseline, when there is one. -/
def accuracyDropExceeds (policy : HealthPolicy) (candidate : ModelMetrics) :
    Option ModelMetrics → Except PyError Bool
  | none => .ok false
  | some baseline => do
    let drop ← baseline.accuracy.sub candidate.accuracy
    return policy.maxAccuracyDrop.lt drop

def enforce (policy : HealthPolicy) (candidate : ModelMetrics) (baseline : Option ModelMetrics) :
    Except PyError Unit := do
  candidate.validate
  raiseIf (candidate.accuracy.lt policy.minAccuracy)
    (raise .healthGateError "accuracy below minimum")
  let regressed ← accuracyDropExceeds policy candidate baseline
  raiseIf (regressed = true) (raise .healthGateError "accuracy regression")
  raiseIf (policy.maxEce.lt candidate.ece)
    (raise .healthGateError "calibration error above limit")
  raiseIf (policy.maxP95LatencyMs.lt candidate.p95LatencyMs)
    (raise .healthGateError "latency above limit")
  raiseIf (policy.maxRssMb.lt candidate.maxRssMb)
    (raise .healthGateError "memory above limit")

end EdgeFort
