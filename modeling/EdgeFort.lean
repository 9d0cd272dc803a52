import EdgeFort.Anchor.Refinement
import EdgeFort.Deploy.FollowUps
import EdgeFort.Deploy.Reads
import EdgeFort.Drift.Psi
import EdgeFort.Engine.Freshness
import EdgeFort.Ipc.Segmentation
import EdgeFort.Quantization.Quantize
import EdgeFort.Registry.Integrity
import EdgeFort.Runtime.QueueRuns
import EdgeFort.Runtime.RestartBudget
import EdgeFort.Runtime.Shutdown
import EdgeFort.Runtime.TaskOutcomes
import EdgeFort.Service.ApiKey
import EdgeFort.Service.BodyLimit
import EdgeFort.Service.ConcurrencyLimit
import EdgeFort.Telemetry.Accounting
