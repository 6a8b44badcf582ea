import DgxSpark.Library.Run
import DgxSpark.Library.OrderedDict
import DgxSpark.Slab.Manager
import DgxSpark.Slab.Custody
import DgxSpark.Slab.Operations
import DgxSpark.Slab.Attach
import DgxSpark.Slab.Desk
import DgxSpark.Slab.Placement
import DgxSpark.Slab.Capacity
import DgxSpark.Library.Crc32
import DgxSpark.Library.LittleEndian
import DgxSpark.Library.Medium
import DgxSpark.Slab.Header
import DgxSpark.Slab.SlabIo
import DgxSpark.Slab.PowerLoss
import DgxSpark.Slab.Epoch
import DgxSpark.Slab.Slot
import DgxSpark.Slab.Cluster
import DgxSpark.Slab.Reports
import DgxSpark.Slab.Visibility
import DgxSpark.Slab.Delivery
import DgxSpark.Slab.Fleet
import DgxSpark.Slab.EveryRank
import DgxSpark.Bounce.Controller
import DgxSpark.Bounce.Ledger
import DgxSpark.Bounce.Routing
import DgxSpark.Bounce.Accounting
import DgxSpark.Bounce.Pairing
import DgxSpark.Bounce.Units
import DgxSpark.Bounce.Worker
import DgxSpark.Nvme.Prefetch
import DgxSpark.Nvme.PrefetchKept
import DgxSpark.Nvme.PrefetchProgress
import DgxSpark.Nvme.Artifact
import DgxSpark.Nvme.Coverage
import DgxSpark.Nvme.Publish
import DgxSpark.Library.Grid
import DgxSpark.Library.Interleave
import DgxSpark.Dcp.BlockTable
import DgxSpark.Dcp.AppendBlockIds
import DgxSpark.Dcp.TableRows
import DgxSpark.Dcp.SlotAgreement
import DgxSpark.Dcp.Indexer
import DgxSpark.Dcp.PrefillBounds
import DgxSpark.Dcp.PrefillChunks
import DgxSpark.Dcp.DecodeExpansion
import DgxSpark.Dcp.Collectives
import DgxSpark.Dcp.TopkMerge
import DgxSpark.Offload.StoreJobs
import DgxSpark.Offload.StoreProgress
import DgxSpark.Offload.StoreRun
import DgxSpark.Library.FirstMax
import DgxSpark.Library.ExactFloat
import DgxSpark.Dcp.AttentionMerge
import DgxSpark.Spec.Verification
import DgxSpark.Spec.Stock
import DgxSpark.Spec.Rejection
import DgxSpark.Spec.Committed
import DgxSpark.Spec.OptOut
import DgxSpark.Spec.Greedy
import DgxSpark.Spec.BlockStats
import DgxSpark.Slab.Corruption
import DgxSpark.Slab.Geometry
import DgxSpark.Slab.Rebuild
import DgxSpark.Library.Cell
import DgxSpark.Slab.Recency
import DgxSpark.Slab.Faults
import DgxSpark.Library.Fallible
import DgxSpark.Nvme.PlanBatches
import DgxSpark.Nvme.PlanCoverage
import DgxSpark.Library.Buffer
import DgxSpark.Nvme.RangeReader
import DgxSpark.Nvme.TileReads
import DgxSpark.Scheduler.InvalidBlocks
import DgxSpark.Scheduler.InvalidRecovery
import DgxSpark.Spec.Adaptive
import DgxSpark.Spec.PrefixStats
import DgxSpark.Library.Interpolate
import DgxSpark.Library.Json
import DgxSpark.Spec.CostCurve
import DgxSpark.Spec.PrefixStats
import DgxSpark.Library.Interpolate
import DgxSpark.Library.Json
import DgxSpark.Spec.CostCurve
import DgxSpark.Spec.AdaptiveLessons
import DgxSpark.Spec.AdaptiveRuns
import DgxSpark.Spec.AdaptiveFeedback
import DgxSpark.Spec.ThinkState
import DgxSpark.Spec.ThinkRuns
import DgxSpark.Library.CopyStream
import DgxSpark.Nvme.Restore
import DgxSpark.Nvme.StreamSteps
import DgxSpark.Nvme.StreamLedger
import DgxSpark.Nvme.RestoreExact
import DgxSpark.Dcp.CompactCandidates
import DgxSpark.Library.ByteLanes
import DgxSpark.Library.Rounding
import DgxSpark.Bench.RepackDenseInt8
import DgxSpark.Bench.TensorFile
import DgxSpark.Library.JsonText
import DgxSpark.Spec.ConfidenceTrace
import DgxSpark.Spec.ConfidencePackets
import DgxSpark.Nvme.LoaderState
import DgxSpark.Nvme.ScalarDelta
import DgxSpark.Nvme.StreamWeights
import DgxSpark.Nvme.StreamTransitions
import DgxSpark.Nvme.StreamComplete
import DgxSpark.Nvme.TileContents
import DgxSpark.Nvme.Coalesced
import DgxSpark.Nvme.CoalescedSource
import DgxSpark.Nvme.CoalescedContents
import DgxSpark.Nvme.CoalescedPump
import DgxSpark.Nvme.CoalescedBody
import DgxSpark.Nvme.CoalescedExact
import DgxSpark.Nvme.CoalescedTurns
import DgxSpark.Nvme.CoalescedBudget
import DgxSpark.Nvme.CoalescedProgress
import DgxSpark.Nvme.CoalescedWork
import DgxSpark.Offload.Lookup
import DgxSpark.Offload.LookupHits
import DgxSpark.Offload.LookupRounds
import DgxSpark.Library.SetDict
import DgxSpark.Offload.Connector
import DgxSpark.Offload.ConnectorAccounts
import DgxSpark.Offload.ConnectorFinals
import DgxSpark.Offload.ConnectorFlush
import DgxSpark.Offload.ConnectorReset
