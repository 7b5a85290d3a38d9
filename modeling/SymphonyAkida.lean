import SymphonyAkida.Library.Runs
import SymphonyAkida.Library.Counting
import SymphonyAkida.Library.Classes
import SymphonyAkida.Library.UnionFind
import SymphonyAkida.Library.Greedy
import SymphonyAkida.Library.Order
import SymphonyAkida.Library.Outcome
import SymphonyAkida.Library.Json
import SymphonyAkida.Library.JsonSpec
import SymphonyAkida.Library.JsonCut
import SymphonyAkida.Library.JsonLines
import SymphonyAkida.Library.Bytes
import SymphonyAkida.Library.Pipe
import SymphonyAkida.Library.Arrays
import SymphonyAkida.Library.Strided
import SymphonyAkida.Library.Regex
import SymphonyAkida.Library.Assoc
import SymphonyAkida.Library.Jobs
import SymphonyAkida.Library.Locks
import SymphonyAkida.Library.Farm
import SymphonyAkida.Library.AveragePrecision
import SymphonyAkida.ShardClient
import SymphonyAkida.ShardClientSteps
import SymphonyAkida.ShardClientSlots
import SymphonyAkida.ShardClientDelivery
import SymphonyAkida.ShardClientLife
import SymphonyAkida.ShardClientProgress
import SymphonyAkida.ShardClientFailure
import SymphonyAkida.ShardClientDirectory
import SymphonyAkida.ShardClientAccounts
import SymphonyAkida.ShardClientRecords
import SymphonyAkida.ShardClientShutdown
import SymphonyAkida.ShardClientOrder
import SymphonyAkida.ShardClientReasons
import SymphonyAkida.ShardClientWork
import SymphonyAkida.Tiles
import SymphonyAkida.Detections
import SymphonyAkida.Suppression
import SymphonyAkida.SuppressionLaw
import SymphonyAkida.Fusion
import SymphonyAkida.FusionSpec
import SymphonyAkida.Merge
import SymphonyAkida.MergeSpec
import SymphonyAkida.FinishSpec
import SymphonyAkida.MergeStages
import SymphonyAkida.MergeDuplicates
import SymphonyAkida.MergeComplete
import SymphonyAkida.MergeProvenance
import SymphonyAkida.MergeMeaning
import SymphonyAkida.MergeRenaming
import SymphonyAkida.MergeReorder
import SymphonyAkida.MergeMixed
import SymphonyAkida.FusionComponents
import SymphonyAkida.FusionForest
import SymphonyAkida.MergeSymmetry
import SymphonyAkida.DetectionMap
import SymphonyAkida.DetectionMapSpec
import SymphonyAkida.InterpolatedPrecision
import SymphonyAkida.EvalShardMap
import SymphonyAkida.RawScale
import SymphonyAkida.IouAgreement
import SymphonyAkida.ScoreGate
import SymphonyAkida.FrameOrder
import SymphonyAkida.PerfectDetector
import SymphonyAkida.SourceNpz
import SymphonyAkida.Split
import SymphonyAkida.SplitSpec
import SymphonyAkida.Bilinear
import SymphonyAkida.Decode
import SymphonyAkida.DecodeSpec
import SymphonyAkida.DecodeExact
import SymphonyAkida.DecodeNms
import SymphonyAkida.DecodeMerge
import SymphonyAkida.DecodeLabels
import SymphonyAkida.Pipeline
import SymphonyAkida.PipelineSpec
import SymphonyAkida.ShardSystem
import SymphonyAkida.ShardSystemSpec
import SymphonyAkida.ShardSystemRun
import SymphonyAkida.ShardSystemRecords
import SymphonyAkida.ShardSystemVolume
import SymphonyAkida.ShardSystemProgress
import SymphonyAkida.ScoreDump
import SymphonyAkida.ScoreDumpSpec
import SymphonyAkida.FleetScore
import SymphonyAkida.ShardWire
import SymphonyAkida.ShardWireSpec
import SymphonyAkida.BatchWorker
import SymphonyAkida.BatchWorkerSpec
import SymphonyAkida.BatchClient
import SymphonyAkida.Counters
import SymphonyAkida.Datasets
import SymphonyAkida.Transport
import SymphonyAkida.AkidaChip
import SymphonyAkida.AkidaChipSpec
import SymphonyAkida.HttpServer
import SymphonyAkida.HttpServerSpec
import SymphonyAkida.HttpServerRun
import SymphonyAkida.SampleSets
import SymphonyAkida.ScanData
import SymphonyAkida.RoundRobin
import SymphonyAkida.RoundRobinSpec
import SymphonyAkida.RoundRobinRun
import SymphonyAkida.Fleet
import SymphonyAkida.FleetSpec
import SymphonyAkida.BatchSystem
import SymphonyAkida.BatchSystemRun
