import FdpBench.Lib.Trace
import FdpBench.Lib.Checked
import FdpBench.Lib.Lcg
import FdpBench.Lib.ByteCodec
import FdpBench.Lib.KeyedList
import FdpBench.Lib.Except
import FdpBench.BlockExecutor.LatencyCollector
import FdpBench.IoChurn.Objects
import FdpBench.IoChurn.Checksum
import FdpBench.IoChurn.BlobData
import FdpBench.IoChurn.EntryFunctions
import FdpBench.IoChurn.Store
import FdpBench.IoChurn.Invariants
import FdpBench.IoChurn.BlobUpdates
import FdpBench.IoChurn.CounterVersions
import FdpBench.BenchTps.ConfirmPoller
import FdpBench.ExecutorBenchmark.BlockMetadata
import FdpBench.ExecutorBenchmark.BlockGeneration
import FdpBench.Lib.CappedTable
import FdpBench.Lib.OrderStatistic
import FdpBench.Lib.BinaryFloat
import FdpBench.Lib.Word64
import FdpBench.BenchTps.LatencyStats
import FdpBench.SuiBench.Worker
import FdpBench.SuiBench.TrackedObjects
import FdpBench.SuiBench.AnalyzeLatency
import FdpBench.SuiBench.RoundComparison
import FdpBench.SuiBench.MemoryPressure
import FdpBench.SuiBench.LatencyTable
import FdpBench.ExecutorBenchmark.Measurements
import FdpBench.ExecutorBenchmark.FloatPercentiles
import FdpBench.ExecutorBenchmark.MeasurementPeriod
import FdpBench.Lib.Chunking
import FdpBench.Ethereum.ImportChunked
