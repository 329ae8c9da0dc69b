import Mlx5Netperf.Lib.WordArith
import Mlx5Netperf.Lib.CircularRing
import Mlx5Netperf.Lib.NullTerminated
import Mlx5Netperf.Lib.ByteMemory
import Mlx5Netperf.Lib.ByteOrder
import Mlx5Netperf.Lib.ByteMoves
import Mlx5Netperf.Lib.Transition
import Mlx5Netperf.Lib.PageGrid
import Mlx5Netperf.Lib.Scanning
import Mlx5Netperf.Lib.Getopt
import Mlx5Netperf.Net.Headers
import Mlx5Netperf.Base.Request
import Mlx5Netperf.Base.Mbuf
import Mlx5Netperf.Base.Memcpy
import Mlx5Netperf.Base.Mempool
import Mlx5Netperf.Mlx5.Cqe
import Mlx5Netperf.Mlx5.Queues
import Mlx5Netperf.State
import Mlx5Netperf.MempoolCreate
import Mlx5Netperf.MempoolRun
import Mlx5Netperf.Completion
import Mlx5Netperf.Mlx5.SendFifo
import Mlx5Netperf.Mlx5.Gather
import Mlx5Netperf.Mlx5.FillTxSegment
import Mlx5Netperf.Mlx5.SendRing
import Mlx5Netperf.Mlx5.SendRun
import Mlx5Netperf.Mlx5.PostMbufs
import Mlx5Netperf.Mlx5.Descriptor
import Mlx5Netperf.Mlx5.InlineHeader
import Mlx5Netperf.Mlx5.ScatterList
import Mlx5Netperf.Mlx5.PostedDescriptor
import Mlx5Netperf.Mlx5.HeaderIntact
import Mlx5Netperf.Server.Request
import Mlx5Netperf.Server.Process
import Mlx5Netperf.Client.Request
import Mlx5Netperf.Server.ZeroCopy
import Mlx5Netperf.Server.Copy
import Mlx5Netperf.Server.Batch
import Mlx5Netperf.Server.RequestedData
import Mlx5Netperf.Server.SameFrame
import Mlx5Netperf.Server.Loop
import Mlx5Netperf.Lib.CyclicWalk
import Mlx5Netperf.Server.ReceivedBytes
import Mlx5Netperf.Server.RefcntCells
import Mlx5Netperf.Server.Echo
import Mlx5Netperf.Server.BuildRun
import Mlx5Netperf.Server.ReplyOutcome
import Mlx5Netperf.Server.BatchOutcome
import Mlx5Netperf.Client.PointerChase
import Mlx5Netperf.Client.Reply
import Mlx5Netperf.Lib.LapRing
import Mlx5Netperf.Mlx5.GatherRx
import Mlx5Netperf.Mlx5.Poll
import Mlx5Netperf.Mlx5.CompletionOrder
import Mlx5Netperf.Mlx5.CompletionRun
import Mlx5Netperf.Mlx5.ReceiveRing
import Mlx5Netperf.Mlx5.RefillReturn
import Mlx5Netperf.Mlx5.ReceiveCall
import Mlx5Netperf.Mlx5.ReceiveRun
import Mlx5Netperf.Mlx5.CompletionRoom
import Mlx5Netperf.Client.Accounting
import Mlx5Netperf.Mlx5.ChainShape
import Mlx5Netperf.Server.ReplyChains
import Mlx5Netperf.Client.SentChains
import Mlx5Netperf.ReleasedPools
import Mlx5Netperf.Server.FailedBatch
import Mlx5Netperf.Server.PreparedBatch
import Mlx5Netperf.Server.CacheLines
import Mlx5Netperf.Server.ReplyAccesses
import Mlx5Netperf.Server.ReleasedRequests
import Mlx5Netperf.Server.FlipHeaders
import Mlx5Netperf.Lib.OnesComplement
import Mlx5Netperf.Server.HeaderChecksums
import Mlx5Netperf.Server.RefcntReports
import Mlx5Netperf.Server.ReplyChecksums
import Mlx5Netperf.FrameLengths
import Mlx5Netperf.Arguments
import Mlx5Netperf.ArgumentRanges
import Mlx5Netperf.Lib.FloatRounding
import Mlx5Netperf.Latency.SampleStores
import Mlx5Netperf.Lib.ThreeWay
import Mlx5Netperf.Latency.Percentiles
import Mlx5Netperf.Latency.PacketsRequired
import Mlx5Netperf.Latency.UncutSamples
import Mlx5Netperf.Latency.Buckets
import Mlx5Netperf.Client.ChasedRequests
import Mlx5Netperf.Server.LiveReferences
import Mlx5Netperf.Server.LiveChains
import Mlx5Netperf.Server.ReferenceCounts
import Mlx5Netperf.Server.CopyMoves
import Mlx5Netperf.Server.Holdings
import Mlx5Netperf.Server.QueueHoldings
import Mlx5Netperf.Mlx5.ReceiveFrame
import Mlx5Netperf.Server.WholeServer
import Mlx5Netperf.Server.ServerCustody
import Mlx5Netperf.Server.CheckedRuns
import Mlx5Netperf.Server.ServerProgress
import Mlx5Netperf.Mlx5.RefusedSend
import Mlx5Netperf.Server.PostingRounds
import Mlx5Netperf.Mlx5.DescriptorSpan
import Mlx5Netperf.Server.MemoryLayout
import Mlx5Netperf.Server.InFlight
import Mlx5Netperf.Server.RepliesInFlight
import Mlx5Netperf.Client.WholeClient
import Mlx5Netperf.Client.Pacing
import Mlx5Netperf.Client.RoundTrips
import Mlx5Netperf.Client.StalledClient
import Mlx5Netperf.Client.ClientCustody
import Mlx5Netperf.Client.ClientProgress
import Mlx5Netperf.Server.ServerMemory
