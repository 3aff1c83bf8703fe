import HftFixEngine.Shared.Loop
import HftFixEngine.Shared.Run
import HftFixEngine.Shared.Slots
import HftFixEngine.Shared.Ring
import HftFixEngine.Shared.Monitor
import HftFixEngine.Shared.Consume
import HftFixEngine.Shared.SortedInsert
import HftFixEngine.Shared.BinarySearch
import HftFixEngine.Shared.Word
import HftFixEngine.Shared.Scan
import HftFixEngine.Shared.Words
import HftFixEngine.Shared.SortedMap
import HftFixEngine.Shared.LastWriter
import HftFixEngine.Shared.Grouped
import HftFixEngine.Protocol.ParsedOrder
import HftFixEngine.Matching.MatchingEngine
import HftFixEngine.Matching.MatchingSpec
import HftFixEngine.Matching.BookTrades
import HftFixEngine.Matching.PriceTime
import HftFixEngine.Matching.Sweep
import HftFixEngine.Matching.Conservation
import HftFixEngine.Matching.SymbolIndependence
import HftFixEngine.Matching.ClientIds
import HftFixEngine.Matching.ZeroAllocHftOrderBook
import HftFixEngine.Matching.ZeroAllocLevel
import HftFixEngine.Matching.ZeroAllocStore
import HftFixEngine.Matching.ZeroAllocResting
import HftFixEngine.Matching.ZeroAllocSpec
import HftFixEngine.Matching.ZeroAllocInvariant
import HftFixEngine.Matching.LiveOrders
import HftFixEngine.Matching.ZeroAllocReport
import HftFixEngine.Matching.ZeroAllocRefinement
import HftFixEngine.Matching.ZeroAllocCapacity
import HftFixEngine.Matching.TradeReporting
import HftFixEngine.Matching.CallAgreement
import HftFixEngine.Protocol.FixParser
import HftFixEngine.Protocol.ProtocolParser
import HftFixEngine.Protocol.Decimal
import HftFixEngine.Protocol.ExactPrice
import HftFixEngine.Protocol.FixFields
import HftFixEngine.Protocol.FieldScan
import HftFixEngine.Protocol.JunkField
import HftFixEngine.Protocol.WireFormats
import HftFixEngine.Protocol.PreTradeRiskManager
import HftFixEngine.Protocol.RiskGate
import HftFixEngine.Protocol.SequenceGapDetector
import HftFixEngine.Protocol.GapPartition
import HftFixEngine.Protocol.ResendRequest
import HftFixEngine.Protocol.SequenceReorderBuffer
import HftFixEngine.Protocol.ReorderWaiting
import HftFixEngine.Protocol.ReorderInOrder
import HftFixEngine.Protocol.ReorderAccounting
import HftFixEngine.Protocol.ReorderPaths
import HftFixEngine.Protocol.FlatOrderBook
import HftFixEngine.Protocol.FlatBookRuns
import HftFixEngine.Protocol.OrderBookRecoveryManager
import HftFixEngine.Protocol.RecoveryConvergence
import HftFixEngine.Protocol.RecoveryRuns
import HftFixEngine.Protocol.RecoverySymbols
import HftFixEngine.Networking.FixProducer
import HftFixEngine.Networking.FeedArbitrator
import HftFixEngine.Networking.FeedArbitration
import HftFixEngine.Common.SPSCQueue
import HftFixEngine.Common.SPSCFifo
import HftFixEngine.Common.SPSCCalls
import HftFixEngine.Common.CallsAlone
import HftFixEngine.Common.MpscQueue
import HftFixEngine.Common.MpscFifo
import HftFixEngine.Common.MpscWakeUp
import HftFixEngine.Common.MpscErrand
import HftFixEngine.Common.ConsoleLogger
import HftFixEngine.Common.ConsoleOrder
import HftFixEngine.Common.ConsoleShutdown
import HftFixEngine.Common.Handoff
import HftFixEngine.Common.HandoffProgress
import HftFixEngine.Engine.Ingress
import HftFixEngine.Worker.FixWorker
import HftFixEngine.Worker.FixWorkerLog
import HftFixEngine.Worker.FixWorkerCounts
import HftFixEngine.Engine.HftOrderBookEngine
import HftFixEngine.Engine.MatchingWorker
import HftFixEngine.Engine.Admission
import HftFixEngine.Engine.AtMostOnce
import HftFixEngine.Engine.Instruments
import HftFixEngine.Engine.EngineAgreement
import HftFixEngine.Engine.TelemetryLaw
import HftFixEngine.Engine.Pipeline
import HftFixEngine.Engine.BinaryAcceptance
import HftFixEngine.Engine.MessageType
import HftFixEngine.Engine.DepthDeck
import HftFixEngine.Networking.FrameHeaders
import HftFixEngine.Networking.UdpFallback
import HftFixEngine.Networking.AfXdpRxConsumer
import HftFixEngine.Networking.PacketMmapRxConsumer
import HftFixEngine.Networking.Cleanup
import HftFixEngine.Networking.DirectQueue
import HftFixEngine.Networking.Dataset
import HftFixEngine.Networking.BinaryDataset
import HftFixEngine.Networking.EngineLauncher
import HftFixEngine.Networking.LaunchUsage
import HftFixEngine.Networking.TextDataset
import HftFixEngine.Arena.ProtocolArena
import HftFixEngine.Engine.Exchange
import HftFixEngine.Engine.EncodedStreams
import HftFixEngine.Engine.GaplessStream
import HftFixEngine.Monitoring.CsvPerformanceMonitor
import HftFixEngine.Monitoring.MonitorRows
import HftFixEngine.Monitoring.MonitorFinal
import HftFixEngine.Scripts.FixLine
import HftFixEngine.Scripts.GenerateMultiProtocolMessages
import HftFixEngine.Scripts.GeneratedDataset
import HftFixEngine.Scripts.GeneratedDirectRun
import HftFixEngine.Scripts.GenerateFixMessages
