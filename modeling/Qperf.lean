import Qperf.Foundation.Rounding
import Qperf.Foundation.Loops
import Qperf.Foundation.Traces
import Qperf.Foundation.Components
import Qperf.Foundation.Readers
import Qperf.Foundation.Blocks
import Qperf.Foundation.Segments
import Qperf.Foundation.BigEndian
import Qperf.HarConverter.Model
import Qperf.HarConverter.Schedulers
import Qperf.HarConverter.Replay
import Qperf.HarConverter.Steps
import Qperf.HarConverter.Invariants
import Qperf.HarConverter.Accounting
import Qperf.HarConverter.Dependencies
import Qperf.HarConverter.Totality
import Qperf.HarConverter.Termination
import Qperf.HarConverter.Extraction
import Qperf.HarConverter.Serial
import Qperf.Client.Blocks
import Qperf.Client.Exchange
import Qperf.Client.Scheduler
import Qperf.Client.Release
import Qperf.Client.Pop
import Qperf.Client.Sessions
import Qperf.Quic.StreamFrame
import Qperf.Quic.FlowControl
import Qperf.Quic.SendStream
import Qperf.Quic.Framer
import Qperf.Quic.StreamWork
import Qperf.Quic.Pending
import Qperf.Quic.FrameSizes
import Qperf.Quic.ControlFrames
import Qperf.Quic.AckFrames
import Qperf.Quic.ValidStreams
import Qperf.Quic.Budget
import Qperf.Quic.Progress
import Qperf.Quic.Transmission
import Qperf.Quic.SentPackets
import Qperf.Quic.SentHistory
import Qperf.Quic.Outstanding
import Qperf.Quic.FrameSorter
import Qperf.Quic.SorterGaps
import Qperf.Quic.SorterPush
import Qperf.Quic.Reassembly
import Qperf.Quic.BufferRelease
import Qperf.Quic.Headers
import Qperf.Quic.CryptoStreams
import Qperf.Quic.CryptoSetup
import Qperf.Quic.PacketPacker
import Qperf.Quic.PacketSizes
import Qperf.Quic.PacketFits
import Qperf.Quic.IncomingStreams
import Qperf.Quic.OutgoingStreams
import Qperf.Quic.ReceivedPackets
import Qperf.Quic.HandlerSteps
import Qperf.Quic.FrameReports
import Qperf.Quic.BytesInFlight
import Qperf.Quic.LossTimer
import Qperf.Quic.Congestion
import Qperf.Quic.SendWindows
import Qperf.Quic.ReceiveControl
import Qperf.Quic.ReceiveWindows
import Qperf.Quic.SorterEntries
import Qperf.Quic.ReceiveStream
import Qperf.Quic.FrameParser
import Qperf.Quic.FrameRoundTrip
import Qperf.Quic.AckRoundTrip
import Qperf.Quic.PacketNumbers
import Qperf.Quic.ReceivedHistory
import Qperf.Quic.AckedPackets
import Qperf.Quic.StreamLimits
import Qperf.Quic.OpenWakeups
import Qperf.Quic.KeyUpdate
import Qperf.Quic.HeaderParser
import Qperf.Quic.PacketUnpacker
import Qperf.Quic.PacketRoundTrip
import Qperf.Quic.NumberSpaces
import Qperf.Quic.SorterFrames
import Qperf.Quic.CryptoDelivery
import Qperf.Quic.ReceiveSteps
import Qperf.Quic.Reading
import Qperf.Quic.ReceiveCredit
import Qperf.Quic.PackingSession
import Qperf.Quic.PackSteps
import Qperf.Quic.CryptoTracking
import Qperf.Quic.KeyDrop
import Qperf.Quic.CryptoResend
import Qperf.Quic.HeaderCodec
import Qperf.Quic.ParsedHeaders
import Qperf.Quic.Datagrams
import Qperf.Quic.HeaderLengths
import Qperf.Foundation.StableSort
import Qperf.Foundation.RoundRobin
import Qperf.HarConverter.PriorityQueue
import Qperf.HarConverter.Arrivals
import Qperf.HarConverter.Fairness
import Qperf.HarConverter.Timing
import Qperf.HarConverter.Statistics
import Qperf.Client.Domains
import Qperf.Client.ScriptPriority
import Qperf.Quic.FramerQueue
import Qperf.Quic.SorterComplement
import Qperf.Quic.SkippedNumbers
import Qperf.Quic.StreamSplit
import Qperf.Quic.AckParsing
import Qperf.Quic.AckSizes
import Qperf.Quic.TransportParameters
import Qperf.Quic.Durations
import Qperf.Quic.AckPromptness
import Qperf.Quic.WindowUpdates
import Qperf.Quic.StreamTransfer
