import IpcBench.Transition
import IpcBench.Duo
import IpcBench.Words
import IpcBench.Channel
import IpcBench.Arguments
import IpcBench.Transfer
import IpcBench.Latency
import IpcBench.Process
import IpcBench.Client
import IpcBench.ClientBalance
import IpcBench.Server
import IpcBench.ServerBalance
import IpcBench.Pair
import IpcBench.Echo
import IpcBench.TcpWindow
import IpcBench.TcpEcho
import IpcBench.TcpCounters
import IpcBench.TcpProgress
import IpcBench.BlockingWindows
import IpcBench.BlockingProgress
import IpcBench.Traffic
import IpcBench.EventFd
import IpcBench.Mapping
import IpcBench.MappingRounds
import IpcBench.SharedMemory
import IpcBench.MappedFile
import IpcBench.MappedStart
import IpcBench.MessageQueue
import IpcBench.QueueRounds
import IpcBench.EventFdUni
import IpcBench.ShmSync
import IpcBench.Signals
import IpcBench.StartUp
import IpcBench.PipeSignals
import IpcBench.PipeRounds
import IpcBench.ServerClock
import IpcBench.Sorting
import IpcBench.Significand
import IpcBench.Analysis
import IpcBench.Orphan
import IpcBench.OrphanClient
import IpcBench.OrphanServer
import IpcBench.PeerGone
import IpcBench.Stretches
import IpcBench.Ledger
import IpcBench.Stamps
import IpcBench.TcpStamps
import IpcBench.BlockingStamps
import IpcBench.Descriptors
import IpcBench.TcpSockets
import IpcBench.SignalRounds
import IpcBench.SyncSegment
import IpcBench.CString
import IpcBench.BuildPath
import IpcBench.TransferHelpers
import IpcBench.CommandLine
import IpcBench.Numerals
import IpcBench.ParseOutput
import IpcBench.Grouping
import IpcBench.Statistics
import IpcBench.DefinedRuns
import IpcBench.Accesses
import IpcBench.LatencyBounds
import IpcBench.Calls
import IpcBench.NamedPipe
import IpcBench.Rendezvous
import IpcBench.PipeOpens
import IpcBench.FifoStart
import IpcBench.Handshake
import IpcBench.DomainStart
import IpcBench.TcpStart
import IpcBench.Folders
import IpcBench.ResultFiles
import IpcBench.Graphs
import IpcBench.Children
import IpcBench.Launch
import IpcBench.Stays
import IpcBench.InFlight
import IpcBench.Requests
import IpcBench.ZeroMq
import IpcBench.ZmqRounds
import IpcBench.ForkJoin
import IpcBench.PthreadTest
import IpcBench.Credits
import IpcBench.WindowTurns
