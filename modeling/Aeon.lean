import Aeon.Accept
import Aeon.Address
import Aeon.BlockingMode
import Aeon.Broadcast
import Aeon.CallRecords
import Aeon.ChatHistory
import Aeon.ChatServer
import Aeon.ChatTranscript
import Aeon.ClientServer
import Aeon.CloseNotices
import Aeon.Descriptors
import Aeon.ErrorCodes
import Aeon.ErrorReports
import Aeon.EventLoop
import Aeon.EventObject
import Aeon.EventOps
import Aeon.EventParts
import Aeon.EventRegistry
import Aeon.EventScopes
import Aeon.EventSocket
import Aeon.EventSteps
import Aeon.FailurePrograms
import Aeon.HandlerCalls
import Aeon.HttpAnswers
import Aeon.HttpClient
import Aeon.HttpGrammar
import Aeon.HttpIdle
import Aeon.HttpPipelining
import Aeon.HttpRequest
import Aeon.HttpResponses
import Aeon.HttpServer
import Aeon.HttpStreams
import Aeon.Library.Coalescing
import Aeon.Library.Cutting
import Aeon.Library.Decimal
import Aeon.Library.Delimiter
import Aeon.Library.Fifo
import Aeon.Library.History
import Aeon.Library.Ledger
import Aeon.Library.Lifetimes
import Aeon.Library.Memory
import Aeon.Library.Moves
import Aeon.Library.Program
import Aeon.Library.Reentrant
import Aeon.Library.Scanning
import Aeon.Library.Search
import Aeon.Library.Threads
import Aeon.ListenFailure
import Aeon.Listener
import Aeon.Native
import Aeon.NoticePrograms
import Aeon.NoticeScopes
import Aeon.PeerCollection
import Aeon.PeerRuns
import Aeon.PeerTraversal
import Aeon.PlainAccounts
import Aeon.PlainWorld
import Aeon.PollDatagrams
import Aeon.PollDeadlines
import Aeon.PollDispatch
import Aeon.PollEffects
import Aeon.PollLoads
import Aeon.PollMoves
import Aeon.PollNotices
import Aeon.PollProgress
import Aeon.PollReadable
import Aeon.PollRegistry
import Aeon.PollReturns
import Aeon.PollRuns
import Aeon.PollThread
import Aeon.PollTrace
import Aeon.PollWait
import Aeon.PollWakeups
import Aeon.PolledClient
import Aeon.PongClient
import Aeon.PongClock
import Aeon.PongGame
import Aeon.PongMatch
import Aeon.PongRally
import Aeon.PongSeats
import Aeon.PongServer
import Aeon.ProducerQueue
import Aeon.QueueBounds
import Aeon.QueueChunks
import Aeon.Reconnect
import Aeon.Resolver
import Aeon.SeparatePrograms
import Aeon.SessionDirections
import Aeon.SessionFailure
import Aeon.SessionFrame
import Aeon.SessionHandshake
import Aeon.SessionLifecycle
import Aeon.SessionLifetimes
import Aeon.SessionModel
import Aeon.SessionNotices
import Aeon.SessionPrograms
import Aeon.SessionQueue
import Aeon.SessionRefinement
import Aeon.SessionRetry
import Aeon.SessionRuns
import Aeon.SessionSeparation
import Aeon.SessionShutdown
import Aeon.SessionStart
import Aeon.SessionUpkeep
import Aeon.SessionVerification
import Aeon.SessionWakeups
import Aeon.SetRegistry
import Aeon.Socket
import Aeon.SocketIo
import Aeon.SocketRegistry
import Aeon.SslClient
import Aeon.SslConnect
import Aeon.SslEventSocket
import Aeon.SslLifetimes
import Aeon.SslReads
import Aeon.SslServer
import Aeon.SslSocket
import Aeon.StreamGaps
import Aeon.StreamLines
import Aeon.StreamReads
import Aeon.Tcp
import Aeon.TcpConnect
import Aeon.TcpSilence
import Aeon.TcpSocket
import Aeon.TlsAccounts
import Aeon.TlsPrograms
import Aeon.TlsReleases
import Aeon.TlsWorld
import Aeon.Udp
import Aeon.UdpClient
import Aeon.UdpDestinations
import Aeon.UdpForms
import Aeon.UdpPeers
import Aeon.UdpReads
import Aeon.UdpReplacement
import Aeon.UdpSends
import Aeon.UdpServer
import Aeon.UdpSilence
import Aeon.WriteLengths
import Aeon.WriteQueue
