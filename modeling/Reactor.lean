import Reactor.Lib.Memory
import Reactor.Lib.Trace
import Reactor.Lib.DataRefinement
import Reactor.Buffer
import Reactor.BufferQueue
import Reactor.BufferSlack
import Reactor.Channel
import Reactor.PollerCoherence
import Reactor.TcpConnection
import Reactor.ConnRun
import Reactor.OutputStream
import Reactor.Backlog
import Reactor.InterestMask
import Reactor.GracefulShutdown
import Reactor.EventLoop
import Reactor.Wakeup
import Reactor.PendingFunctors
import Reactor.Lib.Schedule
import Reactor.EventLoopThread
import Reactor.ThreadShutdown
import Reactor.LoopProgress
import Reactor.StateOrder
import Reactor.MemberFrame
import Reactor.TcpServer
import Reactor.ServerSteps
import Reactor.Placement
import Reactor.Lib.Rotation
import Reactor.RoundRobin
import Reactor.Registry
import Reactor.ThreadAffinity
import Reactor.ConnLife
import Reactor.PollerEntries
import Reactor.ConnStage
import Reactor.StageSteps
import Reactor.StageInvariant
import Reactor.CallbackProtocol
import Reactor.Lib.Infix
import Reactor.Lib.Heap
import Reactor.Lib.Tagged
import Reactor.Http.HttpRequest
import Reactor.Http.Lines
import Reactor.Http.Rendering
import Reactor.Http.Malformed
import Reactor.InetAddress
import Reactor.PeerAddress
import Reactor.ConnectionTable
import Reactor.Teardown
import Reactor.CrossThreadSend
import Reactor.CallOrder
import Reactor.CallTimes
import Reactor.SocketOrder
import Reactor.Lifetime
import Reactor.LifetimeSteps
import Reactor.EchoServer
import Reactor.Lib.Handshake
import Reactor.ThreadPool
import Reactor.QueuedLifetime
import Reactor.SingleLoop
import Reactor.ServerProgress
import Reactor.ClosedConnections
import Reactor.ServerEnds
import Reactor.MemberSteps
import Reactor.OutputProgress
import Reactor.StaleChannels
import Reactor.ChannelArming
import Reactor.Lib.Watch
import Reactor.Http.HeaderLines
import Reactor.Http.Dispatcher
import Reactor.Http.DispatcherTables
import Reactor.Http.Interchange
import Reactor.Http.FailedAdd
import Reactor.HttpC.EventLoop
import Reactor.HttpC.FdTable
import Reactor.Http.TaskQueue
import Reactor.Http.TaskDelivery
import Reactor.HttpC.Dispatch
import Reactor.HttpC.DispatchTables
import Reactor.HttpC.Watched
import Reactor.HttpC.WakeUp
import Reactor.HttpC.WakeUpRun
import Reactor.Http.SendBuffer
import Reactor.Http.BufferRoom
import Reactor.Http.BufferQueue
import Reactor.Http.HttpResponse
import Reactor.Lib.Loop
import Reactor.Http.FileTransfer
import Reactor.Lib.Errors
import Reactor.Http.Answered
import Reactor.HttpC.HttpRequest
import Reactor.Lib.PercentEncoding
import Reactor.HttpC.DecodeMsg
import Reactor.HttpC.Buffer
import Reactor.HttpC.BufferQueue
import Reactor.HttpC.Compaction
import Reactor.HttpC.Answered
import Reactor.Lib.RelativePath
import Reactor.HttpC.ServedPaths
import Reactor.HttpC.ParseLoop
import Reactor.HttpC.HeaderLookup
import Reactor.HttpC.FixedFields
import Reactor.HttpC.TcpConnection
import Reactor.Http.TcpConnection
import Reactor.Lib.HeadBody
import Reactor.Http.ResponseMessage
import Reactor.Http.Delivery
import Reactor.Http.Segments
import Reactor.Http.ConnRelease
import Reactor.Http.ClientView
import Reactor.HttpC.Delivery
import Reactor.Lib.Overlay
import Reactor.SimpleHttp.Server
import Reactor.SimpleHttp.RequestAssembly
