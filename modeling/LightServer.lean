import LightServer.Base.Run
import LightServer.Base.Call
import LightServer.Base.EdgeQueue
import LightServer.Base.Session
import LightServer.Base.Channel
import LightServer.Base.Incremental
import LightServer.Base.Memory
import LightServer.Base.RateLimit
import LightServer.Base.XorLinear
import LightServer.Base.CrcBurst
import LightServer.SocketObject
import LightServer.SocketManager
import LightServer.Handlers
import LightServer.Machine
import LightServer.Steps
import LightServer.Frame
import LightServer.Control
import LightServer.CommandQueue
import LightServer.Accept
import LightServer.SendStream
import LightServer.Table
import LightServer.TableSteps
import LightServer.TableInvariant
import LightServer.Dispatch
import LightServer.DisconnectOwner
import LightServer.Stm32Crc
import LightServer.DmPacket
import LightServer.DmFormat
import LightServer.DmPacketRead
import LightServer.DmFraming
import LightServer.ServerCallbacks
import LightServer.FileDescriptors
import LightServer.StopSteps
import LightServer.ClientCallbacks
import LightServer.Handshake
import LightServer.Adding
import LightServer.Receive
import LightServer.ReceiveCalls
import LightServer.ProcessIo
import LightServer.SendCalls
import LightServer.Datagrams
import LightServer.RejectedDatagrams
import LightServer.Operations
import LightServer.ConnectionTable
import LightServer.ConnectionRuns
import LightServer.BitwiseCrc
import LightServer.CorruptFrames
import LightServer.DmResync
import LightServer.StoredMessages
import LightServer.DoWork
import LightServer.ManagerStart
import LightServer.OpenFds
import LightServer.Lifecycle
import LightServer.ServerStart
import LightServer.ListenSocket
import LightServer.ServerRestart
import LightServer.StopReleases
import LightServer.OwnedFds
import LightServer.RemovalRace
import LightServer.ActiveTime
import LightServer.KeepAlive
import LightServer.DmReads
import LightServer.DmMemory
import LightServer.HexDump
import LightServer.ReceiveLimit
import LightServer.SilenceSweep
import LightServer.IoResults
import LightServer.SocketAccount
import LightServer.ServerSockets
import LightServer.CommandOrder
import LightServer.PendingOutput
import LightServer.ServerObjects
import LightServer.BurstFrames
import LightServer.DmStream
import LightServer.Listeners
import LightServer.TcpServerTester
import LightServer.OwnedConnections
import LightServer.OwnedSockets
import LightServer.UdpServerTester
import LightServer.ExitSignal
import LightServer.ManagerFds
import LightServer.Base.Progress
import LightServer.WorkerProgress
import LightServer.StopCompletes
import LightServer.SendDrains
import LightServer.Console
