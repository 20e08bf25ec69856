import GameServer.Lib.Execution
import GameServer.Lib.OrdMap
import GameServer.Lib.Bytes
import GameServer.Lib.ReadProgram
import GameServer.Lib.Counted
import GameServer.Network.Data
import GameServer.Network.BufferUtils
import GameServer.Network.CommandTable
import GameServer.Network.Datagram
import GameServer.Match.Match
import GameServer.Match.InstanceIds
import GameServer.Match.Run
import GameServer.Match.PlayerEvents
import GameServer.Network.Sender
import GameServer.Network.SenderSafety
import GameServer.Network.Handshake
import GameServer.Network.QueueStatistics
import GameServer.Server.Registry
import GameServer.Server.RegistryRuns
import GameServer.Server.World
import GameServer.Server.Refinement
import GameServer.Server.LoginRegistry
import GameServer.Server.AuthenticatedUsers
import GameServer.Server.EventSessions
import GameServer.Network.SendQueue
import GameServer.Network.Closing
import GameServer.Lib.Stream
import GameServer.Network.Framing
import GameServer.Match.FrameSize
import GameServer.Match.OrientationBuffer
import GameServer.Match.JoinRuns
import GameServer.Match.PlayerMutex
import GameServer.Network.CommandQueues
import GameServer.Network.SessionTables
import GameServer.Network.RemovalQueue
import GameServer.Network.UdpEndpoint
import GameServer.Network.UdpCommands
import GameServer.Lib.Index
import GameServer.Server.MatchIndex
import GameServer.Lib.Grouping
import GameServer.Server.ActiveMatches
import GameServer.Server.Authorization
import GameServer.Server.HandlerInputs
import GameServer.Match.OrientationRelay
import GameServer.Server.AsyncRemoval
import GameServer.Lib.Announcement
import GameServer.Match.StartMessages
import GameServer.Match.Lifecycle
import GameServer.Match.Ending
import GameServer.Server.PayloadReads
import GameServer.Network.IdleTimeout
import GameServer.Network.RemovalLoop
import GameServer.Server.IdentifyReply
import GameServer.Lib.Printf
import GameServer.Logger
import GameServer.Network.ReadLoop
import GameServer.Network.ReceiveChain
import GameServer.Server.JoinReply
import GameServer.Lib.IoService
import GameServer.Network.Lifetimes
import GameServer.Network.Survival
import GameServer.Network.Services
import GameServer.Network.Wire
import GameServer.Network.SendPath
import GameServer.Network.SendCounters
import GameServer.Network.Intake
import GameServer.Server.MatchTraffic
import GameServer.Lib.Periodic
import GameServer.Match.OrientationRate
import GameServer.Server.Hosting
import GameServer.Lib.LockOrder
import GameServer.Server.Locks
import GameServer.Server.EndToEnd
import GameServer.Lib.Heap
import GameServer.Network.CommandBuffers
