import GameServer.Configure.Comments
import GameServer.Configure.Rendered
import GameServer.Game.Leaving
import GameServer.Game.ListedPlayers
import GameServer.Game.Movement
import GameServer.Game.Pictures
import GameServer.Game.Registration
import GameServer.Game.UnsetSlots
import GameServer.Library.Lockstep
import GameServer.Net.Connecting
import GameServer.Net.Routes
import GameServer.NetIo.Allocation
import GameServer.NetIo.Inbound
import GameServer.NetIo.Output
import GameServer.NetIo.PoolInv
import GameServer.NetIo.Reports
import GameServer.NetIo.Stalls
import GameServer.Queue.LockQueue
import GameServer.Queue.SpinLock
import GameServer.Server.Agreement
import GameServer.Server.Connections
import GameServer.Server.Deadlock
import GameServer.Server.Entries
import GameServer.Server.Frames
import GameServer.Server.Framing
import GameServer.Server.Outgoing
import GameServer.Server.Rest
import GameServer.Server.Rooms
import GameServer.Server.Sends
import GameServer.Server.Threads
import GameServer.Server.UnsetMemory
import GameServer.Server.WakeupReads
import GameServer.Server.Wakeups
