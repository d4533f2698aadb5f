import Dwframe.Lib.Splice
import Dwframe.Lib.OrderedSet
import Dwframe.Lib.Run
import Dwframe.Lib.InetText
import Dwframe.Lib.Tally
import Dwframe.ByteArray.Flat
import Dwframe.ByteArray.Ifstream
import Dwframe.ByteArray.SocketStream
import Dwframe.ByteArray.Frames
import Dwframe.ByteArray.Truncated
import Dwframe.Timer.Deadline
import Dwframe.Timer.Expiry
import Dwframe.Timer.Wakeup
import Dwframe.Scheduler.Accounts
import Dwframe.Scheduler.Exclusive
import Dwframe.Scheduler.Stopping
import Dwframe.Scheduler.Stop
import Dwframe.IoManager.Dispatch
import Dwframe.IoManager.Idle
import Dwframe.Hook.Wakeup
import Dwframe.Hook.Fresh
import Dwframe.Hook.Nonblock
import Dwframe.Hook.Tables
import Dwframe.Hook.Sleep
import Dwframe.Stream.FixSize
import Dwframe.Log.Appenders
import Dwframe.Config.Sharing
import Dwframe.Config.Keys
import Dwframe.Config.Setters
import Dwframe.Http.SplitReads
import Dwframe.Http.Method
import Dwframe.Http.Pipeline
import Dwframe.Http.Servlet
import Dwframe.Http.ContentLength
import Dwframe.Http.Server
import Dwframe.Http.Conversation
import Dwframe.Http.ResponseReadBack
import Dwframe.Fiber.Sync
import Dwframe.Log.History
import Dwframe.Log.Codec
import Dwframe.Config.Containers
import Dwframe.TcpServer.Accept
import Dwframe.Thread.Guards
import Dwframe.Thread.Start
import Dwframe.Address.Lookup
import Dwframe.Address.Text
import Dwframe.Log.Pattern
import Dwframe.Log.Output
