import DSFramework.Lib.Threads
import DSFramework.DSCommunication.ConcurrentQueue
import DSFramework.DSCommunication.ConcurrentQueue.WakeUps
import DSFramework.DSCommunication.ConcurrentQueue.Linearization
import DSFramework.DSCommunication.ConcurrentQueue.Count
import DSFramework.DSCommunication.ThreadPool
import DSFramework.DSCommunication.ThreadPool.Tasks
import DSFramework.DSCommunication.ThreadPool.Shutdown
import DSFramework.Lib.Machine
import DSFramework.Lib.Beside
import DSFramework.Lib.Framing
import DSFramework.DSCommunication.DSCPacket
import DSFramework.DSCommunication.Session.Reader
import DSFramework.DSCommunication.Session.Writer
import DSFramework.DSCommunication.Session.Lengths
import DSFramework.DSCommunication.Session.Connection
import DSFramework.DSCommunication.Session
import DSFramework.DSCommunication.AsyncTcpServer
import DSFramework.DSCommunication.ConAcceptor
import DSFramework.DSCommunication.Session.Destruction
import DSFramework.DSCommunication.Session.Events
import DSFramework.DSCommunication.SessionManager
import DSFramework.DSCommunication.AsyncTcpClient
import DSFramework.Lib.RoundRobin
import DSFramework.DSCommunication.IOServicePool
import DSFramework.DSCommunication.IOServicePool.Returns
import DSFramework.DSCommunication.Logger
import DSFramework.DSCommunication.Logger.Shutdown
import DSFramework.DSRPC.RPCPacket
import DSFramework.DSRPC.RPCPacket.ByteSize
import DSFramework.Lib.Grammar
import DSFramework.DSRPC.RPCPacket.Runtime
import DSFramework.DSRPC.RPCPacket.Parse
import DSFramework.DSRPC.RPCPacket.Wire
import DSFramework.DSRPC.RPCPacket.RoundTrip
import DSFramework.DSRPC.RPCPacket.Accepted
import DSFramework.DSRPC.RPCPacketManager
import DSFramework.DSRPC.RPCProcessor
import DSFramework.DSRPC.Dispatcher
import DSFramework.DSRPC.Dispatcher.Limit
import DSFramework.DSRPC.Dispatcher.Destruction
import DSFramework.Lib.Relay
import DSFramework.Lib.HashIterators
import DSFramework.DSRPC.RPCEventHandler
import DSFramework.DSRPC.ResponseDispatcher.Sizes
import DSFramework.DSRPC.RPCServer
import DSFramework.DSRPC.RPCServer.Carriers
import DSFramework.DSRPC.RPCServer.Lives
import DSFramework.DSRPC.RPCServer.Responses
import DSFramework.DSRPC.RPCServer.Execution
import DSFramework.DSRPC.RPCServer.Requests
import DSFramework.DSRPC.RPCServer.Statuses
import DSFramework.DSRPC.RPCServer.Stamps
import DSFramework.DSRPC.RPCServer.Times
import DSFramework.DSRPC.RPCServer.Posting
import DSFramework.DSRPC.RPCServer.Counts
import DSFramework.DSRPC.RPCServer.Delivery
import DSFramework.DSRPC.RPCServer.Progress
import DSFramework.DSRPC.RPCServer.WakeUps
import DSFramework.DSRPC.RPCServer.Owners
import DSFramework.DSRPC.RPCServer.Iterators
import DSFramework.DSRPC.RPCClientStub
import DSFramework.DSRPC.RPCServer.Replies
import DSFramework.DSRPC.RPCServer.Carried
import DSFramework.DSRPC.RPCServer.Results
import DSFramework.DSRPC.Exchange
import DSFramework.DSRPC.Exchange.Answered
import DSFramework.DSRPC.Exchange.Results
import DSFramework.DSRPC.RPCClient
import DSFramework.DSRPC.RPCClient.Returns
import DSFramework.DSRPC.HelloWorldTestService
import DSFramework.DSRPC.HelloWorldTestService.Greeting
import DSFramework.DSRPC.RPCProcessor.Answers
import DSFramework.DSRPC.RPCProcessor.Shutdown
import DSFramework.DSRPC.RPCProcessor.Registration
