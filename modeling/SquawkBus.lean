import SquawkBus.Library.Run
import SquawkBus.Library.Ledger
import SquawkBus.Library.Bulletin
import SquawkBus.Library.Framing
import SquawkBus.Library.Outcome
import SquawkBus.Library.Table
import SquawkBus.Library.Split
import SquawkBus.Library.Call
import SquawkBus.Library.ByteQueue
import SquawkBus.Library.Fifo
import SquawkBus.Library.Digits
import SquawkBus.Library.TextInput
import SquawkBus.Library.CommandLine
import SquawkBus.Library.Base64
import SquawkBus.Basic
import SquawkBus.Messages.Basic
import SquawkBus.Messages.Serialize
import SquawkBus.Messages.RoundTrip
import SquawkBus.Messages.Sending
import SquawkBus.Messages.WellFormed
import SquawkBus.Messages.Malformed
import SquawkBus.Messages.Text
import SquawkBus.Serialization.FrameBuffer
import SquawkBus.Serialization.FrameBufferIo
import SquawkBus.Serialization.FrameReader
import SquawkBus.Serialization.ReaderSession
import SquawkBus.Serialization.BufferSession
import SquawkBus.Serialization.BufferSize
import SquawkBus.Serialization.BasicToken
import SquawkBus.Serialization.Base64
import SquawkBus.Io.Handler
import SquawkBus.Io.Ssl
import SquawkBus.Io.TcpStream
import SquawkBus.Io.File
import SquawkBus.Io.PollHandlers
import SquawkBus.Io.FaithfulWrite
import SquawkBus.Io.BlockedWrite
import SquawkBus.Io.HandshakeFirst
import SquawkBus.Io.Refinement
import SquawkBus.Io.DescriptorClosed
import SquawkBus.Server.Interface
import SquawkBus.Server.SubscriptionManager
import SquawkBus.Server.NotificationManager
import SquawkBus.Server.PublisherManager
import SquawkBus.Server.Authorization
import SquawkBus.Server.Authentication
import SquawkBus.Server.Hub
import SquawkBus.Server.Interactor
import SquawkBus.Server.Distributor
import SquawkBus.Server.EventLoop
import SquawkBus.Server.SubscriptionCounts
import SquawkBus.Server.SubscriptionNotices
import SquawkBus.Server.ListenerCounts
import SquawkBus.Server.FailedListen
import SquawkBus.Server.ListenSubscribe
import SquawkBus.Server.Departure
import SquawkBus.Server.PublisherBooks
import SquawkBus.Server.AuthorizedPublishers
import SquawkBus.Server.AuthorizationHistory
import SquawkBus.Server.SpecLine
import SquawkBus.Server.AuthorizationYaml
import SquawkBus.Io.Endpoint
import SquawkBus.Server.Options
import SquawkBus.Server.PasswordCheck
import SquawkBus.Server.DigestText
import SquawkBus.Server.PasswordReload
import SquawkBus.Server.Noninterference
import SquawkBus.Server.Delivery
import SquawkBus.Server.OtherClients
import SquawkBus.Server.Footprint
import SquawkBus.Server.Receive
import SquawkBus.Server.Line
import SquawkBus.Server.UnicastDelivery
import SquawkBus.Server.Rejection
import SquawkBus.Server.Answer
import SquawkBus.Server.Healthy
import SquawkBus.Server.Consistency
import SquawkBus.Server.Survival
import SquawkBus.Server.OnlyAuthenticated
import SquawkBus.Server.OwnSession
import SquawkBus.Server.NothingSkipped
import SquawkBus.Server.LoopRule
import SquawkBus.Server.Conversation
import SquawkBus.Server.Provenance
import SquawkBus.Server.Reload
import SquawkBus.Server.Entitled
import SquawkBus.Server.Incoming
import SquawkBus.Server.Broker
import SquawkBus.Server.Broadcast
import SquawkBus.Server.Roll
import SquawkBus.Server.Supply
import SquawkBus.Client.SquawkbusClient
import SquawkBus.Client.Options
import SquawkBus.Client.Commands
import SquawkBus.Client.Line
import SquawkBus.Connection
import SquawkBus.Identity
