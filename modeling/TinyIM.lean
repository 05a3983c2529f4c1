import TinyIM.Library.Transition
import TinyIM.Library.Program
import TinyIM.Library.Interleaving
import TinyIM.Library.Framing
import TinyIM.Library.ByteOrder
import TinyIM.Protocol.Packet
import TinyIM.Protocol.StreamFraming
import TinyIM.Protocol.WireFormat
import TinyIM.Library.Decimal
import TinyIM.Gateway.Dispatch
import TinyIM.Gateway.ConnectionManager
import TinyIM.Store.Redis
import TinyIM.Gateway.Cluster
import TinyIM.Gateway.Membership
import TinyIM.Gateway.Location
import TinyIM.Auth.AuthService
import TinyIM.Auth.KickRace
import TinyIM.Chat.ChatService
import TinyIM.Chat.InboxSequence
import TinyIM.Chat.CursorSync
import TinyIM.Chat.Acknowledgement
import TinyIM.Chat.MessageBodies
import TinyIM.Auth.KickIsolation
import TinyIM.Auth.Eviction
import TinyIM.Auth.TokenStore
import TinyIM.Library.SqlLiteral
import TinyIM.Auth.PasswordLogin
import TinyIM.Chat.Authorisation
import TinyIM.Chat.Replication
import TinyIM.Chat.SessionOrder
import TinyIM.Relation.GroupFanOut
import TinyIM.Chat.PushNotify
import TinyIM.Library.ProtoWire
import TinyIM.Library.Utf16
import TinyIM.Protocol.Schema
import TinyIM.Web.Encoders
import TinyIM.Web.RequestSchema
import TinyIM.Web.Decoders
import TinyIM.Web.ResponseSchema
import TinyIM.Web.ConnectionManager
import TinyIM.Web.Handlers
import TinyIM.Web.SupersededSocket
import TinyIM.Web.SyncLoop
import TinyIM.Web.CatchUp
import TinyIM.Web.ReportedOnce
import TinyIM.Gateway.WriteQueue
import TinyIM.Store.DBPool
import TinyIM.Store.PoolInvariant
import TinyIM.Relation.FriendService
import TinyIM.Relation.Friendship
import TinyIM.Library.Delimited
import TinyIM.Auth.Handshake
import TinyIM.Web.Varint
import TinyIM.Library.Orbit
import TinyIM.Web.Termination
import TinyIM.Chat.ForwardSync
import TinyIM.Chat.MessageSql
import TinyIM.Chat.RefusedSend
import TinyIM.Library.Journal
import TinyIM.Library.ValueList
import TinyIM.Chat.BatchInsert
import TinyIM.Chat.ExactFanOut
import TinyIM.Relation.RelationService
import TinyIM.Relation.GroupIntegrity
import TinyIM.Relation.AddressedRequests
import TinyIM.Relation.CreatedGroup
import TinyIM.Relation.JoinOnce
import TinyIM.Relation.PendingRequests
import TinyIM.Auth.Registration
import TinyIM.Relation.TextFields
import TinyIM.Store.ReadFallback
import TinyIM.Library.SqlStatement
import TinyIM.Chat.SyncService
import TinyIM.Store.HandlerConnections
import TinyIM.Store.RedisClient
import TinyIM.Store.RedisPool
import TinyIM.Library.RoundRobin
import TinyIM.Store.ServiceRegistry
import TinyIM.Store.Discovery
import TinyIM.Web.LoginReplies
import TinyIM.Web.HeartbeatRepair
import TinyIM.Gateway.WriteAfterClose
import TinyIM.Library.OrderedSets
import TinyIM.Gateway.SessionRelation
import TinyIM.Library.Service
import TinyIM.Chat.Mailbox
import TinyIM.Chat.MailboxService
import TinyIM.Relation.SocialNetwork
import TinyIM.Relation.NetworkService
import TinyIM.Library.Leases
import TinyIM.Dispatch.ServiceDiscovery
import TinyIM.Dispatch.LiveGateways
import TinyIM.Backend.Services
import TinyIM.Backend.MessengerService
import TinyIM.Backend.Delivery
import TinyIM.Auth.Accounts
import TinyIM.Auth.AccountService
import TinyIM.Auth.SessionLife
import TinyIM.Backend.Installation
import TinyIM.Backend.Attribution
import TinyIM.Backend.Identity
import TinyIM.Library.Json
import TinyIM.Protocol.Http
import TinyIM.Auth.AuthClient
import TinyIM.Dispatch.HttpSession
import TinyIM.Dispatch.Connections
import TinyIM.Dispatch.Portal
import TinyIM.Dispatch.SignIn
import TinyIM.Gateway.HttpApi
import TinyIM.Gateway.AccountDesk
