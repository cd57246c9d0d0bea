import FinalServer.Acceptance
import FinalServer.Accounts
import FinalServer.Action
import FinalServer.Atomicity
import FinalServer.Authentication
import FinalServer.CString
import FinalServer.Cesar
import FinalServer.ChatAdmins
import FinalServer.ChatIsolation
import FinalServer.ChatPrivacy
import FinalServer.ChatSql
import FinalServer.ConcurrentExit
import FinalServer.DataRequest
import FinalServer.Database
import FinalServer.DbAnswers
import FinalServer.Decimal
import FinalServer.ErrorOrder
import FinalServer.Faults
import FinalServer.FetchedRows
import FinalServer.FieldList
import FinalServer.ForkServer
import FinalServer.HandleAction
import FinalServer.HeaderForm
import FinalServer.Heap
import FinalServer.Heartbeat
import FinalServer.Identifiers
import FinalServer.Identity
import FinalServer.Initialised
import FinalServer.Isolation
import FinalServer.Json
import FinalServer.JsonPrint
import FinalServer.JsonRefinement
import FinalServer.JsonWire
import FinalServer.LastMessage
import FinalServer.LiveConnection
import FinalServer.LocalArray
import FinalServer.LogicGate
import FinalServer.LogicRequest
import FinalServer.Login
import FinalServer.LoginReset
import FinalServer.Managers
import FinalServer.Membership
import FinalServer.ParticipantLimit
import FinalServer.ParticipantsArray
import FinalServer.Pasts
import FinalServer.Polling
import FinalServer.Pool
import FinalServer.Prog
import FinalServer.Queue
import FinalServer.QueueFailures
import FinalServer.QueueRefinement
import FinalServer.Registration
import FinalServer.RemovalEffect
import FinalServer.ReportedCounts
import FinalServer.ReverseProxyFl
import FinalServer.ReverseProxyLd
import FinalServer.RoundRobin
import FinalServer.Run
import FinalServer.Segmentation
import FinalServer.SendReceive
import FinalServer.Serve
import FinalServer.Session
import FinalServer.SessionGate
import FinalServer.SessionLogin
import FinalServer.SessionSecrecy
import FinalServer.SessionServing
import FinalServer.SharedCounter
import FinalServer.SlowListener
import FinalServer.SocketAddr
import FinalServer.SqlRows
import FinalServer.SqlText
import FinalServer.StatementSql
import FinalServer.StoredMessages
import FinalServer.Tables
import FinalServer.TextsFit
import FinalServer.TokenRemoval
import FinalServer.UserSql
