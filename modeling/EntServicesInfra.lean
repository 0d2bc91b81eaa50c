import EntServicesInfra.Lib.Runs
import EntServicesInfra.Lib.FrameCode
import EntServicesInfra.Lib.Bytes
import EntServicesInfra.Analytics.ActionLoop
import EntServicesInfra.Analytics.Delivery
import EntServicesInfra.RustAdapter.Commands
import EntServicesInfra.RustAdapter.CommandCode
import EntServicesInfra.RustAdapter.CommandStream
import EntServicesInfra.RustAdapter.Responses
import EntServicesInfra.RustAdapter.ResponseStream
import EntServicesInfra.Helpers.Synchro
import EntServicesInfra.Lib.Marks
import EntServicesInfra.RDKShell.LaunchDestroy
import EntServicesInfra.RDKShell.RequestQueues
import EntServicesInfra.RDKShell.RequestsServed
import EntServicesInfra.Helpers.JsonRpc
import EntServicesInfra.Helpers.JsonRpcInterface
import EntServicesInfra.Helpers.Promises
import EntServicesInfra.Lib.Ledger
import EntServicesInfra.WebBridge.Routing
import EntServicesInfra.WebBridge.Observers
import EntServicesInfra.WebBridge.Bridge
import EntServicesInfra.WebBridge.Pending
import EntServicesInfra.Lib.Journal
import EntServicesInfra.WebBridge.Subscriptions
import EntServicesInfra.WebBridge.Service
import EntServicesInfra.WebBridge.Sdk
import EntServicesInfra.Helpers.WebSocketLink
import EntServicesInfra.Helpers.WsManager
import EntServicesInfra.Lib.Intake
import EntServicesInfra.Analytics.ZoneDump
import EntServicesInfra.Analytics.SystemTime
import EntServicesInfra.RDKShell.DisplayRequests
import EntServicesInfra.RDKShell.HibernateBlock
import EntServicesInfra.Lib.Threads
import EntServicesInfra.RDKShell.ExternalDestroy
import EntServicesInfra.RDKShell.OnLaunched
import EntServicesInfra.Lib.Replica
import EntServicesInfra.Analytics.SystemServices
import EntServicesInfra.Lib.Registry
import EntServicesInfra.Helpers.EventDelegate
import EntServicesInfra.RDKShell.RialtoConnector
import EntServicesInfra.Helpers.CommandInterface
import EntServicesInfra.Helpers.IarmHandlers
import EntServicesInfra.RustAdapter.Descriptors
import EntServicesInfra.RustAdapter.Invoke
import EntServicesInfra.Helpers.TpTimer
import EntServicesInfra.RDKShell.DisplayNames
import EntServicesInfra.RDKShell.RialtoSessions
import EntServicesInfra.Analytics.ZoneText
import EntServicesInfra.Analytics.ZoneHistory
import EntServicesInfra.Analytics.ZoneBuffer
import EntServicesInfra.Analytics.TimeValidity
import EntServicesInfra.Analytics.Uptime
import EntServicesInfra.Analytics.EventMapper
import EntServicesInfra.Analytics.DatabaseConnection
import EntServicesInfra.Lib.Quoted
import EntServicesInfra.Lib.RowIds
import EntServicesInfra.Analytics.LocalStore
import EntServicesInfra.Analytics.StatementReader
import EntServicesInfra.Analytics.StoredEntries
import EntServicesInfra.Analytics.StoreCycles
import EntServicesInfra.WebBridge.Destinations
import EntServicesInfra.WebBridge.Cleanup
import EntServicesInfra.WebBridge.ExistsQuery
import EntServicesInfra.Lib.Gather
import EntServicesInfra.Lib.Histories
import EntServicesInfra.Lib.Stages
import EntServicesInfra.RDKShell.Variants
import EntServicesInfra.RDKShell.KeyIntercepts
import EntServicesInfra.RDKShell.BatchSetters
import EntServicesInfra.RDKShell.PowerKey
import EntServicesInfra.RDKShell.RenderLoop
import EntServicesInfra.Helpers.OneShotSerializer
import EntServicesInfra.RDKShell.DacLaunch
import EntServicesInfra.RDKShell.DacSuspend
import EntServicesInfra.RDKShell.LaunchBlockAV
import EntServicesInfra.Lib.Search
import EntServicesInfra.Helpers.StringCi
import EntServicesInfra.Lib.Owners
import EntServicesInfra.Helpers.InterfaceRef
import EntServicesInfra.Helpers.ExpectedValues
import EntServicesInfra.Helpers.Blink
import EntServicesInfra.Helpers.MoveFile
import EntServicesInfra.Lib.Base64
import EntServicesInfra.Helpers.ImageEncoder
import EntServicesInfra.Lib.KeyValue
import EntServicesInfra.Helpers.Settings
import EntServicesInfra.Helpers.ExpandProperties
import EntServicesInfra.Lib.Calls
import EntServicesInfra.Helpers.PropertyFile
import EntServicesInfra.Lib.FileTree
import EntServicesInfra.Lib.Pattern
import EntServicesInfra.Helpers.SearchFiles
import EntServicesInfra.Lib.Pieces
import EntServicesInfra.Helpers.Split
import EntServicesInfra.Helpers.LinkUpgrade
import EntServicesInfra.Helpers.PingPong
import EntServicesInfra.Helpers.OneShotDeserializer
import EntServicesInfra.Helpers.OneShotEnds
import EntServicesInfra.WebBridge.Conversation
import EntServicesInfra.RDKShell.SystemEvents
import EntServicesInfra.Lib.Mailbox
import EntServicesInfra.RDKShell.ScreenRequests
import EntServicesInfra.RDKShell.FactoryApp
import EntServicesInfra.RustAdapter.RemoteProcess
import EntServicesInfra.Analytics.BackendMock
import EntServicesInfra.WebBridge.Registration
import EntServicesInfra.RustAdapter.EndToEnd
import EntServicesInfra.RDKShell.Focus
import EntServicesInfra.RDKShell.Locks
import EntServicesInfra.NativeJS.RenderThread
